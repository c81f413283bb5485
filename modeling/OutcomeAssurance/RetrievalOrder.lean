import OutcomeAssurance.EvidenceView
import OutcomeAssurance.Fixtures

/-! # Retrieval order

    Candidates are scored, checked and compared in a loop; the order they come
    in shows only in the order of the lists that are built from them. -/

namespace RetrievalOrder

open CaseModel PyDict PyRuntime Investigation Retrieval Validation Resolution Pipeline
open EvidenceView

variable {R : Type} {rt : Runtime R} {c : Case}
variable {sources sources' candidates candidates' : List Source}

/-! ## Scores -/

/-- Sorting forgets the order. -/
theorem mergeSort_eq_of_perm {xs ys : List String} (h : xs.Perm ys) :
    xs.mergeSort (fun a b => a ≤ b) = ys.mergeSort fun a b => a ≤ b := by
  have hsorted : ∀ zs : List String,
      (zs.mergeSort fun a b => a ≤ b).Pairwise fun a b => decide (a ≤ b) = true := by
    intro zs
    refine List.pairwise_mergeSort ?_ ?_ zs
    · intro a b c hab hbc
      exact decide_eq_true (String.le_trans (of_decide_eq_true hab) (of_decide_eq_true hbc))
    · intro a b
      rcases String.le_total a b with hab | hba
      · simp [hab]
      · simp [hba]
  refine List.Perm.eq_of_pairwise ?_ (hsorted xs) (hsorted ys)
    ((List.mergeSort_perm xs _).trans (h.trans (List.mergeSort_perm ys _).symm))
  intro a b _ _ hab hba
  exact String.le_antisymm (of_decide_eq_true hab) (of_decide_eq_true hba)

theorem vocabularyOf_perm {docs docs' : List (List String)} (h : docs.Perm docs') :
    vocabularyOf docs = vocabularyOf docs' :=
  mergeSort_eq_of_perm h.flatten.dedup

theorem idf_perm (nx : Numerics R) (term : String) {docs docs' : List (List String)}
    (h : docs.Perm docs') : idf nx term docs = idf nx term docs' := by
  simp only [idf, h.countP_eq, h.length_eq]

theorem vector_perm (nx : Numerics R) (tokens vocabulary : List String)
    {docs docs' : List (List String)} (h : docs.Perm docs') :
    vector nx tokens vocabulary docs = vector nx tokens vocabulary docs' := by
  simp only [vector, idf_perm nx _ h]

/-- The score of one candidate among all. -/
def scoreOf (rt : Runtime R) (query : String) (candidates : List Source) (s : Source) : R :=
  let documents := tokenize rt query :: candidates.map fun c => tokenize rt c.text
  let vocabulary := vocabularyOf documents
  if vocabulary = [] ∨ tokenize rt query = [] then rt.numerics.ofNat 0
  else rt.numerics.round
    (cosineSimilarity rt.numerics (vector rt.numerics (tokenize rt query) vocabulary documents)
      (vector rt.numerics (tokenize rt s.text) vocabulary documents)) 6

theorem scoreCandidates_eq (rt : Runtime R) (query : String) (candidates : List Source) :
    scoreCandidates rt query candidates =
      Dict.ofPairs (candidates.map fun s => (s.sourceId, scoreOf rt query candidates s)) := by
  rw [scoreCandidates]
  by_cases h : vocabularyOf (tokenize rt query :: candidates.map fun c => tokenize rt c.text) = []
      ∨ tokenize rt query = []
  · simp only [scoreOf, if_pos h]
  · simp only [scoreOf, if_neg h, ← List.map_prod_left_eq_zip, List.map_map]
    rfl

theorem scoreOf_perm (query : String) (h : candidates.Perm candidates') (s : Source) :
    scoreOf rt query candidates s = scoreOf rt query candidates' s := by
  have hdocs := (h.map fun c => tokenize rt c.text).cons (tokenize rt query)
  simp only [scoreOf, vocabularyOf_perm hdocs, vector_perm _ _ _ hdocs]

/-- With distinct ids a candidate is scored under its own id. -/
theorem get_scoreCandidates (query : String) (h : (candidates.map Source.sourceId).Nodup)
    {s : Source} (hs : s ∈ candidates) :
    (scoreCandidates rt query candidates).get s.sourceId
      = some (scoreOf rt query candidates s) := by
  rw [scoreCandidates_eq]
  obtain ⟨before, after, rfl⟩ := List.append_of_mem hs
  refine Dict.get_ofPairs.mpr ⟨_, _, List.map_append, ?_⟩
  intro p hp heq
  obtain ⟨t, ht, rfl⟩ := List.mem_map.mp hp
  rw [List.map_append, List.map_cons] at h
  have hout := (List.nodup_cons.mp (List.nodup_append.mp h).2.1).1
  exact hout (List.mem_map.mpr ⟨t, ht, heq⟩)

/-! ## Evidence -/

theorem contradicted_perm (h : (candidates.map Source.sourceId).Nodup)
    (hperm : candidates.Perm candidates') :
    contradicted candidates = contradicted candidates' := by
  have h' : (candidates'.map Source.sourceId).Nodup := (hperm.map _).nodup_iff.mp h
  rw [Bool.eq_iff_iff, contradicted_iff_disagree h, contradicted_iff_disagree h']
  exact ⟨fun hd => hd.mono (hperm.map _).subset, fun hd => hd.mono (hperm.map _).symm.subset⟩

/-- Each candidate ends as the same item. -/
theorem settled_perm (h : (candidates.map Source.sourceId).Nodup)
    (hperm : candidates.Perm candidates') {s : Source} (hs : s ∈ candidates) :
    settledEvidence rt c candidates s = settledEvidence rt c candidates' s := by
  have h' : (candidates'.map Source.sourceId).Nodup := (hperm.map _).nodup_iff.mp h
  have hs' : s ∈ candidates' := hperm.subset hs
  have hitem : evidenceOf rt c (scoreCandidates rt (buildQuery c) candidates) s =
      evidenceOf rt c (scoreCandidates rt (buildQuery c) candidates') s := by
    simp only [evidenceOf, get_scoreCandidates _ h hs, get_scoreCandidates _ h' hs',
      scoreOf_perm _ hperm]
  have hhas : (faultSources candidates).has s.sourceId
      = (faultSources candidates').has s.sourceId := by
    rw [has_faultSources h hs, has_faultSources h' hs']
  rw [settledEvidence, settledEvidence, hitem, markContradiction, markContradiction,
    contradicted_perm h hperm]
  show (if (_ && (faultSources candidates).has s.sourceId) = true then _ else _) = _
  rw [hhas]
  rfl

theorem candidates_perm (c : Case) (h : sources.Perm sources') :
    (candidatesOf c sources).Perm (candidatesOf c sources') :=
  h.filter _

theorem runEvidence_perm (rt : Runtime R) (c : Case)
    (hdistinct : (sources.map Source.sourceId).Nodup) (h : sources.Perm sources') :
    (runEvidence rt c sources).Perm (runEvidence rt c sources') := by
  have hsame : runEvidence rt c sources =
      (candidatesOf c sources).map (settledEvidence rt c (candidatesOf c sources')) :=
    List.map_congr_left fun s hs =>
      settled_perm (candidates_nodup c hdistinct) (candidates_perm c h) hs
  rw [hsame]
  exact (candidates_perm c h).map _

/-! ## Rules on facts in another order -/

/-- Claims that cite the same items, in some order. -/
structure Alike (cl cl' : Claim) : Prop where
  claimType : cl.claimType = cl'.claimType
  status : cl.status = cl'.status
  reasonCodes : cl.reasonCodes = cl'.reasonCodes
  evidenceIds : cl.evidenceIds.Perm cl'.evidenceIds
  counterEvidenceIds : cl.counterEvidenceIds.Perm cl'.counterEvidenceIds

theorem Alike.refl (cl : Claim) : Alike cl cl :=
  ⟨rfl, rfl, rfl, .refl _, .refl _⟩

theorem alike_either (c : Case) (t : ClaimType) {holds holds' : Bool} (otherwise : ClaimStatus)
    (reasons otherReasons : List ReasonCode) {ids ids' : List String} (hholds : holds = holds')
    (hids : ids.Perm ids') :
    Alike (either c t holds otherwise reasons otherReasons ids)
      (either c t holds' otherwise reasons otherReasons ids') := by
  subst hholds
  exact ⟨rfl, rfl, rfl, hids, .refl _⟩

section Facts

variable {fs fs' : List Facts}

theorem disputed_perm (h : fs.Perm fs') : Facts.disputed fs = Facts.disputed fs' :=
  h.any_eq

theorem admittedOf_perm (h : fs.Perm fs') : (Facts.admittedOf fs).Perm (Facts.admittedOf fs') :=
  h.filter _

theorem escalationOf_perm (h : fs.Perm fs') :
    (Facts.escalationOf fs).Perm (Facts.escalationOf fs') :=
  (admittedOf_perm h).filter _

theorem faultOf_perm (h : fs.Perm fs') : (Facts.faultOf fs).Perm (Facts.faultOf fs') := by
  rw [Facts.faultOf, Facts.faultOf, disputed_perm h]
  split
  · exact h.filter _
  · exact (admittedOf_perm h).filter _

theorem majorOf_perm (h : fs.Perm fs') : (Facts.majorOf fs).Perm (Facts.majorOf fs') :=
  (faultOf_perm h).filter _

theorem minorOf_perm (h : fs.Perm fs') : (Facts.minorOf fs).Perm (Facts.minorOf fs') :=
  (faultOf_perm h).filter _

theorem ids_perm (h : fs.Perm fs') : (Facts.ids fs).Perm (Facts.ids fs') :=
  h.map _

theorem verdict_perm (h : fs.Perm fs') :
    (Facts.verdict fs).status = (Facts.verdict fs').status
      ∧ (Facts.verdict fs).reasonCodes = (Facts.verdict fs').reasonCodes
      ∧ (Facts.verdict fs).evidenceIds.Perm (Facts.verdict fs').evidenceIds
      ∧ (Facts.verdict fs).counterEvidenceIds.Perm (Facts.verdict fs').counterEvidenceIds := by
  have hmajor := ids_perm (majorOf_perm h)
  have hminor := ids_perm (minorOf_perm h)
  have hnoMajor : Facts.majorOf fs ≠ [] ↔ Facts.majorOf fs' ≠ [] := by
    rw [← List.isEmpty_eq_false_iff, (majorOf_perm h).isEmpty_eq, List.isEmpty_eq_false_iff]
  have hnoMinor : Facts.minorOf fs ≠ [] ↔ Facts.minorOf fs' ≠ [] := by
    rw [← List.isEmpty_eq_false_iff, (minorOf_perm h).isEmpty_eq, List.isEmpty_eq_false_iff]
  simp only [Facts.verdict, disputed_perm h, (faultOf_perm h).isEmpty_eq, hnoMajor, hnoMinor]
  split
  · exact ⟨rfl, rfl, hmajor, hminor⟩
  · split
    · exact ⟨rfl, rfl, .refl _, .refl _⟩
    · split
      · exact ⟨rfl, rfl, hminor, .refl _⟩
      · split
        · exact ⟨rfl, rfl, hmajor, .refl _⟩
        · exact ⟨rfl, rfl, .refl _, .refl _⟩

/-- **CLAIM BY CLAIM**: the order of the facts shows in the citations only. -/
theorem claims_perm (c : Case) (h : fs.Perm fs') :
    List.Forall₂ Alike (Facts.claims c fs) (Facts.claims c fs') := by
  obtain ⟨hstatus, hreasons, hids, hcounter⟩ := verdict_perm h
  have hadmitted := admittedOf_perm h
  have hescalation := escalationOf_perm h
  have hfault := faultOf_perm h
  refine .cons (.refl _) (.cons ?_ (.cons (.refl _) (.cons ?_ (.cons ?_ (.cons ?_
    (.cons (.refl _) (.cons ?_ .nil)))))))
  · exact alike_either _ _ _ _ _ (by rw [hadmitted.isEmpty_eq]) (ids_perm hadmitted)
  · exact alike_either _ _ _ _ _ (by rw [hescalation.isEmpty_eq]) (ids_perm hescalation)
  · exact alike_either _ _ _ _ _ (by rw [hfault.isEmpty_eq, disputed_perm h]) (ids_perm hfault)
  · exact ⟨rfl, hstatus, hreasons, hids, hcounter⟩
  · exact alike_either _ _ _ _ _ (by rw [hstatus]) (.refl _)

theorem rule_perm (c : Case) (h : fs.Perm fs') : Facts.rule c fs = Facts.rule c fs' := by
  rw [Facts.rule, Facts.rule, (verdict_perm h).1, (escalationOf_perm h).isEmpty_eq]

end Facts

/-! ## Runs -/

/-- Two runs that differ in the order of their lists only. -/
structure SameUpToOrder (a a' : CaseArtifacts R) : Prop where
  /-- Item by item the same reasons and score. -/
  evidence : a.evidence.Perm a'.evidence
  admitted : (admittedEvidence a.evidence).Perm (admittedEvidence a'.evidence)
  claims : List.Forall₂ Alike a.claims a'.claims
  authority : a.authority = a'.authority
  review : a.review = a'.review
  termination : a.terminationStatus = a'.terminationStatus

/-- **ANY ORDER**: sources with distinct ids give the same run in whatever
    order they come, up to the order of its lists. -/
theorem run_perm (rt : Runtime R) (c : Case) (hdistinct : (sources.map Source.sourceId).Nodup)
    (h : sources.Perm sources') (budget : RunBudget) :
    ∃ a a', runCasePipeline rt c sources budget = .ok a ∧
      runCasePipeline rt c sources' budget = .ok a' ∧ SameUpToOrder a a' := by
  by_cases hspent : budget.Spent
  · exact ⟨_, _, run_of_spent hspent, run_of_spent hspent, .refl _, .refl _, .nil, rfl, rfl, rfl⟩
  · obtain ⟨report, entries, hrun, -⟩ := run_recorded rt c sources hspent
    obtain ⟨report', entries', hrun', -⟩ := run_recorded rt c sources' hspent
    have hevidence := runEvidence_perm rt c hdistinct h
    have hfacts := hevidence.map (factsOf rt)
    have hauthority : runAuthority rt c sources = runAuthority rt c sources' := by
      rw [runAuthority, runAuthority, caseRuling_eq, caseRuling_eq, rule_perm c hfacts]
    have hreview : runReview rt c sources = runReview rt c sources' := by
      rw [runReview, runReview, hauthority]
    refine ⟨_, _, hrun, hrun', hevidence, hevidence.filter _, ?_, hauthority, hreview, ?_⟩
    · show List.Forall₂ Alike (resolvedClaims rt c (runEvidence rt c sources))
        (resolvedClaims rt c (runEvidence rt c sources'))
      rw [resolvedClaims_eq, resolvedClaims_eq]
      exact claims_perm c hfacts
    · rw [hreview]
      rfl

/-- The shipped sources the other way round. -/
theorem reversed_sources :
    ∃ a a', runCasePipeline (default : Runtime Float) Fixtures.minorFaultCase
        [Fixtures.kogan, Fixtures.accc, Fixtures.faultMinor] {} = .ok a ∧
      runCasePipeline (default : Runtime Float) Fixtures.minorFaultCase
        [Fixtures.faultMinor, Fixtures.accc, Fixtures.kogan] {} = .ok a' ∧ SameUpToOrder a a' :=
  run_perm default Fixtures.minorFaultCase (by decide)
    (List.reverse_perm [Fixtures.faultMinor, Fixtures.accc, Fixtures.kogan]) {}

end RetrievalOrder
