import OutcomeAssurance.Fixtures
import OutcomeAssurance.Pipeline

/-! # Citations of a run

    The claims cite evidence from three pools: the admitted items, those of
    the escalation source, and what says anything about the fault, which under
    a contradiction is looked for among all items.  Every pool lies within the
    evidence of the run, so the groundedness check never replaces a sentence. -/

namespace Citations

open CaseModel PyRuntime Investigation Validation Resolution Guardrails Pipeline

variable {R : Type} {rt : Runtime R} {c : Case} {sources : List Source} {budget : RunBudget}

/-- What a claim cites, for or against. -/
def citedIds (cl : Claim) : List String := cl.evidenceIds ++ cl.counterEvidenceIds

theorem citedIds_either (c : Case) (t : ClaimType) (holds : Bool) (otherwise : ClaimStatus)
    (reasons otherReasons : List ReasonCode) (ids : List String) :
    citedIds (either c t holds otherwise reasons otherReasons ids) = ids :=
  List.append_nil ids

/-! ## The pools -/

/-- The items a claim may cite: all of them once the fault assessments
    contradict one another. -/
def citable (evidence : List (Evidence R)) : List (Evidence R) :=
  if contradictory evidence then evidence else admittedEvidence evidence

theorem citable_subset (evidence : List (Evidence R)) : citable evidence ⊆ evidence := by
  rw [citable]
  split
  · exact List.Subset.refl _
  · exact List.filter_subset_self _

theorem admitted_subset_citable (evidence : List (Evidence R)) :
    admittedEvidence evidence ⊆ citable evidence := by
  rw [citable]
  split
  · exact List.filter_subset_self _
  · exact List.Subset.refl _

theorem faultEvidence_subset (evidence : List (Evidence R)) :
    faultEvidence rt evidence ⊆ citable evidence :=
  List.filter_subset_self _

/-- The verdict cites fault evidence only, in each of its branches. -/
theorem verdict_cites {evidence : List (Evidence R)} {id : String}
    (h : id ∈ (faultVerdict rt evidence).evidenceIds
      ++ (faultVerdict rt evidence).counterEvidenceIds) :
    id ∈ (faultEvidence rt evidence).map Evidence.evidenceId := by
  have hmajor : (majorSupporting rt evidence).map Evidence.evidenceId ⊆
      (faultEvidence rt evidence).map Evidence.evidenceId :=
    List.map_subset _ (List.filter_subset_self _)
  have hminor : (minorSupporting rt evidence).map Evidence.evidenceId ⊆
      (faultEvidence rt evidence).map Evidence.evidenceId :=
    List.map_subset _ (List.filter_subset_self _)
  rw [faultVerdict] at h
  split_ifs at h
  · exact (List.mem_append.mp h).elim (fun h => hmajor h) (fun h => hminor h)
  · cases h
  · exact hminor (by simpa using h)
  · exact hmajor (by simpa using h)
  · cases h

/-- **WHAT A CLAIM CITES**: admitted items, and what says anything about the
    fault. -/
theorem cited_of_claim {evidence : List (Evidence R)} {cl : Claim}
    (hcl : cl ∈ resolvedClaims rt c evidence) {id : String} (hid : id ∈ citedIds cl) :
    id ∈ (admittedEvidence evidence).map Evidence.evidenceId ∨
      id ∈ (faultEvidence rt evidence).map Evidence.evidenceId := by
  simp only [resolvedClaims, List.mem_cons, List.not_mem_nil, or_false] at hcl
  rcases hcl with rfl | rfl | rfl | rfl | rfl | rfl | rfl | rfl
  -- the claims that cite nothing
  case inl | inr.inr.inl | inr.inr.inr.inr.inr.inr.inl | inr.inr.inr.inr.inr.inr.inr => cases hid
  case inr.inl =>
    rw [citedIds_either] at hid
    exact Or.inl hid
  case inr.inr.inr.inl =>
    rw [citedIds_either] at hid
    exact Or.inl (List.map_subset _ (List.filter_subset_self _) hid)
  case inr.inr.inr.inr.inl =>
    rw [citedIds_either] at hid
    exact Or.inr hid
  case inr.inr.inr.inr.inr.inl => exact Or.inr (verdict_cites hid)

/-- Both pools lie within the items a claim may cite. -/
theorem citable_of_cited {evidence : List (Evidence R)} {cl : Claim}
    (hcl : cl ∈ resolvedClaims rt c evidence) {id : String} (hid : id ∈ citedIds cl) :
    ∃ e ∈ citable evidence, e.evidenceId = id := by
  rcases cited_of_claim hcl hid with hmem | hmem
  · obtain ⟨e, he, heq⟩ := List.mem_map.mp hmem
    exact ⟨e, admitted_subset_citable evidence he, heq⟩
  · obtain ⟨e, he, heq⟩ := List.mem_map.mp hmem
    exact ⟨e, faultEvidence_subset evidence he, heq⟩

/-! ## The groundedness check -/

/-- Sentences whose citations are all known pass unchanged. -/
theorem checkGroundedness_of_known {sentences : List CaseSummarySentence}
    {knownEvidenceIds knownClaimIds : List String}
    (h : ∀ s ∈ sentences, s.claimIds ⊆ knownClaimIds ∧ s.evidenceIds ⊆ knownEvidenceIds) :
    checkGroundedness sentences knownEvidenceIds knownClaimIds = (sentences, 0) := by
  have hgrounded : ∀ s ∈ sentences, isGrounded knownEvidenceIds knownClaimIds s = true := by
    intro s hs
    obtain ⟨hclaims, hevidence⟩ := h s hs
    rw [isGrounded, Bool.and_eq_true, List.all_eq_true, List.all_eq_true]
    exact ⟨fun id hid => decide_eq_true (hclaims hid),
      fun id hid => decide_eq_true (hevidence hid)⟩
  refine Prod.ext ?_ ?_
  · show sentences.map _ = sentences
    conv_rhs => rw [← List.map_id sentences]
    refine List.map_congr_left (fun s hs => ?_)
    rw [hgrounded s hs]
    rfl
  · show sentences.countP _ = 0
    refine List.countP_eq_zero.mpr (fun s hs => ?_)
    rw [hgrounded s hs]
    decide

/-- The summary of the claims passes against the evidence they were resolved
    on. -/
theorem summary_grounded (rt : Runtime R) (c : Case) (evidence : List (Evidence R)) :
    checkGroundedness (generateCaseSummary (resolvedClaims rt c evidence))
        (evidence.map Evidence.evidenceId) ((resolvedClaims rt c evidence).map Claim.claimId) =
      (generateCaseSummary (resolvedClaims rt c evidence), 0) := by
  refine checkGroundedness_of_known (fun s hs => ?_)
  obtain ⟨cl, hcl, rfl⟩ := List.mem_map.mp hs
  constructor
  · intro id hid
    obtain rfl := List.mem_singleton.mp hid
    exact List.mem_map.mpr ⟨cl, hcl, rfl⟩
  · intro id hid
    obtain ⟨e, he, rfl⟩ := citable_of_cited hcl (List.mem_append_left _ hid)
    exact List.mem_map.mpr ⟨e, citable_subset evidence he, rfl⟩

/-! ## Citations of a run -/

/-- The run contains a `CONTRADICTION_PRESENT` reason. -/
def ContradictionPresent (a : CaseArtifacts R) : Prop :=
  ∃ e ∈ a.evidence, .contradictionPresent ∈ e.validationReasons

/-- Every citation is that of an item of the run, an admitted one unless a
    contradiction is present; the summary is shown as it was generated. -/
structure CitationsReal (a : CaseArtifacts R) : Prop where
  cited : ∀ cl ∈ a.claims, ∀ id ∈ citedIds cl, ∃ e ∈ a.evidence, e.evidenceId = id
  citedAdmitted : ¬ ContradictionPresent a → ∀ cl ∈ a.claims, ∀ id ∈ citedIds cl,
    ∃ e ∈ admittedEvidence a.evidence, e.evidenceId = id
  unchanged : checkGroundedness (generateCaseSummary a.claims)
      (a.evidence.map Evidence.evidenceId) (a.claims.map Claim.claimId) =
    (generateCaseSummary a.claims, 0)
  reported : ∃ report, a.guardrailReport = some report
    ∧ report.summarySentences = generateCaseSummary a.claims ∧ report.ungroundedCount = 0

theorem citable_of_not_present {evidence : List (Evidence R)}
    (h : ¬ ∃ e ∈ evidence, .contradictionPresent ∈ e.validationReasons) :
    citable evidence = admittedEvidence evidence := by
  have hno : contradictory evidence = false := by
    rw [contradictory, List.any_eq_false]
    exact fun e he hmark => h ⟨e, he, of_decide_eq_true hmark⟩
  rw [citable, hno]
  rfl

/-- **CITATIONS ARE REAL** in every run that has a tool call left, whatever the
    case and the sources. -/
theorem citations_real (rt : Runtime R) (c : Case) (sources : List Source) {budget : RunBudget}
    (h : ¬ budget.Spent) :
    ∃ a, runCasePipeline rt c sources budget = .ok a ∧ CitationsReal a := by
  obtain ⟨entries, hrun, -⟩ := run_reported rt c sources h
  have hgrounded := summary_grounded rt c (runEvidence rt c sources)
  refine ⟨_, hrun, ?_, ?_, hgrounded, runReport rt c sources, rfl, ?_, ?_⟩
  · intro cl hcl id hid
    obtain ⟨e, he, heq⟩ := citable_of_cited hcl hid
    exact ⟨e, citable_subset _ he, heq⟩
  · intro hpresent cl hcl id hid
    obtain ⟨e, he, heq⟩ := citable_of_cited hcl hid
    have hcitable : citable (runEvidence rt c sources)
        = admittedEvidence (runEvidence rt c sources) := citable_of_not_present hpresent
    exact ⟨e, hcitable ▸ he, heq⟩
  · exact congrArg Prod.fst hgrounded
  · exact congrArg Prod.snd hgrounded

/-- The shipped case with a minor fault, whose report contradicts itself only
    in words. -/
theorem minor_fault_cited :
    ∃ a, runCasePipeline (default : Runtime Float) Fixtures.minorFaultCase
        [Fixtures.kogan, Fixtures.accc, Fixtures.faultMinor] {} = .ok a ∧ CitationsReal a :=
  citations_real default Fixtures.minorFaultCase _ (by decide)

end Citations
