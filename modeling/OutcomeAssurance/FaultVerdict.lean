import OutcomeAssurance.Fixtures
import OutcomeAssurance.Pipeline

/-! # What the fault verdict rests on

    The verdict on a major failure in terms of the inputs: which candidates
    pass their own checks and what their excerpts say.  It looks at no source
    class, so a policy text can settle it. -/

namespace FaultVerdict

open CaseModel PyRuntime PyText Investigation Validation Resolution Pipeline

variable {R : Type} {rt : Runtime R} {c : Case} {sources : List Source} {budget : RunBudget}

/-! ## The verdict on the inputs -/

/-- Two latest fault assessments conclude differently. -/
def FaultsDisagree (c : Case) (sources : List Source) : Prop :=
  ∃ s t, IsLatestFault (candidatesOf c sources) s ∧ IsLatestFault (candidatesOf c sources) t ∧
    ∃ u v, s.faultConclusion = some u ∧ t.faultConclusion = some v ∧ u ≠ "" ∧ v ≠ "" ∧ u ≠ v

theorem faultsDisagree_iff :
    FaultsDisagree c sources ↔ contradicted (candidatesOf c sources) = true :=
  contradicted_iff.symm

/-- The candidates that pass their checks and with the wording asked for. -/
def passing (c : Case) (sources : List Source) (wording : String → Bool) : List Source :=
  (candidatesOf c sources).filter fun s => passes c s && wording s.text

/-- The candidates the verdict is read off: those that say "minor" or
    "cosmetic" if there are any, else those that say "major failure". -/
def verdictSources (rt : Runtime R) (c : Case) (sources : List Source) : List Source :=
  if passing c sources (saysMinor rt) ≠ [] then passing c sources (saysMinor rt)
  else passing c sources (saysMajor rt)

theorem contradictory_runEvidence :
    contradictory (runEvidence rt c sources) = contradicted (candidatesOf c sources) := by
  rw [Bool.eq_iff_iff, contradictory, List.any_eq_true]
  constructor
  · rintro ⟨e, he, hmark⟩
    obtain ⟨s, -, rfl⟩ := List.mem_map.mp he
    by_contra hnot
    exact not_marked (Bool.not_eq_true _ ▸ hnot) s (of_decide_eq_true hmark)
  · intro h
    obtain ⟨s, hs, hmark⟩ := exists_marked rt c h
    exact ⟨_, List.mem_map.mpr ⟨s, hs, rfl⟩, decide_eq_true hmark⟩

/-- Without a contradiction the admitted items with a wording are those of the
    passing candidates. -/
theorem filter_admitted (h : contradicted (candidatesOf c sources) = false)
    (wording : String → Bool) :
    (admittedEvidence (runEvidence rt c sources)).filter (fun e => wording e.excerpt) =
      (passing c sources wording).map (settledEvidence rt c (candidatesOf c sources)) := by
  rw [admittedEvidence, runEvidence, List.filter_map, List.filter_map, List.filter_filter, passing]
  congr 1
  refine List.filter_congr (fun s _ => ?_)
  simp only [Function.comp_apply, settled_excerpt, isAdmitted_settled h, Bool.and_comm]

/-- The items the verdict reads are the admitted ones. -/
theorem faultEvidence_eq (h : contradicted (candidatesOf c sources) = false) :
    faultEvidence rt (runEvidence rt c sources) =
      (admittedEvidence (runEvidence rt c sources)).filter
        fun e => saysMajor rt e.excerpt || saysMinor rt e.excerpt := by
  rw [faultEvidence, contradictory_runEvidence, h]
  rfl

theorem minorSupporting_eq (rt : Runtime R) (h : contradicted (candidatesOf c sources) = false) :
    minorSupporting rt (runEvidence rt c sources) =
      (passing c sources (saysMinor rt)).map (settledEvidence rt c (candidatesOf c sources)) := by
  rw [← filter_admitted h, minorSupporting, faultEvidence_eq h, List.filter_filter]
  refine List.filter_congr (fun e _ => ?_)
  cases saysMinor rt e.excerpt <;> simp

theorem majorSupporting_eq (rt : Runtime R) (h : contradicted (candidatesOf c sources) = false) :
    majorSupporting rt (runEvidence rt c sources) =
      (passing c sources (saysMajor rt)).map (settledEvidence rt c (candidatesOf c sources)) := by
  rw [← filter_admitted h, majorSupporting, faultEvidence_eq h, List.filter_filter]
  refine List.filter_congr (fun e _ => ?_)
  cases saysMajor rt e.excerpt <;> simp

/-- A contradiction leaves the verdict open. -/
theorem status_of_contradicted (h : contradicted (candidatesOf c sources) = true) :
    (faultVerdict rt (runEvidence rt c sources)).status = .unknown := by
  rw [faultVerdict, contradictory_runEvidence, h]
  rfl

theorem settled_ids (ss : List Source) :
    (ss.map (settledEvidence rt c (candidatesOf c sources))).map Evidence.evidenceId
      = ss.map fun s => "EVID-" ++ s.sourceId := by
  rw [List.map_map]
  exact List.map_congr_left (fun s _ => settled_evidenceId c _ s)

/-- **THE VERDICT ON THE INPUTS**: without a contradiction it is FALSE if a
    passing candidate says "minor" or "cosmetic", else TRUE if one says "major
    failure", else open; it cites the candidates it was read off. -/
theorem faultVerdict_eq (h : contradicted (candidatesOf c sources) = false) :
    faultVerdict rt (runEvidence rt c sources) =
      if passing c sources (saysMinor rt) ≠ [] then
        ⟨.false, [.faultAssessmentConfirmsMinorFault],
          (verdictSources rt c sources).map fun s => "EVID-" ++ s.sourceId, []⟩
      else if passing c sources (saysMajor rt) ≠ [] then
        ⟨.true, [.faultAssessmentConfirmsMajorFailure],
          (verdictSources rt c sources).map fun s => "EVID-" ++ s.sourceId, []⟩
      else ⟨.unknown, [.faultAssessmentUnavailable], [], []⟩ := by
  have hminor := minorSupporting_eq rt h
  have hmajor := majorSupporting_eq rt h
  by_cases hfault : faultEvidence rt (runEvidence rt c sources) = []
  · have hno : passing c sources (saysMinor rt) = [] := by
      rw [minorSupporting, hfault] at hminor
      exact List.map_eq_nil_iff.mp hminor.symm
    have hno' : passing c sources (saysMajor rt) = [] := by
      rw [majorSupporting, hfault] at hmajor
      exact List.map_eq_nil_iff.mp hmajor.symm
    simp only [faultVerdict, contradictory_runEvidence, h, hfault, hno, hno']
    rfl
  · have hnonempty : (faultEvidence rt (runEvidence rt c sources)).isEmpty = false := by
      simpa using hfault
    simp only [faultVerdict, contradictory_runEvidence, h, hnonempty, hminor, hmajor, settled_ids,
      verdictSources]
    by_cases hm : passing c sources (saysMinor rt) = []
    · have hM : passing c sources (saysMajor rt) ≠ [] := by
        have := supporting_of_faultEvidence hfault
        rw [hminor, hmajor, hm] at this
        simpa using this
      simp [hm, hM]
    · simp [hm]

/-- Without a contradiction the verdict is open exactly when no passing
    candidate says anything about the fault. -/
theorem status_of_agree (h : contradicted (candidatesOf c sources) = false) :
    (faultVerdict rt (runEvidence rt c sources)).status = .unknown ↔
      verdictSources rt c sources = [] := by
  rw [faultVerdict_eq h, verdictSources]
  by_cases hm : passing c sources (saysMinor rt) = []
  · by_cases hM : passing c sources (saysMajor rt) = []
    · simp [hm, hM]
    · simp [hm, hM]
  · simp [hm]

/-! ## Verdicts that rest on a fault assessment -/

/-- The claim cites an admitted item that comes from a fault assessment; items
    and candidates correspond by position. -/
def CitesFaultAssessment (c : Case) (sources : List Source) (a : CaseArtifacts R) (cl : Claim) :
    Prop :=
  ∃ e ∈ admittedEvidence a.evidence, e.evidenceId ∈ cl.evidenceIds ∧
    ∃ s, (s, e) ∈ (candidatesOf c sources).zip a.evidence ∧ s.sourceClass = "fault_assessment"

/-- No admitted item comes from a fault assessment. -/
def PolicyOnly (c : Case) (sources : List Source) (a : CaseArtifacts R) : Prop :=
  ∀ e ∈ admittedEvidence a.evidence, ∀ s,
    (s, e) ∈ (candidatesOf c sources).zip a.evidence → s.sourceClass ≠ "fault_assessment"

/-- A verdict needs a fault assessment; without one the case stays with a
    human. -/
structure VerdictGrounded (c : Case) (sources : List Source) (a : CaseArtifacts R) : Prop where
  verdict : ∀ cl ∈ a.claims, cl.claimType = .majorFailureEstablished → cl.status ≠ .unknown →
    CitesFaultAssessment c sources a cl
  denial : a.authority.decision = .deny → ∃ cl ∈ a.claims,
    cl.claimType = .majorFailureEstablished ∧ CitesFaultAssessment c sources a cl
  policyOnly : PolicyOnly c sources a →
    (∀ cl ∈ a.claims, cl.claimType = .majorFailureEstablished → cl.status = .unknown)
      ∧ a.authority.decision = .requireHuman

/-- The candidates the verdict is read off include one that shares its source
    id with a passing fault assessment, itself for instance. -/
def FaultAssessed (rt : Runtime R) (c : Case) (sources : List Source) : Prop :=
  ∃ s ∈ verdictSources rt c sources, ∃ f ∈ candidatesOf c sources,
    passes c f = true ∧ f.sourceClass = "fault_assessment" ∧ f.sourceId = s.sourceId

theorem mem_zip_runEvidence {s : Source} {e : Evidence R} :
    (s, e) ∈ (candidatesOf c sources).zip (runEvidence rt c sources) ↔
      s ∈ candidatesOf c sources ∧ e = settledEvidence rt c (candidatesOf c sources) s := by
  rw [runEvidence, ← List.map_prod_left_eq_zip, List.mem_map]
  constructor
  · rintro ⟨t, ht, heq⟩
    obtain ⟨rfl, rfl⟩ := Prod.ext_iff.mp heq
    exact ⟨ht, rfl⟩
  · rintro ⟨hs, rfl⟩
    exact ⟨s, hs, rfl⟩

/-- The claim that carries the verdict of a complete run. -/
def verdictClaim (rt : Runtime R) (c : Case) (sources : List Source) : Claim :=
  let v := faultVerdict rt (runEvidence rt c sources)
  claim c .majorFailureEstablished v.status v.reasonCodes v.evidenceIds v.counterEvidenceIds

/-- In a complete run the property is about the one claim. -/
theorem verdictGrounded_completed {review : Option ReviewModel.ReviewTask}
    {report : GuardrailReport R} {entries : List TraceChain.Entry} :
    VerdictGrounded c sources
        (completedArtifacts rt c sources budget review report entries) ↔
      ((verdictClaim rt c sources).status ≠ .unknown →
        CitesFaultAssessment c sources
          (completedArtifacts rt c sources budget review report entries)
          (verdictClaim rt c sources)) := by
  constructor
  · intro h
    exact h.verdict _ (mem_majorFailure.mpr rfl).1 rfl
  · intro h
    have hclaim : ∀ cl ∈ resolvedClaims rt c (runEvidence rt c sources),
        cl.claimType = .majorFailureEstablished → cl = verdictClaim rt c sources :=
      fun cl hcl htype => mem_majorFailure.mp ⟨hcl, htype⟩
    have hdeny : (caseRuling rt c (runEvidence rt c sources)).decision = .deny →
        (verdictClaim rt c sources).status = .false := by
      rw [caseRuling_decision]
      intro hd
      split at hd
      · next hboth => exact hboth.2
      · cases hd
    refine ⟨?_, ?_, ?_⟩
    · intro cl hcl htype hstatus
      rw [hclaim cl hcl htype] at hstatus ⊢
      exact h hstatus
    · intro hd
      refine ⟨verdictClaim rt c sources, (mem_majorFailure.mpr rfl).1, rfl, h ?_⟩
      rw [hdeny hd]
      decide
    · intro hpolicy
      have hopen : (verdictClaim rt c sources).status = .unknown := by
        by_contra hstatus
        obtain ⟨e, he, -, s, hs, hclass⟩ := h hstatus
        exact hpolicy e he s hs hclass
      refine ⟨fun cl hcl htype => hclaim cl hcl htype ▸ hopen, ?_⟩
      show (caseRuling rt c (runEvidence rt c sources)).decision = .requireHuman
      rw [caseRuling_decision, if_neg]
      rintro ⟨-, hfalse⟩
      exact absurd (hopen.symm.trans hfalse) (by decide)

/-- What citing a fault assessment comes to when nothing is contradicted. -/
theorem citesFaultAssessment_iff (h : contradicted (candidatesOf c sources) = false)
    (hverdict : verdictSources rt c sources ≠ []) {review : Option ReviewModel.ReviewTask}
    {report : GuardrailReport R} {entries : List TraceChain.Entry} :
    CitesFaultAssessment c sources (completedArtifacts rt c sources budget review report entries)
        (verdictClaim rt c sources) ↔ FaultAssessed rt c sources := by
  have hids : (verdictClaim rt c sources).evidenceIds =
      (verdictSources rt c sources).map fun s => "EVID-" ++ s.sourceId := by
    show (faultVerdict rt (runEvidence rt c sources)).evidenceIds = _
    rw [faultVerdict_eq h]
    by_cases hm : passing c sources (saysMinor rt) = []
    · have hM : passing c sources (saysMajor rt) ≠ [] := by
        simpa [verdictSources, hm] using hverdict
      simp [hm, hM]
    · simp [hm]
  constructor
  · rintro ⟨e, he, hcited, f, hf, hclass⟩
    obtain ⟨hmem, rfl⟩ := mem_zip_runEvidence.mp hf
    have hpass := (List.mem_filter.mp he).2
    rw [isAdmitted_settled h] at hpass
    rw [hids, settled_evidenceId] at hcited
    obtain ⟨s, hs, hid⟩ := List.mem_map.mp hcited
    exact ⟨s, hs, f, hmem, hpass, hclass, ((String.append_right_inj _).mp hid).symm⟩
  · rintro ⟨s, hs, f, hf, hpass, hclass, hid⟩
    refine ⟨settledEvidence rt c (candidatesOf c sources) f, ?_, ?_, f, ?_, hclass⟩
    · refine List.mem_filter.mpr ⟨List.mem_map.mpr ⟨f, hf, rfl⟩, ?_⟩
      rw [isAdmitted_settled h, hpass]
    · rw [hids, settled_evidenceId, hid]
      exact List.mem_map.mpr ⟨s, hs, rfl⟩
    · exact mem_zip_runEvidence.mpr ⟨hf, rfl⟩

theorem grounded_of_left (h : ¬ budget.Spent) :
    (∃ a, runCasePipeline rt c sources budget = .ok a ∧ VerdictGrounded c sources a) ↔
      FaultsDisagree c sources ∨ verdictSources rt c sources = [] ∨ FaultAssessed rt c sources := by
  obtain ⟨review, report, entries, hrun, -⟩ := run_of_left rt c sources h
  rw [exists_run_iff hrun, verdictGrounded_completed]
  -- contradictory conclusions leave the verdict open, whatever the texts say
  cases hcontra : contradicted (candidatesOf c sources) with
  | true =>
      have hopen : (verdictClaim rt c sources).status = .unknown := status_of_contradicted hcontra
      exact ⟨fun _ => Or.inl (faultsDisagree_iff.mpr hcontra), fun _ hne => absurd hopen hne⟩
  | false =>
      have hagree : ¬ FaultsDisagree c sources := by
        rw [faultsDisagree_iff, hcontra]
        decide
      have hstatus : (verdictClaim rt c sources).status = .unknown ↔
          verdictSources rt c sources = [] := status_of_agree hcontra
      by_cases hverdict : verdictSources rt c sources = []
      · have hopen := hstatus.mpr hverdict
        exact ⟨fun _ => Or.inr (Or.inl hverdict), fun _ hne => absurd hopen hne⟩
      · rw [citesFaultAssessment_iff hcontra hverdict]
        constructor
        · exact fun himp => Or.inr (Or.inr (himp (hstatus.not.mpr hverdict)))
        · rintro (hdis | hnil | hassessed) -
          · exact absurd hdis hagree
          · exact absurd hnil hverdict
          · exact hassessed

/-- **WHEN A VERDICT IS GROUNDED**: exactly when no tool call is left, or the
    fault assessments disagree, or no passing candidate says anything about
    the fault, or one that the verdict is read off shares its source id with a
    passing fault assessment. -/
theorem verdict_grounded_iff (rt : Runtime R) (c : Case) (sources : List Source)
    (budget : RunBudget) :
    (∃ a, runCasePipeline rt c sources budget = .ok a ∧ VerdictGrounded c sources a) ↔
      budget.Spent ∨ FaultsDisagree c sources ∨ verdictSources rt c sources = []
        ∨ FaultAssessed rt c sources := by
  by_cases h : budget.Spent
  · refine ⟨fun _ => Or.inl h, fun _ => ⟨_, run_of_spent h, ?_⟩⟩
    exact {
      verdict := fun cl hcl => absurd hcl List.not_mem_nil
      denial := fun hd => by cases hd
      policyOnly := fun _ => ⟨fun cl hcl => absurd hcl List.not_mem_nil, rfl⟩ }
  · rw [grounded_of_left h, or_iff_right h]

/-! ## A policy text that denies a refund -/

/-- The shipped retailer policy with one more remark in its excerpt. -/
def remarkedPolicy : Source :=
  { Fixtures.kogan with excerpt := some "Refunds do not cover cosmetic marks." }

/-- On the hero case and this one policy, every runtime reaches a verdict that
    no fault assessment supports. -/
theorem policy_text_denies :
    ¬ ∃ rt : Runtime Float, ∃ a,
      runCasePipeline rt Fixtures.hero [remarkedPolicy] {} = .ok a ∧
        VerdictGrounded Fixtures.hero [remarkedPolicy] a := by
  rintro ⟨rt, hrun⟩
  have hminor : saysMinor rt remarkedPolicy.text = true := by
    rw [saysMinor, rt.lower_ascii _ (by decide)]
    decide
  have hsources : verdictSources rt Fixtures.hero [remarkedPolicy] = [remarkedPolicy] := by
    have hpasses : passes Fixtures.hero remarkedPolicy = true := by decide
    have hpassing : passing Fixtures.hero [remarkedPolicy] (saysMinor rt) = [remarkedPolicy] := by
      have hcandidate : candidatesOf Fixtures.hero [remarkedPolicy] = [remarkedPolicy] := by decide
      rw [passing, hcandidate]
      simp [hpasses, hminor]
    rw [verdictSources, hpassing]
    rfl
  rcases (grounded_of_left (by decide)).mp hrun with hdis | hnil | ⟨s, -, f, hf, -, hclass, -⟩
  · exact absurd (faultsDisagree_iff.mp hdis) (by decide)
  · rw [hsources] at hnil
    exact List.cons_ne_nil _ _ hnil
  · obtain rfl := List.mem_singleton.mp (List.mem_filter.mp hf).1
    exact absurd hclass (by decide)

end FaultVerdict
