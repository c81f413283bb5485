import OutcomeAssurance.FaultVerdict

/-! # Conflicting fault evidence

    Contradictions are detected on the conclusions of the latest fault
    assessments; the verdict is read off excerpts.  What follows says exactly
    when every conflict of either kind leaves the verdict open. -/

namespace FaultConflict

open CaseModel PyRuntime PyText Investigation Validation Resolution Pipeline FaultVerdict

variable {R : Type} {rt : Runtime R} {c : Case} {sources : List Source} {budget : RunBudget}

/-! ## Two kinds of conflict -/

/-- Two fault assessments among the candidates conclude differently. -/
def ConclusionsConflict (c : Case) (sources : List Source) : Prop :=
  ∃ s ∈ candidatesOf c sources, ∃ t ∈ candidatesOf c sources,
    s.sourceClass = "fault_assessment" ∧ t.sourceClass = "fault_assessment" ∧
      ∃ u v, s.faultConclusion = some u ∧ t.faultConclusion = some v ∧ u ≠ "" ∧ v ≠ "" ∧ u ≠ v

/-- The item passes every check other than the comparison of fault
    assessments. -/
def passesOtherChecks (e : Evidence R) : Bool :=
  isAdmitted { e with validationReasons := e.validationReasons.filter (· ≠ .contradictionPresent) }

/-- Of two items that pass the other checks, one speaks of a major failure only
    and one of a minor or cosmetic fault. -/
def TextsConflict (rt : Runtime R) (evidence : List (Evidence R)) : Prop :=
  ∃ e ∈ evidence, ∃ e' ∈ evidence, passesOtherChecks e = true ∧ passesOtherChecks e' = true ∧
    saysMajor rt e.excerpt = true ∧ saysMinor rt e.excerpt = false ∧
      saysMinor rt e'.excerpt = true

/-- The same of the candidates that pass their own checks. -/
def PassingTextsConflict (rt : Runtime R) (c : Case) (sources : List Source) : Prop :=
  (∃ s ∈ passing c sources (saysMajor rt), saysMinor rt s.text = false)
    ∧ passing c sources (saysMinor rt) ≠ []

/-- A run leaves a conflict of either kind to a human. -/
def ConflictEscalated (rt : Runtime R) (c : Case) (sources : List Source) (a : CaseArtifacts R) :
    Prop :=
  ConclusionsConflict c sources ∨ TextsConflict rt a.evidence →
    (a.terminationStatus = .controlBlocked
        ∨ a.statusOf .majorFailureEstablished = some .unknown)
      ∧ a.authority.decision ≠ .deny

/-! ## Conflicts in terms of the inputs -/

theorem passesOtherChecks_mark {candidates : List Source} {e : Evidence R}
    (h : .contradictionPresent ∉ e.validationReasons) :
    passesOtherChecks (markContradiction candidates e) = isAdmitted e := by
  have hkeep : e.validationReasons.filter (· ≠ .contradictionPresent) = e.validationReasons := by
    refine List.filter_eq_self.mpr (fun r hr => decide_eq_true ?_)
    rintro rfl
    exact h hr
  have hmarked : (e.validationReasons ++ [ReasonCode.contradictionPresent]).filter
      (· ≠ .contradictionPresent) = e.validationReasons := by
    rw [List.filter_append, hkeep]
    exact List.append_nil _
  rw [markContradiction]
  split
  · rw [passesOtherChecks, hmarked]
  · rw [passesOtherChecks, hkeep]

/-- The other checks are those of the candidate itself. -/
theorem passesOtherChecks_settled (s : Source) :
    passesOtherChecks (settledEvidence rt c (candidatesOf c sources) s) = passes c s := by
  rw [settledEvidence, passesOtherChecks_mark, isAdmitted_evidenceOf]
  simp [evidenceOf, validationReasons, checkReasons]

theorem textsConflict_iff :
    TextsConflict rt (runEvidence rt c sources) ↔ PassingTextsConflict rt c sources := by
  constructor
  · rintro ⟨e, he, e', he', hpass, hpass', hmajor, hnot, hminor⟩
    obtain ⟨s, hs, rfl⟩ := List.mem_map.mp he
    obtain ⟨t, ht, rfl⟩ := List.mem_map.mp he'
    rw [passesOtherChecks_settled] at hpass hpass'
    rw [settled_excerpt] at hmajor hnot hminor
    refine ⟨⟨s, List.mem_filter.mpr ⟨hs, ?_⟩, hnot⟩, ?_⟩
    · rw [hpass, hmajor]
      rfl
    · refine List.ne_nil_of_mem (List.mem_filter.mpr ⟨ht, ?_⟩)
      rw [hpass', hminor]
      rfl
  · rintro ⟨⟨s, hs, hnot⟩, hne⟩
    obtain ⟨t, ht⟩ := List.exists_mem_of_ne_nil _ hne
    obtain ⟨hs, hsays⟩ := List.mem_filter.mp hs
    obtain ⟨ht, htsays⟩ := List.mem_filter.mp ht
    obtain ⟨hpass, hmajor⟩ := (Bool.and_eq_true ..).mp hsays
    obtain ⟨hpass', hminor⟩ := (Bool.and_eq_true ..).mp htsays
    refine ⟨_, List.mem_map.mpr ⟨s, hs, rfl⟩, _, List.mem_map.mpr ⟨t, ht, rfl⟩, ?_⟩
    simp only [passesOtherChecks_settled, settled_excerpt]
    exact ⟨hpass, hpass', hmajor, hnot, hminor⟩

/-- Conflicting texts settle the verdict unless a contradiction is detected. -/
theorem verdictSources_of_conflict (h : PassingTextsConflict rt c sources) :
    verdictSources rt c sources ≠ [] := by
  rw [verdictSources, if_pos h.2]
  exact h.2

/-! ## When conflicts are escalated -/

theorem statusOf_completed {review : Option ReviewModel.ReviewTask} {report : GuardrailReport R}
    {entries : List TraceChain.Entry} :
    (completedArtifacts rt c sources budget review report entries).statusOf
        .majorFailureEstablished = some (faultVerdict rt (runEvidence rt c sources)).status := rfl

/-- In a complete run the property is about the status of the verdict. -/
theorem conflictEscalated_completed {review : Option ReviewModel.ReviewTask}
    {report : GuardrailReport R} {entries : List TraceChain.Entry} :
    ConflictEscalated rt c sources
        (completedArtifacts rt c sources budget review report entries) ↔
      (ConclusionsConflict c sources ∨ PassingTextsConflict rt c sources →
        (faultVerdict rt (runEvidence rt c sources)).status = .unknown) := by
  show (_ ∨ TextsConflict rt (runEvidence rt c sources) → _) ↔ _
  rw [textsConflict_iff]
  refine imp_congr_right (fun _ => ?_)
  rw [statusOf_completed]
  constructor
  · rintro ⟨hblocked | hstatus, -⟩
    · have hended : (if review.isSome = true then TerminationStatus.needsReview else .completed)
          = .controlBlocked := hblocked
      split at hended <;> cases hended
    · exact Option.some.inj hstatus
  · intro hstatus
    refine ⟨Or.inr (congrArg some hstatus), ?_⟩
    show (caseRuling rt c (runEvidence rt c sources)).decision ≠ .deny
    rw [caseRuling_decision, if_neg]
    · decide
    · rintro ⟨-, hfalse⟩
      exact absurd (hstatus.symm.trans hfalse) (by decide)

theorem escalated_of_left (h : ¬ budget.Spent) :
    (∃ a, runCasePipeline rt c sources budget = .ok a ∧ ConflictEscalated rt c sources a) ↔
      FaultsDisagree c sources ∨ (¬ PassingTextsConflict rt c sources ∧
        (¬ ConclusionsConflict c sources ∨ verdictSources rt c sources = [])) := by
  obtain ⟨review, report, entries, hrun, -⟩ := run_of_left rt c sources h
  rw [exists_run_iff hrun, conflictEscalated_completed]
  cases hcontra : contradicted (candidatesOf c sources) with
  | true =>
      exact ⟨fun _ => Or.inl (faultsDisagree_iff.mpr hcontra),
        fun _ _ => status_of_contradicted hcontra⟩
  | false =>
      have hagree : ¬ FaultsDisagree c sources := by
        rw [faultsDisagree_iff, hcontra]
        decide
      rw [status_of_agree hcontra, or_iff_right hagree]
      -- with no contradiction marked, the verdict is open only if no text speaks
      constructor
      · intro himp
        refine ⟨fun htexts => ?_, ?_⟩
        · exact verdictSources_of_conflict htexts (himp (Or.inr htexts))
        · by_cases hconflict : ConclusionsConflict c sources
          · exact Or.inr (himp (Or.inl hconflict))
          · exact Or.inl hconflict
      · rintro ⟨htexts, hrest⟩ (hconflict | htexts')
        · exact hrest.resolve_left (not_not.mpr hconflict)
        · exact absurd htexts' htexts

/-- **WHEN CONFLICTS ARE ESCALATED**: exactly when no tool call is left, or the
    conflict is between conclusions that the comparison keeps, or the passing
    texts do not conflict and neither do the conclusions, unless no passing
    text says anything about the fault. -/
theorem conflict_escalated_iff (rt : Runtime R) (c : Case) (sources : List Source)
    (budget : RunBudget) :
    (∃ a, runCasePipeline rt c sources budget = .ok a ∧ ConflictEscalated rt c sources a) ↔
      budget.Spent ∨ FaultsDisagree c sources ∨ (¬ PassingTextsConflict rt c sources ∧
        (¬ ConclusionsConflict c sources ∨ verdictSources rt c sources = [])) := by
  by_cases h : budget.Spent
  · refine ⟨fun _ => Or.inl h, fun _ => ⟨_, run_of_spent h, fun _ => ⟨Or.inl rfl, ?_⟩⟩⟩
    exact fun hd => by cases hd
  · rw [escalated_of_left h, or_iff_right h]

/-! ## Two assessments, settled by the order of the branches -/

/-- A fault assessment without a typed conclusion. -/
def plainAssessment (sourceId excerpt : String) : Source :=
  { Fixtures.faultMajor with
    sourceId := sourceId
    faultConclusion := none
    excerpt := some excerpt }

def disputedCase : Case := { Fixtures.hero with sourceRefs := ["SRC-FAULT-A", "SRC-FAULT-B"] }

def disputedSources : List Source :=
  [plainAssessment "SRC-FAULT-A" "Confirmed major failure.",
   plainAssessment "SRC-FAULT-B" "Cosmetic marks only."]

/-- One assessment reports a major failure and the other cosmetic marks; no
    runtime leaves the verdict open. -/
theorem disputed_fault_denied :
    ¬ ∃ rt : Runtime Float, ∃ a,
      runCasePipeline rt disputedCase disputedSources {} = .ok a ∧
        ConflictEscalated rt disputedCase disputedSources a := by
  rintro ⟨rt, hrun⟩
  have hmajor : saysMajor rt "Confirmed major failure." = true := by
    rw [saysMajor, rt.lower_ascii _ (by decide)]
    decide
  have hnot : saysMinor rt "Confirmed major failure." = false := by
    rw [saysMinor, rt.lower_ascii _ (by decide)]
    decide
  have hminor : saysMinor rt "Cosmetic marks only." = true := by
    rw [saysMinor, rt.lower_ascii _ (by decide)]
    decide
  have hpassing : ∀ s ∈ disputedSources,
      s ∈ candidatesOf disputedCase disputedSources ∧ passes disputedCase s = true := by decide
  have htexts : PassingTextsConflict rt disputedCase disputedSources := by
    obtain ⟨hs, hpass⟩ := hpassing _ (List.mem_cons_self)
    obtain ⟨ht, hpass'⟩ := hpassing _ (List.mem_cons_of_mem _ List.mem_cons_self)
    refine ⟨⟨_, List.mem_filter.mpr ⟨hs, ?_⟩, hnot⟩, List.ne_nil_of_mem
      (List.mem_filter.mpr ⟨ht, ?_⟩)⟩
    · exact (Bool.and_eq_true ..).mpr ⟨hpass, hmajor⟩
    · exact (Bool.and_eq_true ..).mpr ⟨hpass', hminor⟩
  rcases (escalated_of_left (by decide)).mp hrun with hdis | ⟨hno, -⟩
  · exact absurd (faultsDisagree_iff.mp hdis) (by decide)
  · exact hno htexts

end FaultConflict
