import OutcomeAssurance.EvidenceView
import OutcomeAssurance.Fixtures

/-! # Admission is the conjunction of the checks

    `validate_evidence` spreads its answer over three status fields and a list
    of reasons, and `admitted_evidence` reads all of them.  An item is admitted
    exactly when its candidate meets the conditions below, in which neither the
    scan for injections nor the relevance score occurs. -/

namespace Admissibility

open CaseModel PyDict PyRuntime TraceChain Validation EvidenceView

/-- An optional string that is there and is not empty. -/
def NonEmpty (o : Option String) : Prop := ∃ s, o = some s ∧ s ≠ ""

/-- What is asked of a candidate, among all the candidates. -/
structure Admissible (c : Case) (candidates : List Source) (s : Source) : Prop where
  allowed : s.allowedForEvidence = true
  referenced : s.sourceId ∈ c.sourceRefs
  version : ∀ expected, c.expectedSourceVersions.get s.sourceId = some expected →
    expected ≠ "" → expected = s.version
  fresh : ∀ effective, s.effectiveAt = some effective →
    daysBetween effective c.asOf ≤ staleSourceMaxAgeDays
  untampered : s.tamperedHash = false
  excerpt : NonEmpty s.excerpt
  locator : NonEmpty s.locator ∨ NonEmpty s.excerptKind
  undisputed : ¬ (s.sourceClass = "fault_assessment" ∧ Disagree candidates)

theorem nonEmpty_iff (o : Option String) : NonEmpty o ↔ truthy o = true := by
  cases o with
  | none =>
      refine iff_of_false ?_ Bool.false_ne_true
      rintro ⟨s, hs, -⟩
      cases hs
  | some t =>
      rw [truthy, decide_eq_true_eq]
      constructor
      · rintro ⟨s, hs, hne⟩
        obtain rfl := Option.some.inj hs
        exact hne
      · intro hne
        exact ⟨t, rfl, hne⟩

/-! ## The checks, one by one -/

theorem versionMismatch_iff (c : Case) (s : Source) :
    versionMismatch c s = false ↔ ∀ expected,
      c.expectedSourceVersions.get s.sourceId = some expected → expected ≠ "" →
        expected = s.version := by
  rw [versionMismatch.eq_def]
  cases c.expectedSourceVersions.get s.sourceId with
  | none =>
      refine iff_of_true rfl ?_
      intro expected hget
      cases hget
  | some v =>
      show (decide (v ≠ "") && decide (v ≠ s.version)) = false ↔ _
      rw [Bool.and_eq_false_imp]
      constructor
      · intro h expected hget hne
        obtain rfl := Option.some.inj hget
        have hsame := h (decide_eq_true hne)
        rwa [decide_eq_false_iff_not, not_not] at hsame
      · intro h hne
        rw [decide_eq_false_iff_not, not_not]
        exact h v rfl (of_decide_eq_true hne)

theorem isStale_iff (c : Case) (s : Source) :
    isStale c s = false ↔ ∀ effective, s.effectiveAt = some effective →
      daysBetween effective c.asOf ≤ staleSourceMaxAgeDays := by
  rw [isStale.eq_def]
  cases s.effectiveAt with
  | none =>
      refine iff_of_true rfl ?_
      intro effective heffective
      cases heffective
  | some t =>
      show decide (daysBetween t c.asOf > staleSourceMaxAgeDays) = false ↔ _
      rw [decide_eq_false_iff_not, gt_iff_lt, Int.not_lt]
      constructor
      · intro h effective heffective
        obtain rfl := Option.some.inj heffective
        exact h
      · intro h
        exact h t rfl

theorem locatorMissing_iff (s : Source) :
    locatorMissing s = false ↔
      NonEmpty s.excerpt ∧ (NonEmpty s.locator ∨ NonEmpty s.excerptKind) := by
  rw [locatorMissing, Bool.or_eq_false_iff, Bool.not_eq_false', Bool.not_eq_false', Bool.or_eq_true,
    nonEmpty_iff, nonEmpty_iff, nonEmpty_iff]

/-- The checks of a candidate on its own. -/
theorem passes_iff_checks (c : Case) (s : Source) :
    passes c s = true ↔ s.allowedForEvidence = true ∧ s.sourceId ∈ c.sourceRefs ∧
      versionMismatch c s = false ∧ isStale c s = false ∧ s.tamperedHash = false ∧
        locatorMissing s = false := by
  simp only [passes, boundTo, Bool.and_eq_true, Bool.not_eq_true', decide_eq_true_eq, and_assoc]

theorem admissible_iff (c : Case) (candidates : List Source) (s : Source) :
    Admissible c candidates s ↔ passes c s = true ∧
      ¬ (s.sourceClass = "fault_assessment" ∧ Disagree candidates) := by
  rw [passes_iff_checks, versionMismatch_iff, isStale_iff, locatorMissing_iff]
  constructor
  · rintro ⟨hallowed, hbound, hversion, hfresh, hhash, hexcerpt, hlocator, hundisputed⟩
    exact ⟨⟨hallowed, hbound, hversion, hfresh, hhash, hexcerpt, hlocator⟩, hundisputed⟩
  · rintro ⟨⟨hallowed, hbound, hversion, hfresh, hhash, hexcerpt, hlocator⟩, hundisputed⟩
    exact ⟨hallowed, hbound, hversion, hfresh, hhash, hexcerpt, hlocator, hundisputed⟩

/-! ## Admission -/

variable {R : Type} (rt : Runtime R) {c : Case} {candidates : List Source}

/-- The item as another scan and another score would have left it. -/
def withSignals (e : Evidence R) (injection lowRelevance : Bool) (score : R) : Evidence R :=
  { e with
    validationReasons := e.validationReasons.filter (· ∉ nonBlockingReasons)
      ++ flag injection .promptInjectionContent ++ flag lowRelevance .lowRelevanceRetrieval
    relevanceScore := score }

/-- **NEITHER THE SCAN NOR THE SCORE** changes the answer. -/
theorem isAdmitted_withSignals (e : Evidence R) (injection lowRelevance : Bool) (score : R) :
    isAdmitted (withSignals e injection lowRelevance score) = isAdmitted e := by
  have hreasons : (withSignals e injection lowRelevance score).validationReasons.all
      (· ∈ nonBlockingReasons) = e.validationReasons.all (· ∈ nonBlockingReasons) := by
    rw [Bool.eq_iff_iff, List.all_eq_true, List.all_eq_true]
    simp only [withSignals, List.mem_append, List.mem_filter, mem_flag, decide_eq_true_eq]
    constructor
    · intro h r hr
      by_contra hblocks
      exact hblocks (h r (Or.inl (Or.inl ⟨hr, hblocks⟩)))
    · rintro h r ((⟨hr, -⟩ | ⟨rfl, -⟩) | ⟨rfl, -⟩)
      · exact h r hr
      · decide
      · decide
  rw [isAdmitted, hreasons]
  rfl

/-- The item a candidate ends as is admitted exactly when the candidate is
    admissible. -/
theorem isAdmitted_settled_iff (h : (candidates.map Source.sourceId).Nodup) {s : Source}
    (hs : s ∈ candidates) :
    isAdmitted (settledEvidence rt c candidates s) = true ↔ Admissible c candidates s := by
  have hfacts : isAdmitted (settledEvidence rt c candidates s) =
      (passes c s && !(contradicted candidates && s.isFaultAssessment)) :=
    congrArg Facts.admitted (factsOf_settled h hs)
  have hclass : s.isFaultAssessment = true ↔ s.sourceClass = "fault_assessment" := by
    rw [Source.isFaultAssessment, decide_eq_true_eq]
  rw [hfacts, admissible_iff, Bool.and_eq_true, Bool.not_eq_true', ← Bool.not_eq_true,
    Bool.and_eq_true, contradicted_iff_disagree h, hclass, and_comm (a := Disagree candidates)]

/-- **ADMISSION IS EXACTLY THE CONJUNCTION** of the checks: the `i`-th item is
    admitted if and only if its candidate is admissible, whatever the scan has
    found and the score has been. -/
theorem admitted_iff_admissible (c : Case) (candidates : List Source)
    (h : (candidates.map Source.sourceId).Nodup) (trace : TraceRecorder) (i : Nat) (s : Source)
    (hs : candidates[i]? = some s) :
    ∃ e, (validateEvidence rt c candidates trace).2.1[i]? = some e ∧
      (e ∈ admittedEvidence (validateEvidence rt c candidates trace).2.1 ↔
        Admissible c candidates s) ∧
      ∀ injection lowRelevance score,
        isAdmitted (withSignals e injection lowRelevance score) = isAdmitted e := by
  have hmem : s ∈ candidates := List.mem_of_getElem? hs
  rw [validateEvidence_eq]
  refine ⟨settledEvidence rt c candidates s, by rw [List.getElem?_map, hs, Option.map_some], ?_,
    isAdmitted_withSignals _⟩
  rw [admittedEvidence, List.mem_filter, isAdmitted_settled_iff rt h hmem]
  exact and_iff_right (List.mem_map_of_mem hmem)

/-- Two reports that disagree, and a policy. -/
def disputed : List Source := [Fixtures.kogan, Fixtures.faultMajor, Fixtures.faultMinor]

theorem disputed_report :
    ∃ e, (validateEvidence (default : Runtime Float) Fixtures.majorFaultCase disputed
        (TraceRecorder.start (default : Runtime Float) "CASE-RET-002")).2.1[1]? = some e ∧
      (e ∈ admittedEvidence (validateEvidence (default : Runtime Float) Fixtures.majorFaultCase
          disputed (TraceRecorder.start (default : Runtime Float) "CASE-RET-002")).2.1 ↔
        Admissible Fixtures.majorFaultCase disputed Fixtures.faultMajor) ∧
      ∀ injection lowRelevance score,
        isAdmitted (withSignals e injection lowRelevance score) = isAdmitted e :=
  admitted_iff_admissible default Fixtures.majorFaultCase disputed (by decide) _ 1
    Fixtures.faultMajor rfl

end Admissibility
