import Mathlib.Data.List.Perm.Subperm
import OutcomeAssurance.Guardrails
import OutcomeAssurance.Retrieval

/-! # Validation

    `app/services/validate.py`: each candidate is checked on its own, then the
    fault assessments are compared with one another; admission asks that no
    blocking reason is left. -/

namespace Validation

open CaseModel PyDict PyRuntime TraceChain Retrieval Guardrails

/-! ## The checks of one candidate -/

def staleSourceMaxAgeDays : Int := 365

/-- `NON_BLOCKING_REASONS`. -/
def nonBlockingReasons : List ReasonCode := [.promptInjectionContent, .lowRelevanceRetrieval]

def snapshotOf (s : Source) : SourceSnapshot where
  sourceId := s.sourceId
  url := s.url
  title := s.title
  sourceClass := s.sourceClass
  retrievedAt := s.retrievedAt
  effectiveAt := s.effectiveAt
  contentHash := s.contentHash
  version := s.version
  allowedForEvidence := s.allowedForEvidence

/-- `(later - earlier).days`, which rounds down. -/
def daysBetween (earlier later : Instant) : Int := (later - earlier) / 86400000000

/-- The case expects another version of the source. -/
def versionMismatch (c : Case) (s : Source) : Bool :=
  match c.expectedSourceVersions.get s.sourceId with
  | none => false
  | some expected => expected ≠ "" && expected ≠ s.version

def isStale (c : Case) (s : Source) : Bool :=
  match s.effectiveAt with
  | none => false
  | some effective => daysBetween effective c.asOf > staleSourceMaxAgeDays

/-- No excerpt, or neither a locator nor an excerpt kind. -/
def locatorMissing (s : Source) : Bool :=
  !truthy s.excerpt || !(truthy s.locator || truthy s.excerptKind)

/-- `if found: reasons.append(reason)`. -/
def flag (found : Bool) (reason : ReasonCode) : List ReasonCode :=
  if found then [reason] else []

@[simp] theorem mem_flag {found : Bool} {reason r : ReasonCode} :
    r ∈ flag found reason ↔ r = reason ∧ found = true := by
  cases found <;> simp [flag]

def boundTo (c : Case) (s : Source) : Bool := s.sourceId ∈ c.sourceRefs

/-- The reasons up to `LOCATOR_NOT_FOUND`. -/
def checkReasons (c : Case) (s : Source) : List ReasonCode :=
  flag (!s.allowedForEvidence) .sourceNotAllowed
    ++ flag (!boundTo c s) .wrongCaseBinding
    ++ flag (versionMismatch c s) .sourceVersionMismatch
    ++ flag (isStale c s) .sourceStaleOrOutOfTime
    ++ flag s.tamperedHash .hashMismatch
    ++ flag (locatorMissing s) .locatorNotFound

def supportStatus (c : Case) (s : Source) : SupportStatus :=
  if truthy s.excerpt && .locatorNotFound ∉ checkReasons c s then .supported else .unsupported

variable {R : Type} (rt : Runtime R)

/-- All reasons of one candidate, before the fault assessments are compared. -/
def validationReasons (c : Case) (s : Source) (score : R) : List ReasonCode :=
  checkReasons c s
    ++ flag (supportStatus c s = .unsupported && .locatorNotFound ∉ checkReasons c s)
        .claimNotSupported
    ++ flag (scanForInjection rt s.text ≠ []) .promptInjectionContent
    ++ flag (isLowRelevance rt.numerics score) .lowRelevanceRetrieval

/-- The evidence item of one candidate. -/
def evidenceOf (c : Case) (scores : Dict String R) (s : Source) : Evidence R :=
  let score := (scores.get s.sourceId).getD (rt.numerics.ofNat 0)
  { evidenceId := "EVID-" ++ s.sourceId
    caseId := c.caseId
    sourceId := s.sourceId
    locator := s.excerptKind.getD "unknown" ++ ":" ++ s.sourceId
    excerpt := s.text
    excerptKind := s.excerptKind.getD "paraphrase"
    contentHash := s.contentHash
    authorityStatus := if s.allowedForEvidence then .valid else .invalid
    entityBindingStatus := if boundTo c s then .valid else .invalid
    supportStatus := supportStatus c s
    validationReasons := validationReasons rt c s score
    relevanceScore := score }

/-! ## The comparison of fault assessments -/

/-- `fault_sources`, by source id. -/
def faultSources (candidates : List Source) : Dict String Source :=
  Dict.ofPairs ((candidates.filter Source.isFaultAssessment).map fun s => (s.sourceId, s))

/-- `conclusions`. -/
def conclusions (candidates : List Source) : List String :=
  (((faultSources candidates).values.filterMap Source.faultConclusion).filter (· ≠ "")).dedup

/-- More than one conclusion. -/
def contradicted (candidates : List Source) : Bool := (conclusions candidates).length > 1

/-- `CONTRADICTION_PRESENT` is appended to the items of fault sources. -/
def markContradiction (candidates : List Source) (e : Evidence R) : Evidence R :=
  if contradicted candidates && (faultSources candidates).has e.sourceId then
    { e with validationReasons := e.validationReasons ++ [.contradictionPresent] }
  else e

def validatedEntry (e : Evidence R) : Entry where
  stage := "VALIDATE"
  eventType := if e.validationReasons = [] then "EVIDENCE_VALIDATED" else "EVIDENCE_REJECTED"
  evidenceIds := [e.evidenceId]

/-- The item a candidate ends as. -/
def settledEvidence (c : Case) (candidates : List Source) (s : Source) : Evidence R :=
  markContradiction candidates
    (evidenceOf rt c (scoreCandidates rt (buildQuery c) candidates) s)

/-- `validate_evidence`. -/
def validateEvidence (c : Case) (candidates : List Source) (trace : TraceRecorder) :
    List SourceSnapshot × List (Evidence R) × TraceRecorder :=
  let scores := scoreCandidates rt (buildQuery c) candidates
  let evidence := candidates.map (evidenceOf rt c scores)
  (candidates.map snapshotOf, evidence.map (markContradiction candidates),
    trace.recordAll rt (evidence.map validatedEntry))

/-! ## Admission -/

def isAdmitted (e : Evidence R) : Bool :=
  e.authorityStatus = .valid && e.entityBindingStatus = .valid && e.supportStatus = .supported
    && e.validationReasons.all (· ∈ nonBlockingReasons)

/-- `admitted_evidence`. -/
def admittedEvidence (evidence : List (Evidence R)) : List (Evidence R) :=
  evidence.filter isAdmitted

/-! ## What admission comes to -/

/-- Every check of the candidate itself: all but the comparison of fault
    assessments. -/
def passes (c : Case) (s : Source) : Bool :=
  s.allowedForEvidence && boundTo c s && !versionMismatch c s && !isStale c s
    && !s.tamperedHash && !locatorMissing s

theorem passes_iff {c : Case} {s : Source} : passes c s = true ↔ checkReasons c s = [] := by
  simp only [passes, checkReasons, flag, Bool.and_eq_true, Bool.not_eq_true',
    List.append_eq_nil_iff, ite_eq_right_iff, List.cons_ne_nil, imp_false, Bool.not_eq_true,
    Bool.not_eq_false]

theorem supportStatus_of_passes {c : Case} {s : Source} (h : passes c s = true) :
    supportStatus c s = .supported := by
  have hlocator : locatorMissing s = false := by
    simp only [passes, Bool.and_eq_true, Bool.not_eq_true'] at h
    exact h.2
  have hexcerpt : truthy s.excerpt = true := by
    simp only [locatorMissing, Bool.or_eq_false_iff, Bool.not_eq_false'] at hlocator
    exact hlocator.1
  rw [supportStatus, passes_iff.mp h, hexcerpt]
  rfl

variable {rt}

/-- No reason of a candidate that fails a check is non-blocking only. -/
theorem isAdmitted_evidenceOf (c : Case) (scores : Dict String R) (s : Source) :
    isAdmitted (evidenceOf rt c scores s) = passes c s := by
  rw [Bool.eq_iff_iff]
  constructor
  · intro h
    rw [passes_iff]
    refine List.eq_nil_iff_forall_not_mem.mpr (fun r hr => ?_)
    simp only [isAdmitted, Bool.and_eq_true, List.all_eq_true, decide_eq_true_eq] at h
    have hmem : r ∈ nonBlockingReasons := h.2 r (by
      simp only [evidenceOf, validationReasons, List.mem_append]
      exact Or.inl (Or.inl (Or.inl hr)))
    -- none of the checks' own reasons is in the exempt set
    simp only [checkReasons, List.mem_append, mem_flag] at hr
    rcases hr with ((((⟨rfl, -⟩ | ⟨rfl, -⟩) | ⟨rfl, -⟩) | ⟨rfl, -⟩) | ⟨rfl, -⟩) | ⟨rfl, -⟩ <;>
      exact absurd hmem (by decide)
  · intro h
    have hchecks := passes_iff.mp h
    have hsupport := supportStatus_of_passes h
    have hallowed : s.allowedForEvidence = true ∧ boundTo c s = true := by
      simp only [passes, Bool.and_eq_true] at h
      exact h.1.1.1.1
    simp only [isAdmitted, evidenceOf, hallowed, hsupport, validationReasons, hchecks,
      Bool.and_eq_true, List.all_eq_true, decide_eq_true_eq, List.mem_append, mem_flag]
    refine ⟨⟨⟨if_pos trivial, if_pos trivial⟩, trivial⟩, ?_⟩
    rintro r (((hr | ⟨-, hr⟩) | ⟨rfl, -⟩) | ⟨rfl, -⟩)
    · exact absurd hr List.not_mem_nil
    · simp at hr
    · decide
    · decide

theorem markContradiction_of_not {candidates : List Source} {e : Evidence R}
    (h : contradicted candidates = false) : markContradiction candidates e = e := by
  rw [markContradiction, h]
  rfl

/-- Without a contradiction, exactly the candidates that pass every check of
    their own are admitted. -/
theorem isAdmitted_settled {c : Case} {candidates : List Source}
    (h : contradicted candidates = false) (s : Source) :
    isAdmitted (settledEvidence rt c candidates s) = passes c s := by
  rw [settledEvidence, markContradiction_of_not h, isAdmitted_evidenceOf]

@[simp] theorem settled_excerpt (c : Case) (candidates : List Source) (s : Source) :
    (settledEvidence rt c candidates s).excerpt = s.text := by
  rw [settledEvidence, markContradiction]
  split <;> rfl

@[simp] theorem settled_evidenceId (c : Case) (candidates : List Source) (s : Source) :
    (settledEvidence rt c candidates s).evidenceId = "EVID-" ++ s.sourceId := by
  rw [settledEvidence, markContradiction]
  split <;> rfl

@[simp] theorem settled_sourceId (c : Case) (candidates : List Source) (s : Source) :
    (settledEvidence rt c candidates s).sourceId = s.sourceId := by
  rw [settledEvidence, markContradiction]
  split <;> rfl

@[simp] theorem settled_caseId (c : Case) (candidates : List Source) (s : Source) :
    (settledEvidence rt c candidates s).caseId = c.caseId := by
  rw [settledEvidence, markContradiction]
  split <;> rfl

/-- The events of validation, one for each candidate. -/
def validatedEntries (rt : Runtime R) (c : Case) (candidates : List Source) : List Entry :=
  candidates.map fun s =>
    validatedEntry (evidenceOf rt c (scoreCandidates rt (buildQuery c) candidates) s)

/-- What validation returns: one snapshot, one item and one event for each
    candidate. -/
theorem validateEvidence_eq (rt : Runtime R) (c : Case) (candidates : List Source)
    (trace : TraceRecorder) :
    validateEvidence rt c candidates trace =
      (candidates.map snapshotOf, candidates.map (settledEvidence rt c candidates),
        trace.recordAll rt (validatedEntries rt c candidates)) := by
  refine Prod.ext rfl (Prod.ext ?_ ?_)
  · show (candidates.map _).map _ = _
    rw [List.map_map]
    rfl
  · show trace.recordAll rt ((candidates.map _).map _) = _
    rw [List.map_map]
    rfl

/-! ## When the fault assessments contradict each other -/

/-- A fault assessment with no later one of the same source id: of two with
    one id the comparison keeps the later. -/
def IsLatestFault (candidates : List Source) (s : Source) : Prop :=
  ∃ before after, candidates.filter Source.isFaultAssessment = before ++ s :: after
    ∧ ∀ t ∈ after, t.sourceId ≠ s.sourceId

theorem mem_faultSources {candidates : List Source} {s : Source} :
    s ∈ (faultSources candidates).values ↔ IsLatestFault candidates s := by
  rw [Dict.mem_values]
  constructor
  · rintro ⟨k, h⟩
    obtain ⟨before, after, hsplit, hafter⟩ := Dict.get_ofPairs.mp h
    obtain ⟨l, r, hfilter, -, hr⟩ := List.map_eq_append_iff.mp hsplit
    obtain ⟨s', after', rfl, hs', rfl⟩ := List.map_eq_cons_iff.mp hr
    obtain ⟨rfl, rfl⟩ := Prod.ext_iff.mp hs'
    refine ⟨l, after', hfilter, fun t ht => ?_⟩
    exact hafter (t.sourceId, t) (List.mem_map.mpr ⟨t, ht, rfl⟩)
  · rintro ⟨before, after, hfilter, hafter⟩
    refine ⟨s.sourceId, Dict.get_ofPairs.mpr
      ⟨before.map fun t => (t.sourceId, t), after.map fun t => (t.sourceId, t), ?_, ?_⟩⟩
    · rw [hfilter, List.map_append, List.map_cons]
    · intro p hp
      obtain ⟨t, ht, rfl⟩ := List.mem_map.mp hp
      exact hafter t ht

theorem mem_conclusions {candidates : List Source} {u : String} :
    u ∈ conclusions candidates ↔
      ∃ s, IsLatestFault candidates s ∧ s.faultConclusion = some u ∧ u ≠ "" := by
  simp only [conclusions, List.mem_dedup, List.mem_filter, List.mem_filterMap, mem_faultSources,
    decide_eq_true_eq]
  constructor
  · rintro ⟨⟨s, hs, hu⟩, hne⟩
    exact ⟨s, hs, hu, hne⟩
  · rintro ⟨s, hs, hu, hne⟩
    exact ⟨⟨s, hs, hu⟩, hne⟩

/-- **DETECTED CONTRADICTIONS**: two latest fault assessments with different
    non-empty conclusions. -/
theorem contradicted_iff {candidates : List Source} :
    contradicted candidates = true ↔
      ∃ s t, IsLatestFault candidates s ∧ IsLatestFault candidates t ∧
        ∃ u v, s.faultConclusion = some u ∧ t.faultConclusion = some v ∧
          u ≠ "" ∧ v ≠ "" ∧ u ≠ v := by
  have hnodup : (conclusions candidates).Nodup := List.nodup_dedup _
  rw [contradicted, decide_eq_true_eq]
  constructor
  · intro h
    obtain ⟨u, v, rest, hcons⟩ : ∃ u v rest, conclusions candidates = u :: v :: rest := by
      rcases hlist : conclusions candidates with _ | ⟨u, _ | ⟨v, rest⟩⟩
      · simp [hlist] at h
      · simp [hlist] at h
      · exact ⟨u, v, rest, rfl⟩
    obtain ⟨s, hs, hu, hune⟩ := mem_conclusions.mp (show u ∈ conclusions candidates by simp [hcons])
    obtain ⟨t, ht, hv, hvne⟩ := mem_conclusions.mp (show v ∈ conclusions candidates by simp [hcons])
    rw [hcons] at hnodup
    have hne : u ≠ v := by
      rintro rfl
      exact (List.nodup_cons.mp hnodup).1 List.mem_cons_self
    exact ⟨s, t, hs, ht, u, v, hu, hv, hune, hvne, hne⟩
  · rintro ⟨s, t, hs, ht, u, v, hu, hv, hune, hvne, hne⟩
    have hpair : [u, v] ⊆ conclusions candidates := by
      intro w hw
      rcases List.mem_pair.mp hw with rfl | rfl
      · exact mem_conclusions.mpr ⟨s, hs, hu, hune⟩
      · exact mem_conclusions.mpr ⟨t, ht, hv, hvne⟩
    have hdistinct : [u, v].Nodup := List.pairwise_pair.mpr hne
    exact (hdistinct.subperm hpair).length_le

/-- A contradiction leaves its mark on some item. -/
theorem exists_marked (rt : Runtime R) (c : Case) {candidates : List Source}
    (h : contradicted candidates = true) :
    ∃ s ∈ candidates, .contradictionPresent ∈
      (settledEvidence rt c candidates s).validationReasons := by
  obtain ⟨s, -, hs, -⟩ := contradicted_iff.mp h
  obtain ⟨k, hget⟩ := Dict.mem_values.mp (mem_faultSources.mpr hs)
  obtain ⟨before, after, hfilter, -⟩ := hs
  have hmem : s ∈ candidates.filter Source.isFaultAssessment := by simp [hfilter]
  obtain ⟨_, _, hsplit, -⟩ := Dict.get_ofPairs.mp hget
  have hkey : (k, s) ∈ (candidates.filter Source.isFaultAssessment).map
      fun s => (s.sourceId, s) := by simp [hsplit]
  obtain ⟨t, -, heq⟩ := List.mem_map.mp hkey
  obtain ⟨rfl, rfl⟩ := Prod.ext_iff.mp heq
  refine ⟨t, (List.mem_filter.mp hmem).1, ?_⟩
  have hhas : (faultSources candidates).has t.sourceId = true := by
    rw [Dict.has, hget]
    rfl
  rw [settledEvidence, markContradiction, h, if_pos (by exact hhas)]
  simp

/-- Nothing else ever writes the mark. -/
theorem not_marked {c : Case} {candidates : List Source}
    (h : contradicted candidates = false) (s : Source) :
    .contradictionPresent ∉ (settledEvidence rt c candidates s).validationReasons := by
  rw [settledEvidence, markContradiction_of_not h]
  simp [evidenceOf, validationReasons, checkReasons]

end Validation
