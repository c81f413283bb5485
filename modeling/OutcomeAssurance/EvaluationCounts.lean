import OutcomeAssurance.ReleaseGate
import OutcomeAssurance.Tallies

/-! # What an evaluation counts, and when it fails

    The metrics of `run_evaluation` in terms of the dataset alone: each count is
    the number of its cases of a kind, the statistics of a slice are those of
    the slice's cases, and together the slices account for every case.  An
    evaluation fails at the first reference that leads to no source, and the
    widened configuration never does. -/

namespace EvaluationCounts

open CaseModel PyDict PyRuntime Pipeline Evaluation ReleaseGate Tallies

variable {R : Type} {rt : Runtime R} {dataset : Dataset} {sources : List Source} {disabled : Bool}
  {entry : Entry} {r : CaseResult R} {m : Metrics R}

/-! ## The slices -/

/-- What a result adds to the statistics of its slice. -/
def addResult (stats : Option SliceStats) (r : CaseResult R) : SliceStats :=
  ⟨(stats.getD {}).total + 1, (stats.getD {}).passed + if r.passed then 1 else 0⟩

theorem perSlice_eq (results : List (CaseResult R)) :
    perSlice results = tally CaseResult.riskSlice addResult results := rfl

/-- The statistics of some results of one slice. -/
theorem foldl_addResult (results : List (CaseResult R)) :
    results.foldl (fun stats r => some (addResult stats r)) none =
      if results.length = 0 then none
      else some ⟨results.length, results.countP CaseResult.passed⟩ := by
  induction results using List.reverseRecOn with
  | nil => rfl
  | append_singleton results r ih =>
      have hne : (results ++ [r]).length ≠ 0 := by simp
      rw [List.foldl_concat, ih, if_neg hne, List.length_append, List.countP_append,
        List.countP_singleton]
      cases results with
      | nil => simp [addResult]
      | cons r' results => simp [addResult]

theorem get_perSlice (results : List (CaseResult R)) (slice : String) :
    (perSlice results).get slice =
      if results.countP (fun r => r.riskSlice = slice) = 0 then none
      else some ⟨results.countP fun r => r.riskSlice = slice,
        results.countP fun r => r.passed && r.riskSlice = slice⟩ := by
  rw [perSlice_eq, get_tally, foldl_addResult, ← List.countP_eq_length_filter, List.countP_filter]

/-- The slices account for every result. -/
theorem sum_total (results : List (CaseResult R)) :
    ((perSlice results).values.map SliceStats.total).sum = results.length := by
  have hsum : ((tally CaseResult.riskSlice addResult results).values.map SliceStats.total).sum =
      (results.map fun _ => 1).sum := by
    refine sum_tally _ _ (fun stats r => ?_) results
    cases stats with
    | none => rfl
    | some stats => rfl
  rw [perSlice_eq, hsum]
  simp

theorem sum_passed (results : List (CaseResult R)) :
    ((perSlice results).values.map SliceStats.passed).sum =
      results.countP CaseResult.passed := by
  rw [perSlice_eq, ← sum_ite]
  refine sum_tally _ _ (fun stats r => ?_) results
  cases stats with
  | none => rfl
  | some stats => rfl

/-! ## The results and their cases -/

/-- The case passes in the configuration. -/
def passes (rt : Runtime R) (sources : List Source) (disabled : Bool) (entry : Entry) : Bool :=
  match caseResult rt entry (sourcesPool sources) (widenedRefs (sourcesPool sources) disabled) with
  | .ok r => r.passed
  | .error _ => false

/-- The dataset leaves a source of the pool out of the case's references. -/
def leavesOut (sources : List Source) (entry : Entry) : Bool :=
  sources.any fun s => s.sourceId ∉ entry.case.sourceRefs

theorem result_fields {pool : Dict String Source} {refs : Option (List String)}
    (h : caseResult rt entry pool refs = .ok r) :
    r.category = entry.category ∧ r.riskSlice = entry.riskSlice := by
  obtain ⟨-, a, -, -, -, -, rfl⟩ := caseResult_eq_ok.mp h
  exact ⟨rfl, rfl⟩

/-- A source of the pool is one of the list. -/
theorem mem_of_pool {id : String} {s : Source} (h : (sourcesPool sources).get id = some s) :
    s ∈ sources := by
  obtain ⟨before, after, hpairs, -⟩ := Dict.get_ofPairs.mp h
  have hpair : (id, s) ∈ sources.map fun s => (s.sourceId, s) := by
    rw [hpairs]
    exact List.mem_append_right _ List.mem_cons_self
  obtain ⟨t, ht, heq⟩ := List.mem_map.mp hpair
  obtain rfl : t = s := congrArg Prod.snd heq
  exact ht

/-- A result counts as wrongly bound exactly when its run was widened by a
    source that the case does not declare. -/
theorem wrongBinding_eq (h : caseResult rt entry (sourcesPool sources)
      (widenedRefs (sourcesPool sources) disabled) = .ok r) :
    r.wrongBindingAdmitted = (disabled && leavesOut sources entry) := by
  rw [Bool.eq_iff_iff, wrongBinding_iff h, Bool.and_eq_true]
  cases disabled with
  | false =>
      refine iff_of_false ?_ (fun hand => Bool.false_ne_true hand.1)
      rintro ⟨-, -, s, -, hbound, hout⟩
      exact hout hbound
  | true =>
      rw [and_iff_right rfl, leavesOut, List.any_eq_true]
      constructor
      · rintro ⟨id, -, s, hget, -, hout⟩
        exact ⟨s, mem_of_pool hget, decide_eq_true hout⟩
      · rintro ⟨s, hs, hout⟩
        obtain ⟨t, ht⟩ := exists_poolSource hs
        have hkey : s.sourceId ∈ (sourcesPool sources).items.map Prod.fst :=
          List.mem_map.mpr ⟨(s.sourceId, t), Dict.mem_items.mpr ht, rfl⟩
        have hid := sourceId_of_get ht
        exact ⟨s.sourceId, hkey, t, ht, hid ▸ hkey, hid ▸ of_decide_eq_true hout⟩

/-! ## The counts -/

/-- The metrics, counted over the cases of the dataset. -/
structure Counted (rt : Runtime R) (dataset : Dataset) (sources : List Source) (disabled : Bool)
    (m : Metrics R) : Prop where
  total : m.totalCases = dataset.cases.length
  critical : m.criticalPositiveTotal =
    dataset.cases.countP fun entry => entry.category = "critical_positive"
  recovered : m.criticalPositiveRecovered = dataset.cases.countP fun entry =>
    passes rt sources disabled entry && entry.category = "critical_positive"
  controls : m.negativeControlTotal =
    dataset.cases.countP fun entry => entry.category = "negative_control"
  correct : m.negativeControlCorrect = dataset.cases.countP fun entry =>
    passes rt sources disabled entry && entry.category = "negative_control"
  wrong : m.wrongEntityEvidenceAdmittedCount =
    dataset.cases.countP fun entry => disabled && leavesOut sources entry
  /-- A slice without a case has no statistics. -/
  slice : ∀ slice, m.perSlice.get slice =
    if dataset.cases.countP (fun entry => entry.riskSlice = slice) = 0 then none
    else some ⟨dataset.cases.countP fun entry => entry.riskSlice = slice,
      dataset.cases.countP fun entry => passes rt sources disabled entry && entry.riskSlice = slice⟩
  sliceTotals : (m.perSlice.values.map SliceStats.total).sum = dataset.cases.length
  slicePassed : (m.perSlice.values.map SliceStats.passed).sum =
    dataset.cases.countP (passes rt sources disabled)

/-- **THE METRICS COUNT THE DATASET** whenever an evaluation completes. -/
theorem metrics_counted (h : runEvaluation rt dataset sources disabled = .ok m) :
    Counted rt dataset sources disabled m := by
  obtain ⟨results, hresults, rfl⟩ := runEvaluation_eq_ok.mp h
  have hall := forall₂_of_mapM.mp hresults
  have hlength : results.length = dataset.cases.length := hall.length_eq.symm
  have hpassed : ∀ entry r, caseResult rt entry (sourcesPool sources)
      (widenedRefs (sourcesPool sources) disabled) = .ok r →
        passes rt sources disabled entry = r.passed := by
    intro entry r hr
    rw [passes, hr]
  have hkind : ∀ kind, results.countP (fun r => r.category = kind) =
      dataset.cases.countP fun entry => entry.category = kind := by
    intro kind
    refine (countP_of_forall₂ hall fun entry r hr => ?_).symm
    rw [(result_fields hr).1]
  have hkindPassed : ∀ kind, (results.filter fun r => r.category = kind).countP CaseResult.passed =
      dataset.cases.countP fun entry =>
        passes rt sources disabled entry && entry.category = kind := by
    intro kind
    rw [List.countP_filter]
    refine (countP_of_forall₂ hall fun entry r hr => ?_).symm
    rw [(result_fields hr).1, hpassed entry r hr]
  have hpass : results.countP CaseResult.passed =
      dataset.cases.countP (passes rt sources disabled) :=
    (countP_of_forall₂ hall hpassed).symm
  refine ⟨hlength, ?_, hkindPassed _, ?_, hkindPassed _, ?_, ?_, ?_, ?_⟩
  · exact List.countP_eq_length_filter.symm.trans (hkind _)
  · exact List.countP_eq_length_filter.symm.trans (hkind _)
  · refine (countP_of_forall₂ hall fun entry r hr => ?_).symm
    rw [wrongBinding_eq hr]
  · intro slice
    have hslice : results.countP (fun r => r.riskSlice = slice) =
        dataset.cases.countP fun entry => entry.riskSlice = slice := by
      refine (countP_of_forall₂ hall fun entry r hr => ?_).symm
      rw [(result_fields hr).2]
    have hslicePassed : results.countP (fun r => r.passed && r.riskSlice = slice) =
        dataset.cases.countP fun entry =>
          passes rt sources disabled entry && entry.riskSlice = slice := by
      refine (countP_of_forall₂ hall fun entry r hr => ?_).symm
      rw [(result_fields hr).2, hpassed entry r hr]
    rw [← hslice, ← hslicePassed]
    exact get_perSlice results slice
  · rw [← hlength]
    exact sum_total results
  · rw [← hpass]
    exact sum_passed results

/-- What the hero dataset counts. -/
theorem hero_counted : ∃ m,
    runEvaluation (default : Runtime Float) heroDataset heroPool true = .ok m ∧
      Counted (default : Runtime Float) heroDataset heroPool true m := by
  obtain ⟨m, hm⟩ : ∃ m, runEvaluation (default : Runtime Float) heroDataset heroPool true = .ok m :=
    runEvaluation_isOk (by decide) true
  exact ⟨m, hm, metrics_counted hm⟩

/-! ## When an evaluation fails -/

/-- What was raised, if anything. -/
def errorOf {ε α : Type} : Except ε α → Option ε
  | .error e => some e
  | .ok _ => none

/-- A traversal raises what its first failing item raises. -/
theorem errorOf_mapM {α β ε : Type} (f : α → Except ε β) (xs : List α) :
    errorOf (xs.mapM f) = xs.findSome? fun x => errorOf (f x) := by
  induction xs with
  | nil => rfl
  | cons x xs ih =>
      rw [List.mapM_cons, List.findSome?_cons]
      cases hx : f x with
      | error e => rfl
      | ok y =>
          show errorOf (Except.bind (xs.mapM f) fun ys => .ok (y :: ys)) = _
          rw [errorOf, ← ih]
          cases xs.mapM f with
          | error e => rfl
          | ok ys => rfl

/-- An id that no source of the list has. -/
def missing (sources : List Source) (id : String) : Bool := id ∉ sources.map Source.sourceId

theorem errorOf_poolSource (sources : List Source) (id : String) :
    errorOf (poolSource (sourcesPool sources) id) =
      if missing sources id then some (.missingSource id) else none := by
  rw [poolSource]
  cases hget : (sourcesPool sources).get id with
  | none =>
      have hmissing : missing sources id = true := by
        refine decide_eq_true fun hid => ?_
        obtain ⟨s, hs, rfl⟩ := List.mem_map.mp hid
        obtain ⟨t, ht⟩ := exists_poolSource hs
        cases hget.symm.trans ht
      rw [if_pos hmissing]
      rfl
  | some s =>
      have hstored : ¬ missing sources id = true := by
        refine fun h => of_decide_eq_true h ?_
        exact List.mem_map.mpr ⟨s, mem_of_pool hget, sourceId_of_get hget⟩
      rw [if_neg hstored]
      rfl

/-- The first item of a kind, as a search for what it leads to. -/
theorem findSome?_ite {α β : Type} (p : α → Bool) (g : α → β) (xs : List α) :
    xs.findSome? (fun x => if p x then some (g x) else none) = (xs.find? p).map g := by
  induction xs with
  | nil => rfl
  | cons x xs ih =>
      rw [List.findSome?_cons, List.find?_cons]
      cases p x with
      | true => rfl
      | false => exact ih

/-- A case fails at the first reference that leads to no source. -/
theorem errorOf_caseResult (rt : Runtime R) (entry : Entry) (sources : List Source)
    (refs : Option (List String)) :
    errorOf (caseResult rt entry (sourcesPool sources) refs) =
      ((pipelineCase entry refs).sourceRefs.find? (missing sources)).map .missingSource := by
  have hfirst : errorOf ((pipelineCase entry refs).sourceRefs.mapM
      (poolSource (sourcesPool sources))) =
        ((pipelineCase entry refs).sourceRefs.find? (missing sources)).map .missingSource := by
    rw [errorOf_mapM, ← findSome?_ite]
    exact congrArg₂ List.findSome? (funext (errorOf_poolSource sources)) rfl
  rw [← hfirst]
  cases hsources : (pipelineCase entry refs).sourceRefs.mapM (poolSource (sourcesPool sources)) with
  | error e =>
      rw [caseResult, hsources]
      rfl
  | ok found =>
      -- on the sources it needs, a run raises nothing
      obtain ⟨a, hrun, hevidence, hdecision, -⟩ := run_read rt (pipelineCase entry refs) found
      rw [caseResult_eq_ok.mpr ⟨found, a, hsources, hrun, hevidence, hdecision, rfl⟩]
      rfl

/-- The references of the widened configuration all lead to a source. -/
theorem missing_widened (entry : Entry) (sources : List Source) :
    (pipelineCase entry (widenedRefs (sourcesPool sources) true)).sourceRefs.find?
      (missing sources) = none := by
  refine List.find?_eq_none.mpr fun id hid hmissing => of_decide_eq_true hmissing ?_
  obtain ⟨⟨id, s⟩, hmem, rfl⟩ := List.mem_map.mp hid
  have hget := Dict.mem_items.mp hmem
  exact List.mem_map.mpr ⟨s, mem_of_pool hget, sourceId_of_get hget⟩

/-- **WHEN AN EVALUATION FAILS**: at the first reference, case by case, that
    leads to no source, with that id; and in the widened configuration never. -/
theorem evaluation_fails (rt : Runtime R) (dataset : Dataset) (sources : List Source)
    (disabled : Bool) :
    errorOf (runEvaluation rt dataset sources disabled) =
      if disabled then none
      else ((dataset.cases.flatMap fun entry => entry.case.sourceRefs).find?
        (missing sources)).map .missingSource := by
  have hcases : errorOf (runEvaluation rt dataset sources disabled) =
      errorOf (dataset.cases.mapM fun entry => caseResult rt entry (sourcesPool sources)
        (widenedRefs (sourcesPool sources) disabled)) := by
    rw [runEvaluation]
    cases dataset.cases.mapM fun entry => caseResult rt entry (sourcesPool sources)
        (widenedRefs (sourcesPool sources) disabled) with
    | error e => rfl
    | ok results => rfl
  rw [hcases, errorOf_mapM]
  simp only [errorOf_caseResult]
  cases disabled with
  | true =>
      simp only [missing_widened, Option.map_none]
      exact List.findSome?_eq_none_iff.mpr fun _ _ => rfl
  | false =>
      rw [if_neg Bool.false_ne_true, List.find?_flatMap, List.map_findSome?]
      rfl

end EvaluationCounts
