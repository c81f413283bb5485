import OutcomeAssurance.EvaluationStore

/-! # Every release record stands on its evaluation

    `GET /api/releases/latest` evaluates twice for each record — once for the row
    it stores, once in the gate — and commits row and record apart.  In any
    interleaving of such requests, with evaluations and reads, and whichever of
    them stop half way, each stored record names a stored evaluation whose
    columns give its decision, and what a request was answered can be read
    back. -/

namespace ReleaseRecords

open CaseModel (Source)
open Evaluation EvaluationStore Interleaving KeyedTable PyDict ReleaseGate Scripts

variable {ι R : Type} {calls : ι → Call R} {s s' : Store R} {site : Site R} {id : String}
  {record : ReleaseRecord} {o : Output R}

/-! ## What the gate says of a row -/

/-- The five checks of the gate, on the columns of a row. -/
def Passes (row : EvaluationRun R) : Prop :=
  row.falseAuthorisationCount = 0 ∧ row.wrongEntityEvidenceAdmittedCount = 0 ∧
    row.promptInjectionAlteredDecisionCount = 0 ∧ minCriticalRecall ≤ row.criticalRecall ∧
      ∀ slice ∈ requiredRiskSlices, row.perSlice.has slice = true

/-- The configuration an evaluation belongs to. -/
def configOf (disableEntityBindingCheck : Bool) : String :=
  if disableEntityBindingCheck then "R2_REGRESSION_FIXTURE" else "R1_REFERENCE"

/-- The gate's report on the evaluation of a configuration. -/
def reportOf (site : Site R) (disabled : Bool) (o : Output R) : GateReport R :=
  evaluateRelease site.runtime site.arithmetic (configOf disabled) o.metrics

/-- The row and the report of one evaluation agree. -/
theorem passes_row (site : Site R) (disabled : Bool) (o : Output R) (id : String) (now : Nat) :
    (reportOf site disabled o).decision = .pass ↔ Passes (evaluationRow id now o) := by
  have hslices : missingSlices o.metrics = [] ↔
      ∀ slice ∈ requiredRiskSlices, o.metrics.perSlice.has slice = true := by
    simp [missingSlices, List.filter_eq_nil_iff]
  rw [reportOf, passes_iff, hslices]
  rfl

/-- An evaluation of the process is one of its metrics. -/
theorem metrics_of_output {disabled : Bool} (h : site.runEvaluation disabled = .ok o) :
    runEvaluation site.runtime site.dataset site.sources disabled = .ok o.metrics := by
  rw [Site.runEvaluation] at h
  cases hm : runEvaluation site.runtime site.dataset site.sources disabled with
  | error e =>
      rw [hm] at h
      cases h
  | ok m =>
      rw [hm] at h
      obtain rfl := Except.ok.inj h
      rfl

/-! ## What the store keeps -/

/-- The record was made by the process, on the evaluation it names. -/
def Filed (site : Site R) (s : Store R) (record : ReleaseRecord) : Prop :=
  ∃ disabled o id now later, site.runEvaluation disabled = .ok o ∧
    evaluationRow id now o ∈ s.evaluationRuns.rows ∧
    record = releaseRow record.releaseId later (reportOf site disabled o) id

/-- Every record was made by one of the processes. -/
def Sound (calls : ι → Call R) (s : Store R) : Prop :=
  ∀ record ∈ s.releaseRecords.rows, ∃ i, Filed (calls i).site s record

/-- Rows are only added, and soundness is kept. -/
structure Grows (calls : ι → Call R) (s s' : Store R) : Prop where
  evaluations : s.evaluationRuns.rows <+: s'.evaluationRuns.rows
  records : s.releaseRecords.rows <+: s'.releaseRecords.rows
  sound : Sound calls s → Sound calls s'

/-- The release is stored with the report. -/
def Published (releaseId : String) (report : GateReport R) (s : Store R) : Prop :=
  ∃ record, s.releaseRecords.get releaseId = some record ∧
    ∃ now id, record = releaseRow releaseId now report id

/-- What an answer says of the store. -/
def Truthful : Response R → Store R → Prop
  | .evaluated id o, s => ∃ now, s.evaluationRuns.get id = some (evaluationRow id now o)
  | .evaluationRun row, s => s.evaluationRuns.get row.evaluationId = some row
  | .latestRelease releaseId r1 regressionId r2, s =>
      Published releaseId r1 s ∧ Published regressionId r2 s
  | .evaluationNotFound _, _ | .evaluationFailed _, _ | .notCommitted, _ => True

theorem get_of_grown {ρ : Type} [Keyed ρ String] {t t' : Table ρ} (h : t.rows <+: t'.rows)
    {k : String} {r : ρ} (hget : t.get k = some r) : t'.get k = some r := by
  obtain ⟨hmem, hkey⟩ := Table.get_eq_some.mp hget
  exact Table.get_eq_some.mpr ⟨h.mem hmem, hkey⟩

theorem Published.grown {report : GateReport R} (h : Published id report s)
    (hgrows : Grows calls s s') : Published id report s' := by
  obtain ⟨record, hget, hrecord⟩ := h
  exact ⟨record, get_of_grown hgrows.records hget, hrecord⟩

theorem Filed.grown (h : Filed site s record)
    (hgrows : s.evaluationRuns.rows <+: s'.evaluationRuns.rows) : Filed site s' record := by
  obtain ⟨disabled, o, id, now, later, ho, hrow, hrecord⟩ := h
  exact ⟨disabled, o, id, now, later, ho, hgrows.mem hrow, hrecord⟩

theorem Grows.trans {s'' : Store R} (h : Grows calls s s') (h' : Grows calls s' s'') :
    Grows calls s s'' :=
  ⟨h.evaluations.trans h'.evaluations, h.records.trans h'.records, h'.sound ∘ h.sound⟩

theorem lawful (calls : ι → Call R) :
    Lawful (Grows calls) Truthful (Response.notCommitted : Response R) where
  refl _ := ⟨List.prefix_rfl, List.prefix_rfl, id⟩
  trans := Grows.trans
  stable := by
    intro a s s' hgrows htrue
    cases a with
    | evaluated id o =>
        obtain ⟨now, hget⟩ := htrue
        exact ⟨now, get_of_grown hgrows.evaluations hget⟩
    | evaluationRun row => exact get_of_grown hgrows.evaluations htrue
    | latestRelease releaseId r1 regressionId r2 =>
        exact ⟨htrue.1.grown hgrows, htrue.2.grown hgrows⟩
    | evaluationNotFound id => trivial
    | evaluationFailed e => trivial
    | notCommitted => trivial
  refused _ := trivial

/-! ## The commits -/

/-- The commit of an evaluation keeps every record. -/
theorem grows_evaluation {row : EvaluationRun R} (h : commit (.evaluation row) s = some s') :
    Grows calls s s' ∧ s'.evaluationRuns.get row.evaluationId = some row := by
  rw [commit, Option.map_eq_some_iff] at h
  obtain ⟨t, hinsert, rfl⟩ := h
  have hadded : s.evaluationRuns.rows <+: t.rows :=
    Table.rows_of_insert hinsert ▸ List.prefix_append _ _
  refine ⟨⟨hadded, List.prefix_rfl, fun hsound record hrecord => ?_⟩, ?_⟩
  · obtain ⟨i, hfiled⟩ := hsound record hrecord
    exact ⟨i, hfiled.grown hadded⟩
  · show t.get row.evaluationId = some row
    rw [Table.get_of_insert hinsert]
    exact if_pos rfl

/-- The commit of a record whose evaluation is stored keeps the store sound. -/
theorem grows_release {i : ι} (hfiled : Filed (calls i).site s record)
    (h : commit (.release record) s = some s') :
    Grows calls s s' ∧ s'.releaseRecords.get record.releaseId = some record := by
  rw [commit, Option.map_eq_some_iff] at h
  obtain ⟨t, hinsert, rfl⟩ := h
  have hrows := Table.rows_of_insert hinsert
  refine ⟨⟨List.prefix_rfl, hrows ▸ List.prefix_append _ _, fun hsound other hother => ?_⟩, ?_⟩
  · rcases List.mem_append.mp (hrows ▸ hother) with hstored | hnew
    · exact hsound other hstored
    · rw [List.mem_singleton.mp hnew]
      exact ⟨i, hfiled⟩
  · show t.get record.releaseId = some record
    rw [Table.get_of_insert hinsert]
    exact if_pos rfl

/-! ## The endpoints -/

theorem safe_evaluation (calls : ι → Call R) (site : Site R) (d : Draw) (s : Store R) :
    Safe commit (Grows calls) Truthful (runEvaluationEndpoint site d) s := by
  rw [runEvaluationEndpoint]
  cases site.runEvaluation false with
  | error e => trivial
  | ok o =>
      intro s₁ _ s₂ hcommit
      obtain ⟨hgrows, hget⟩ := grows_evaluation hcommit
      exact ⟨hgrows, d.now, hget⟩

theorem safe_getEvaluation (calls : ι → Call R) (id : String) (s : Store R) :
    Safe commit (Grows calls) Truthful (getEvaluation id) s := by
  intro s' _
  dsimp only
  cases hget : s'.evaluationRuns.get id with
  | none => trivial
  | some row =>
      obtain rfl : row.evaluationId = id := Table.key_of_get hget
      exact hget

/-- What a half commits, when its evaluation does not raise. -/
theorem publish_eq {disabled : Bool} (ho : site.runEvaluation disabled = .ok o)
    (eval release : Draw) (next : GateReport R → Work R) :
    publish site disabled ((runEvaluation site.runtime site.dataset site.sources disabled).map
        (evaluateRelease site.runtime site.arithmetic (configOf disabled))) eval release next =
      .commits (.evaluation (evaluationRow (evaluationId eval) eval.now o)) (.commits
        (.release (releaseRow (releaseId release) release.now (reportOf site disabled o)
          (evaluationId eval))) (next (reportOf site disabled o))) := by
  rw [publish, ho, metrics_of_output ho]
  rfl

/-- Half of `get_latest_release` is safe when the rest is, once the release is
    stored with its report. -/
theorem safe_publish {i : ι} {disabled : Bool} {eval release : Draw}
    {next : GateReport R → Work R}
    (hnext : ∀ report s', Grows calls s s' → Published (releaseId release) report s' →
      Safe commit (Grows calls) Truthful (next report) s') :
    Safe commit (Grows calls) Truthful (publish (calls i).site disabled
      ((runEvaluation (calls i).site.runtime (calls i).site.dataset (calls i).site.sources
        disabled).map (evaluateRelease (calls i).site.runtime (calls i).site.arithmetic
          (configOf disabled)))
      eval release next) s := by
  cases ho : (calls i).site.runEvaluation disabled with
  | error e =>
      rw [publish, ho]
      trivial
  | ok o =>
      rw [publish_eq ho]
      intro s₁ h₁ s₂ hevaluation
      obtain ⟨h₂, hrow⟩ := grows_evaluation (R := R) hevaluation
      refine ⟨h₂, ?_⟩
      intro s₃ h₃ s₄ hrelease
      -- others may have committed in between
      have hstored := Table.mem_of_get (get_of_grown h₃.evaluations hrow)
      obtain ⟨h₄, hrecord⟩ := grows_release (i := i)
        ⟨disabled, o, _, _, _, ho, hstored, rfl⟩ hrelease
      have hgrows := ((h₁.trans h₂).trans h₃).trans h₄
      exact ⟨h₄, hnext _ s₄ hgrows ⟨_, hrecord, _, _, rfl⟩⟩

theorem safe_work (calls : ι → Call R) (i : ι) (s : Store R) :
    Safe commit (Grows calls) Truthful (calls i).work s := by
  rw [Call.work]
  cases (calls i).endpoint with
  | runEvaluationEndpoint d => exact safe_evaluation calls _ d s
  | getEvaluation id => exact safe_getEvaluation calls id s
  | getLatestRelease r1Eval r1Release r2Eval r2Release =>
      refine safe_publish fun r1 s₁ _ hr1 => ?_
      refine safe_publish fun r2 s₂ h₂ hr2 => ?_
      exact ⟨hr1.grown h₂, hr2⟩

/-! ## What the records say -/

/-- Some case of the dataset leaves a source of the pool out. -/
def LeavesOut (site : Site R) : Prop :=
  ∃ entry ∈ site.dataset.cases, ∃ source ∈ site.sources, source.sourceId ∉ entry.case.sourceRefs

/-- The record stands on a stored evaluation of the process: its decision is
    what the columns give, and what the dataset deserves. -/
structure Justified (site : Site R) (s : Store R) (record : ReleaseRecord) : Prop where
  stored : ∃ row ∈ s.evaluationRuns.rows, record.evaluationId = some row.evaluationId ∧
    record.datasetVersion = row.datasetVersion ∧ (record.decision = .pass ↔ Passes row)
  deserved :
    record.configName = "R1_REFERENCE" ∧ (record.decision = .pass ↔
      RecallReached site.runtime site.dataset site.sources ∧ Covered site.dataset) ∨
    record.configName = "R2_REGRESSION_FIXTURE" ∧
      (LeavesOut site → record.decision = .block)

/-- What the reference configuration deserves. -/
theorem reference_deserves (h : site.runEvaluation false = .ok o) :
    (reportOf site false o).decision = .pass ↔
      RecallReached site.runtime site.dataset site.sources ∧ Covered site.dataset := by
  have hm := metrics_of_output h
  obtain ⟨hauthorised, haltered⟩ := authorisation_counts hm
  obtain ⟨hrecall, hcovered⟩ := metrics_of_reference hm
  rw [reportOf, passes_iff, and_iff_right hauthorised, and_iff_right (binding_count hm),
    and_iff_right haltered, hrecall, hcovered]

/-- The widened configuration is blocked by one undeclared source. -/
theorem regression_deserves (h : site.runEvaluation true = .ok o)
    (hout : LeavesOut site) : (reportOf site true o).decision = .block := by
  obtain ⟨entry, hentry, source, hsource, hundeclared⟩ := hout
  rw [reportOf, blocks_iff, passes_iff]
  rintro ⟨-, hbound, -⟩
  exact binding_of_widened (metrics_of_output h) hentry hsource hundeclared hbound

theorem Filed.justified (h : Filed site s record) : Justified site s record := by
  obtain ⟨disabled, o, id, now, later, ho, hrow, hrecord⟩ := h
  refine ⟨⟨_, hrow, ?_, ?_, ?_⟩, ?_⟩
  · rw [hrecord]
    rfl
  · rw [hrecord]
    rfl
  · rw [hrecord]
    exact passes_row site disabled o id now
  · rw [hrecord]
    cases disabled with
    | false => exact Or.inl ⟨rfl, reference_deserves ho⟩
    | true => exact Or.inr ⟨rfl, regression_deserves ho⟩

variable [DecidableEq ι]

/-- **EVERY RECORD IS JUSTIFIED**: in any interleaving of requests to any
    processes, whichever of them stop half way, a stored release record names a
    stored evaluation with the decision its columns give. -/
theorem records_justified (calls : ι → Call R) (schedule : List ι) :
    ∀ record ∈ (after calls schedule).db.releaseRecords.rows,
      ∃ i, Justified (calls i).site (after calls schedule).db record := by
  intro record hrecord
  obtain ⟨hgrows, -⟩ :=
    run_safe (lawful calls) (σ := opened calls) (fun i => safe_work calls i _) schedule
  have hempty : Sound calls (opened calls).db :=
    fun record hrecord => absurd hrecord List.not_mem_nil
  obtain ⟨i, hfiled⟩ := hgrows.sound hempty record hrecord
  exact ⟨i, hfiled.justified⟩

/-- A process that evaluates the hero case. -/
def heroSite : Site Float where
  runtime := default
  arithmetic := doubleArithmetic
  dataset := heroDataset
  sources := heroPool
  codeVersion := none

theorem hero_evaluation (disabled : Bool) : ∃ o, heroSite.runEvaluation disabled = .ok o := by
  have hpool : ∀ entry ∈ heroDataset.cases, ∀ id ∈ entry.case.sourceRefs,
      id ∈ heroPool.map Source.sourceId := by decide
  obtain ⟨m, hm⟩ : ∃ m, runEvaluation heroSite.runtime heroDataset heroPool disabled = .ok m :=
    runEvaluation_isOk hpool disabled
  refine ⟨⟨m, Evaluation.criticalRecallWilsonLowerBound95 heroSite.arithmetic m, none, "dev"⟩, ?_⟩
  show (runEvaluation heroSite.runtime heroDataset heroPool disabled).map _ = _
  rw [hm]
  rfl

theorem commit_first (row : EvaluationRun R) (record : ReleaseRecord) :
    ∃ s, commit (.evaluation row) Store.empty = some s ∧
      ∃ s', commit (.release record) s = some s' ∧ record ∈ s'.releaseRecords.rows := by
  obtain ⟨t, ht⟩ : ∃ t, (Table.empty : Table (EvaluationRun R)).insert [row] = some t :=
    Table.insert_isSome.mpr ⟨List.pairwise_singleton _ _, fun a ha => absurd ha List.not_mem_nil⟩
  obtain ⟨t', ht'⟩ : ∃ t, (Table.empty : Table ReleaseRecord).insert [record] = some t :=
    Table.insert_isSome.mpr ⟨List.pairwise_singleton _ _, fun a ha => absurd ha List.not_mem_nil⟩
  refine ⟨⟨t, .empty⟩, ?_, ⟨t, t'⟩, ?_, ?_⟩
  · rw [commit, Store.empty, ht]
    rfl
  · rw [commit, ht']
    rfl
  · rw [Table.rows_of_insert ht']
    exact List.mem_append_right _ List.mem_cons_self

/-- A request that stops after its first record. -/
theorem hero_published :
    let calls : Unit → Call Float := fun _ =>
      ⟨heroSite, .getLatestRelease ⟨"1", 1⟩ ⟨"2", 2⟩ ⟨"3", 3⟩ ⟨"4", 4⟩⟩
    ∃ record ∈ (after calls [(), ()]).db.releaseRecords.rows,
      ∃ i, Justified (calls i).site (after calls [(), ()]).db record := by
  intro calls
  obtain ⟨o, ho⟩ := hero_evaluation false
  obtain ⟨next, hwork⟩ : ∃ next,
      getLatestRelease heroSite ⟨"1", 1⟩ ⟨"2", 2⟩ ⟨"3", 3⟩ ⟨"4", 4⟩ =
        .commits (.evaluation (evaluationRow (evaluationId ⟨"1", 1⟩) 1 o)) (.commits (.release
          (releaseRow (releaseId ⟨"2", 2⟩) 2 (reportOf heroSite false o)
            (evaluationId ⟨"1", 1⟩))) next) := ⟨_, publish_eq ho _ _ _⟩
  obtain ⟨s, hfirst, s', hsecond, hstored⟩ := commit_first
    (evaluationRow (evaluationId ⟨"1", 1⟩) 1 o)
    (releaseRow (releaseId ⟨"2", 2⟩) 2 (reportOf heroSite false o) (evaluationId ⟨"1", 1⟩))
  have hdb : (after calls [(), ()]).db = s' := by
    have hopened : opened calls = ⟨Store.empty, fun _ =>
      getLatestRelease heroSite ⟨"1", 1⟩ ⟨"2", 2⟩ ⟨"3", 3⟩ ⟨"4", 4⟩⟩ := rfl
    simp only [after, Runs.run_cons, Runs.run_nil, Scripts.fire, fire_db, fire_pc_self, hopened,
      hwork, Scripts.step, hfirst, hsecond]
  rw [← hdb] at hstored
  exact ⟨_, hstored, records_justified calls [(), ()] _ hstored⟩

/-- **ANSWERS STAY TRUE**: what a request was answered is what the store holds,
    then and after whatever comes later. -/
theorem answers_stay_true (calls : ι → Call R) (before rest : List ι) (i : ι) (a : Response R)
    (h : (after calls before).pc i = .answered a) :
    Truthful a (after calls (before ++ rest)).db :=
  answer_stays (lawful calls) (fun j => safe_work calls j _) before rest h

/-- An evaluation is read back although another has been committed behind it. -/
theorem hero_read_back :
    let calls : Bool → Call Float := fun second =>
      ⟨heroSite, .runEvaluationEndpoint (if second then ⟨"2", 2⟩ else ⟨"1", 1⟩)⟩
    ∃ o now, (after calls [false, true]).pc true = .answered (.evaluated "EVAL-2" o) ∧
      (after calls ([false] ++ [true])).db.evaluationRuns.get "EVAL-1" =
        some (evaluationRow "EVAL-1" now o) := by
  intro calls
  obtain ⟨o, ho⟩ := hero_evaluation false
  have hwork : ∀ d : Draw, runEvaluationEndpoint heroSite d =
      .commits (.evaluation (evaluationRow (evaluationId d) d.now o))
        (.answered (.evaluated (evaluationId d) o.withoutResults)) := by
    intro d
    rw [runEvaluationEndpoint, ho]
    rfl
  obtain ⟨s, hfirst, -⟩ := commit_first (evaluationRow (evaluationId ⟨"1", 1⟩) 1 o)
    (releaseRow "" 0 (reportOf heroSite false o) "")
  -- the ids of the two rows differ
  obtain ⟨s', hsecond⟩ : ∃ s', commit
      (.evaluation (evaluationRow (evaluationId ⟨"2", 2⟩) 2 o)) s = some s' := by
    obtain ⟨t, ht⟩ : ∃ t, s.evaluationRuns.insert
        [evaluationRow (evaluationId ⟨"2", 2⟩) 2 o] = some t := by
      rw [commit, Option.map_eq_some_iff] at hfirst
      obtain ⟨t, hinsert, rfl⟩ := hfirst
      refine Table.insert_isSome.mpr ⟨List.pairwise_singleton _ _, fun a ha b hb hclash => ?_⟩
      rw [Table.rows_of_insert hinsert] at ha
      obtain rfl := List.mem_singleton.mp ha
      obtain rfl := List.mem_singleton.mp hb
      exact absurd (show evaluationId ⟨"1", 1⟩ = evaluationId ⟨"2", 2⟩ from hclash) (by decide)
    rw [commit, ht]
    exact ⟨_, rfl⟩
  have hopened : opened calls = ⟨Store.empty, fun second =>
      runEvaluationEndpoint heroSite (if second then ⟨"2", 2⟩ else ⟨"1", 1⟩)⟩ := rfl
  have hanswer : (after calls [false]).pc false =
      .answered (.evaluated (evaluationId ⟨"1", 1⟩) o.withoutResults) := by
    simp [after, Runs.run_cons, Runs.run_nil, Scripts.fire, fire_pc_self, hopened, hwork,
      Scripts.step, hfirst]
  have hlater : (after calls [false, true]).pc true =
      .answered (.evaluated (evaluationId ⟨"2", 2⟩) o.withoutResults) := by
    simp [after, Runs.run_cons, Runs.run_nil, Scripts.fire, fire_pc_self, fire_db, fire_pc_other,
      hopened, hwork, Scripts.step, hfirst, hsecond]
  obtain ⟨now, hstored⟩ := answers_stay_true calls [false] [true] false _ hanswer
  exact ⟨o.withoutResults, now, hlater, hstored⟩

end ReleaseRecords
