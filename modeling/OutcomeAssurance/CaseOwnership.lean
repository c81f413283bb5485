import OutcomeAssurance.CaseKeys

/-! # Who owns the stored rows

    Every row of a reachable store belongs to a stored case and carries that
    case's ids.  Once the rows of a case are out of the way, every table but
    that of evidence therefore takes the rows of its next run. -/

namespace CaseOwnership

open KeyedTable CaseModel PyRuntime Investigation Pipeline CaseStore CaseKeys
open ReviewModel (ReviewTask)

variable {R : Type} {rt : Runtime R} {s s' : Store R} {a : CaseArtifacts R}

/-! ## What a persisted run stores -/

/-- The store and the next version that a run of the case is inserted into. -/
abbrev kept (s : Store R) (a : CaseArtifacts R) : Store R :=
  (s.replaceExistingCase a.case.caseId).1

/-- The inserts of a persisted run, table by table. -/
structure Persisted (rt : Runtime R) (s : Store R) (a : CaseArtifacts R) (s' : Store R) :
    Prop where
  sourceSnapshots : upsertAll s.sourceSnapshots a.snapshots = some s'.sourceSnapshots
  agentDefinitions :
    upsertAll s.agentDefinitions (registeredAgents rt) = some s'.agentDefinitions
  cases : (kept s a).cases.insert [caseRow a (s.replaceExistingCase a.case.caseId).2]
    = some s'.cases
  evidence : (kept s a).evidence.insert a.evidence = some s'.evidence
  claims : (kept s a).claims.insert a.claims = some s'.claims
  authorityRecords : (kept s a).authorityRecords.insert [a.authority] = some s'.authorityRecords
  reviewTasks : (kept s a).reviewTasks.insert a.review.toList = some s'.reviewTasks
  outcomes : (kept s a).outcomes.insert [a.outcome] = some s'.outcomes
  traceEvents : (kept s a).traceEvents.insert a.traceEvents = some s'.traceEvents
  agentRuns : (kept s a).agentRuns.insert a.agentRuns = some s'.agentRuns
  agentSteps : (kept s a).agentSteps.insert a.agentSteps = some s'.agentSteps
  agentHandoffs : (kept s a).agentHandoffs.insert a.agentHandoffs = some s'.agentHandoffs
  guardrailReports :
    (kept s a).guardrailReports.insert a.guardrailReport.toList = some s'.guardrailReports

/-- Rows that already carry the id of the case are stored as they are. -/
theorem map_refiled {ρ : Type} {rows : List ρ} {refile : ρ → ρ}
    (h : ∀ r ∈ rows, refile r = r) : rows.map refile = rows := by
  rw [List.map_congr_left h, List.map_id']

theorem persisted_iff (ha : Shaped a) :
    persistCaseRun rt s a = some s' ↔ Persisted rt s a s' := by
  have hevidence : a.evidence.map (fun e => { e with caseId := a.case.caseId }) = a.evidence :=
    map_refiled fun e he => by rw [← (ha.evidence e he).1]
  have hclaims : a.claims.map (fun c => { c with caseId := a.case.caseId }) = a.claims :=
    map_refiled fun c hc => by rw [← (ha.claims.1 c hc).1]
  have hauthority : { a.authority with caseId := a.case.caseId } = a.authority := by
    rw [← ha.authority.1]
  have hreview : a.review.toList.map (fun r => { r with caseId := a.case.caseId })
      = a.review.toList := map_refiled fun r hr => by rw [← (ha.review.1 r hr).1]
  have houtcome : { a.outcome with caseId := a.case.caseId } = a.outcome := by
    rw [← ha.outcome.1]
  have htrace : a.traceEvents.map (fun t => { t with caseId := a.case.caseId })
      = a.traceEvents := map_refiled fun t ht => by rw [← (ha.trace.1 t ht).1]
  have hstages : (a.agentRuns.all fun r => r.stage = "INVESTIGATE") = true :=
    List.all_eq_true.mpr fun r hr => decide_eq_true (ha.stages r hr)
  have hruns : a.agentRuns.map (fun r => { r with caseId := a.case.caseId }) = a.agentRuns :=
    map_refiled fun r hr => by rw [← (ha.runs.1 r hr).1]
  have hreport : a.guardrailReport.toList.map (fun r => { r with caseId := a.case.caseId })
      = a.guardrailReport.toList := map_refiled fun r hr => by rw [← (ha.report.1 r hr).1]
  constructor
  -- one fact for each statement of the transaction, in its order
  · intro h
    rw [persistCaseRun] at h
    obtain ⟨snapshots, h1, h⟩ := Option.bind_eq_some_iff.mp h
    obtain ⟨definitions, h2, h⟩ := Option.bind_eq_some_iff.mp h
    obtain ⟨cases, h3, h⟩ := Option.bind_eq_some_iff.mp h
    obtain ⟨evidence, h4, h⟩ := Option.bind_eq_some_iff.mp h
    obtain ⟨claims, h5, h⟩ := Option.bind_eq_some_iff.mp h
    obtain ⟨authority, h6, h⟩ := Option.bind_eq_some_iff.mp h
    obtain ⟨reviews, h7, h⟩ := Option.bind_eq_some_iff.mp h
    obtain ⟨outcomes, h8, h⟩ := Option.bind_eq_some_iff.mp h
    obtain ⟨trace, h9, h⟩ := Option.bind_eq_some_iff.mp h
    obtain ⟨-, -, h⟩ := Option.bind_eq_some_iff.mp h
    obtain ⟨runs, h10, h⟩ := Option.bind_eq_some_iff.mp h
    obtain ⟨steps, h11, h⟩ := Option.bind_eq_some_iff.mp h
    obtain ⟨handoffs, h12, h⟩ := Option.bind_eq_some_iff.mp h
    obtain ⟨reports, h13, h⟩ := Option.bind_eq_some_iff.mp h
    rw [hevidence] at h4
    rw [hclaims] at h5
    rw [hauthority] at h6
    rw [hreview] at h7
    rw [houtcome] at h8
    rw [htrace] at h9
    rw [hruns] at h10
    rw [hreport] at h13
    obtain rfl := Option.some.inj h
    exact ⟨h1, h2, h3, h4, h5, h6, h7, h8, h9, h10, h11, h12, h13⟩
  · rintro ⟨h1, h2, h3, h4, h5, h6, h7, h8, h9, h10, h11, h12, h13⟩
    rw [← hevidence] at h4
    rw [← hclaims] at h5
    rw [← hauthority] at h6
    rw [← hreview] at h7
    rw [← houtcome] at h8
    rw [← htrace] at h9
    rw [← hruns] at h10
    rw [← hreport] at h13
    rw [persistCaseRun]
    refine Option.bind_eq_some_iff.mpr ⟨_, h1, ?_⟩
    refine Option.bind_eq_some_iff.mpr ⟨_, h2, ?_⟩
    refine Option.bind_eq_some_iff.mpr ⟨_, h3, ?_⟩
    refine Option.bind_eq_some_iff.mpr ⟨_, h4, ?_⟩
    refine Option.bind_eq_some_iff.mpr ⟨_, h5, ?_⟩
    refine Option.bind_eq_some_iff.mpr ⟨_, h6, ?_⟩
    refine Option.bind_eq_some_iff.mpr ⟨_, h7, ?_⟩
    refine Option.bind_eq_some_iff.mpr ⟨_, h8, ?_⟩
    refine Option.bind_eq_some_iff.mpr ⟨_, h9, ?_⟩
    refine Option.bind_eq_some_iff.mpr ⟨(), if_pos hstages, ?_⟩
    refine Option.bind_eq_some_iff.mpr ⟨_, h10, ?_⟩
    refine Option.bind_eq_some_iff.mpr ⟨_, h11, ?_⟩
    refine Option.bind_eq_some_iff.mpr ⟨_, h12, ?_⟩
    exact Option.bind_eq_some_iff.mpr ⟨_, h13, rfl⟩

/-! ## The invariant -/

/-- The ids of the stored cases. -/
def caseIds (s : Store R) : List String := s.cases.rows.map CaseRow.caseId

/-- Every row belongs to one of the cases. -/
def Housed {ρ : Type} [Constrained ρ] [CaseRows ρ] (ids : List String) (t : Table ρ) : Prop :=
  ∀ r ∈ t.rows, ∃ c ∈ ids, Owns c r

structure Owned (s : Store R) : Prop where
  evidence : ∀ e ∈ s.evidence.rows, e.caseId ∈ caseIds s ∧ e.evidenceId = "EVID-" ++ e.sourceId
  claims : Housed (caseIds s) s.claims
  authorityRecords : Housed (caseIds s) s.authorityRecords
  reviewTasks : Housed (caseIds s) s.reviewTasks
  outcomes : Housed (caseIds s) s.outcomes
  traceEvents : Housed (caseIds s) s.traceEvents
  agentRuns : Housed (caseIds s) s.agentRuns
  agentSteps : Housed (caseIds s) s.agentSteps
  agentHandoffs : Housed (caseIds s) s.agentHandoffs
  guardrailReports : Housed (caseIds s) s.guardrailReports
  stepRuns : ∀ st ∈ s.agentSteps.rows, ∃ r ∈ s.agentRuns.rows, r.agentRunId = st.agentRunId
  handoffRuns : ∀ h ∈ s.agentHandoffs.rows, ∃ r ∈ s.agentRuns.rows, r.agentRunId = h.parentRunId

theorem owned_empty : Owned (Store.empty : Store R) where
  evidence _ h := absurd h List.not_mem_nil
  claims _ h := absurd h List.not_mem_nil
  authorityRecords _ h := absurd h List.not_mem_nil
  reviewTasks _ h := absurd h List.not_mem_nil
  outcomes _ h := absurd h List.not_mem_nil
  traceEvents _ h := absurd h List.not_mem_nil
  agentRuns _ h := absurd h List.not_mem_nil
  agentSteps _ h := absurd h List.not_mem_nil
  agentHandoffs _ h := absurd h List.not_mem_nil
  guardrailReports _ h := absurd h List.not_mem_nil
  stepRuns _ h := absurd h List.not_mem_nil
  handoffRuns _ h := absurd h List.not_mem_nil

/-! ## Out of the way -/

/-- Every row belongs to a stored case other than `c`. -/
def Elsewhere {ρ : Type} [Constrained ρ] [CaseRows ρ] (ids : List String) (c : String)
    (t : Table ρ) : Prop :=
  ∀ r ∈ t.rows, ∃ c' ∈ ids, c' ≠ c ∧ Owns c' r

theorem elsewhere_of_fresh {ρ : Type} [Constrained ρ] [CaseRows ρ] {ids : List String}
    {c : String} {t : Table ρ} (h : Housed ids t) (hc : c ∉ ids) : Elsewhere ids c t := by
  intro r hr
  obtain ⟨c', hc', hown⟩ := h r hr
  exact ⟨c', hc', fun heq => hc (heq ▸ hc'), hown⟩

/-- Deleting the rows of a case leaves rows of others. -/
theorem elsewhere_of_delete {ρ : Type} [Constrained ρ] [CaseRows ρ] {ids : List String}
    {c : String} {t : Table ρ} {p : ρ → Bool} (h : Housed ids t)
    (hp : ∀ r ∈ t.rows, Owns c r → p r = true) : Elsewhere ids c (t.delete p) := by
  intro r hr
  obtain ⟨hmem, hout⟩ := Table.mem_delete.mp hr
  obtain ⟨c', hc', hown⟩ := h r hmem
  refine ⟨c', hc', ?_, hown⟩
  rintro rfl
  exact absurd (hp r hmem hown) (by rw [hout]; decide)

/-- The store without the rows of the case to be replaced. -/
structure Cleared (ids : List String) (c : String) (k : Store R) : Prop where
  cases : ∀ r ∈ k.cases.rows, r.caseId ∈ ids ∧ r.caseId ≠ c
  evidence : ∀ e ∈ k.evidence.rows,
    e.caseId ∈ ids ∧ e.caseId ≠ c ∧ e.evidenceId = "EVID-" ++ e.sourceId
  claims : Elsewhere ids c k.claims
  authorityRecords : Elsewhere ids c k.authorityRecords
  reviewTasks : Elsewhere ids c k.reviewTasks
  outcomes : Elsewhere ids c k.outcomes
  traceEvents : Elsewhere ids c k.traceEvents
  agentRuns : Elsewhere ids c k.agentRuns
  agentSteps : Elsewhere ids c k.agentSteps
  agentHandoffs : Elsewhere ids c k.agentHandoffs
  guardrailReports : Elsewhere ids c k.guardrailReports
  stepRuns : ∀ st ∈ k.agentSteps.rows, ∃ r ∈ k.agentRuns.rows, r.agentRunId = st.agentRunId
  handoffRuns : ∀ h ∈ k.agentHandoffs.rows, ∃ r ∈ k.agentRuns.rows, r.agentRunId = h.parentRunId

/-- A run of the case is stored when one of its steps or handoffs is. -/
theorem mem_runIds (h : Owned s) {c : String} {role : AgentRole} {id : String}
    (hid : id = runId c role) (hrun : ∃ r ∈ s.agentRuns.rows, r.agentRunId = id) :
    id ∈ s.runIds c := by
  obtain ⟨r, hr, hrid⟩ := hrun
  obtain ⟨c', -, hcase, role', hrole⟩ := h.agentRuns r hr
  obtain ⟨rfl, -⟩ := runId_inj (hrole.symm.trans (hrid.trans hid))
  exact List.mem_map.mpr ⟨r, List.mem_filter.mpr ⟨hr, decide_eq_true hcase⟩, hrid⟩

/-- The runs that are left are those that the left steps and handoffs refer to. -/
theorem left_run {c id : String} (hrun : ∃ r ∈ s.agentRuns.rows, r.agentRunId = id)
    (hout : decide (id ∈ s.runIds c) = false) :
    ∃ r ∈ (s.withoutCase c).agentRuns.rows, r.agentRunId = id := by
  obtain ⟨r, hr, hrid⟩ := hrun
  refine ⟨r, Table.mem_delete.mpr ⟨hr, decide_eq_false fun hcase => ?_⟩, hrid⟩
  refine of_decide_eq_false hout (List.mem_map.mpr ⟨r, List.mem_filter.mpr ⟨hr, ?_⟩, hrid⟩)
  exact decide_eq_true hcase

theorem cleared_withoutCase (h : Owned s) (c : String) :
    Cleared (caseIds s) c (s.withoutCase c) where
  cases r hr := by
    obtain ⟨hmem, hout⟩ := Table.mem_delete.mp hr
    exact ⟨List.mem_map.mpr ⟨r, hmem, rfl⟩, of_decide_eq_false hout⟩
  evidence e he := by
    obtain ⟨hmem, hout⟩ := Table.mem_delete.mp he
    exact ⟨(h.evidence e hmem).1, of_decide_eq_false hout, (h.evidence e hmem).2⟩
  claims := elsewhere_of_delete h.claims fun _ _ hown => decide_eq_true hown.1
  authorityRecords := elsewhere_of_delete h.authorityRecords fun _ _ hown => decide_eq_true hown.1
  reviewTasks := elsewhere_of_delete h.reviewTasks fun _ _ hown => decide_eq_true hown.1
  outcomes := elsewhere_of_delete h.outcomes fun _ _ hown => decide_eq_true hown.1
  traceEvents := elsewhere_of_delete h.traceEvents fun _ _ hown => decide_eq_true hown.1
  agentRuns := elsewhere_of_delete h.agentRuns fun _ _ hown => decide_eq_true hown.1
  agentSteps := elsewhere_of_delete h.agentSteps fun st hst hown => by
    obtain ⟨role, hrun, -⟩ := hown
    exact decide_eq_true (mem_runIds h hrun (h.stepRuns st hst))
  agentHandoffs := elsewhere_of_delete h.agentHandoffs fun ho hho hown =>
    decide_eq_true (mem_runIds h hown.1 (h.handoffRuns ho hho))
  guardrailReports := elsewhere_of_delete h.guardrailReports fun _ _ hown => decide_eq_true hown.1
  stepRuns st hst := by
    obtain ⟨hmem, hout⟩ := Table.mem_delete.mp hst
    exact left_run (h.stepRuns st hmem) hout
  handoffRuns ho hho := by
    obtain ⟨hmem, hout⟩ := Table.mem_delete.mp hho
    exact left_run (h.handoffRuns ho hmem) hout

theorem cleared_fresh (h : Owned s) {c : String} (hc : c ∉ caseIds s) :
    Cleared (caseIds s) c s where
  cases r hr := by
    have hmem : r.caseId ∈ caseIds s := List.mem_map.mpr ⟨r, hr, rfl⟩
    exact ⟨hmem, fun heq => hc (heq ▸ hmem)⟩
  evidence e he := by
    obtain ⟨hmem, hid⟩ := h.evidence e he
    exact ⟨hmem, fun heq => hc (heq ▸ hmem), hid⟩
  claims := elsewhere_of_fresh h.claims hc
  authorityRecords := elsewhere_of_fresh h.authorityRecords hc
  reviewTasks := elsewhere_of_fresh h.reviewTasks hc
  outcomes := elsewhere_of_fresh h.outcomes hc
  traceEvents := elsewhere_of_fresh h.traceEvents hc
  agentRuns := elsewhere_of_fresh h.agentRuns hc
  agentSteps := elsewhere_of_fresh h.agentSteps hc
  agentHandoffs := elsewhere_of_fresh h.agentHandoffs hc
  guardrailReports := elsewhere_of_fresh h.guardrailReports hc
  stepRuns := h.stepRuns
  handoffRuns := h.handoffRuns

theorem getCase_eq_none {c : String} : s.getCase c = none ↔ c ∉ caseIds s := by
  rw [Store.getCase, Table.get_eq_none, caseIds, List.mem_map]
  constructor
  · rintro h ⟨r, hr, hc⟩
    exact h r hr hc
  · intro h r hr hc
    exact h ⟨r, hr, hc⟩

theorem kept_of_fresh (h : a.case.caseId ∉ caseIds s) : kept s a = s := by
  rw [kept, Store.replaceExistingCase, getCase_eq_none.mpr h]

theorem kept_of_stored (h : a.case.caseId ∈ caseIds s) :
    kept s a = s.withoutCase a.case.caseId := by
  cases hget : s.getCase a.case.caseId with
  | none => exact absurd h (getCase_eq_none.mp hget)
  | some existing => rw [kept, Store.replaceExistingCase, hget]

/-- Whether the case is stored or not, its rows are out of the way. -/
theorem cleared_kept (h : Owned s) (a : CaseArtifacts R) :
    Cleared (caseIds s) a.case.caseId (kept s a) := by
  by_cases hc : a.case.caseId ∈ caseIds s
  · rw [kept_of_stored hc]
    exact cleared_withoutCase h _
  · rw [kept_of_fresh hc]
    exact cleared_fresh h hc

theorem mem_kept_evidence (h : Owned s) {e : Evidence R} :
    e ∈ (kept s a).evidence.rows ↔ e ∈ s.evidence.rows ∧ e.caseId ≠ a.case.caseId := by
  by_cases hc : a.case.caseId ∈ caseIds s
  · rw [kept_of_stored hc]
    exact Table.mem_delete.trans (and_congr_right fun _ => decide_eq_false_iff_not)
  · rw [kept_of_fresh hc]
    exact ⟨fun he => ⟨he, fun heq => hc (heq ▸ (h.evidence e he).1)⟩, And.left⟩

theorem mem_kept_reviewTasks (h : Owned s) {r : ReviewTask} :
    r ∈ (kept s a).reviewTasks.rows ↔ r ∈ s.reviewTasks.rows ∧ r.caseId ≠ a.case.caseId := by
  by_cases hc : a.case.caseId ∈ caseIds s
  · rw [kept_of_stored hc]
    exact Table.mem_delete.trans (and_congr_right fun _ => decide_eq_false_iff_not)
  · rw [kept_of_fresh hc]
    refine ⟨fun hr => ⟨hr, fun heq => hc ?_⟩, And.left⟩
    obtain ⟨c, hmem, hcase, -⟩ := h.reviewTasks r hr
    exact heq ▸ hcase ▸ hmem

/-! ## When a run is persisted -/

theorem insert_elsewhere {ρ : Type} [Constrained ρ] [CaseRows ρ] {t : Table ρ} {c : String}
    {ids : List String} {rows : List ρ} (ht : Elsewhere ids c t) (h : Block c rows) :
    ∃ t', t.insert rows = some t' :=
  insert_block (fun r hr => by
    obtain ⟨c', -, hne, hown⟩ := ht r hr
    exact ⟨c', hne, hown⟩) h

/-- **ONLY EVIDENCE CAN CLASH**: a run is persisted exactly when its evidence
    fits between the evidence of the other cases. -/
theorem persist_isSome (hs : Owned s) (ha : Shaped a) :
    (∃ s', persistCaseRun rt s a = some s') ↔
      ∃ t, (kept s a).evidence.insert a.evidence = some t := by
  constructor
  · rintro ⟨s', h⟩
    exact ⟨_, ((persisted_iff ha).mp h).evidence⟩
  · rintro ⟨evidence, hevidence⟩
    have hk := cleared_kept hs a
    -- shared rows are upserted, all others meet only rows of other cases
    obtain ⟨snapshots, hsnapshots, -⟩ :=
      upsertAll_isSome (fun _ _ h => h) s.sourceSnapshots a.snapshots
    obtain ⟨definitions, hdefinitions, -⟩ :=
      upsertAll_isSome (fun _ _ h => h) s.agentDefinitions (registeredAgents rt)
    obtain ⟨cases, hcases⟩ : ∃ t, (kept s a).cases.insert
        [caseRow a (s.replaceExistingCase a.case.caseId).2] = some t := by
      refine insert_block (c := a.case.caseId) (fun r hr => ?_) (block_singleton rfl)
      exact ⟨r.caseId, (hk.cases r hr).2, rfl⟩
    obtain ⟨claims, hclaims⟩ := insert_elsewhere hk.claims ha.claims
    obtain ⟨authority, hauthority⟩ :=
      insert_elsewhere hk.authorityRecords (block_singleton ha.authority)
    obtain ⟨reviews, hreviews⟩ := insert_elsewhere hk.reviewTasks ha.review
    obtain ⟨outcomes, houtcomes⟩ := insert_elsewhere hk.outcomes (block_singleton ha.outcome)
    obtain ⟨trace, htrace⟩ := insert_elsewhere hk.traceEvents ha.trace
    obtain ⟨runs, hruns⟩ := insert_elsewhere hk.agentRuns ha.runs
    obtain ⟨steps, hsteps⟩ := insert_elsewhere hk.agentSteps ha.steps
    obtain ⟨handoffs, hhandoffs⟩ := insert_elsewhere hk.agentHandoffs ha.handoffs
    obtain ⟨reports, hreports⟩ := insert_elsewhere hk.guardrailReports ha.report
    exact ⟨⟨cases, snapshots, definitions, evidence, claims, authority, reviews, outcomes, trace,
      runs, steps, handoffs, reports⟩, (persisted_iff ha).mpr ⟨hsnapshots, hdefinitions, hcases,
        hevidence, hclaims, hauthority, hreviews, houtcomes, htrace, hruns, hsteps, hhandoffs,
        hreports⟩⟩

/-! ## The invariant along persisted runs -/

theorem caseIds_persisted (h : Persisted rt s a s') :
    caseIds s' = caseIds (kept s a) ++ [a.case.caseId] := by
  rw [caseIds, Table.rows_of_insert h.cases, List.map_append]
  rfl

/-- No stored case is lost. -/
theorem caseIds_mono (h : Persisted rt s a s') {c : String} (hc : c ∈ caseIds s) :
    c ∈ caseIds s' := by
  rw [caseIds_persisted h, List.mem_append, List.mem_singleton]
  by_cases heq : c = a.case.caseId
  · exact Or.inr heq
  · left
    obtain ⟨r, hr, rfl⟩ := List.mem_map.mp hc
    refine List.mem_map.mpr ⟨r, ?_, rfl⟩
    by_cases hstored : a.case.caseId ∈ caseIds s
    · rw [kept_of_stored hstored]
      exact Table.mem_delete.mpr ⟨hr, decide_eq_false heq⟩
    · rw [kept_of_fresh hstored]
      exact hr

theorem mem_caseIds_persisted (h : Persisted rt s a s') : a.case.caseId ∈ caseIds s' := by
  rw [caseIds_persisted h]
  simp

theorem housed_of_insert {ρ : Type} [Constrained ρ] [CaseRows ρ] {k t' : Table ρ}
    {rows : List ρ} {ids ids' : List String} {c : String} (hk : Elsewhere ids c k)
    (hrows : Block c rows) (hmono : ids ⊆ ids') (hc : c ∈ ids')
    (hins : k.insert rows = some t') : Housed ids' t' := by
  intro r hr
  rw [Table.rows_of_insert hins, List.mem_append] at hr
  rcases hr with hr | hr
  · obtain ⟨c', hc', -, hown⟩ := hk r hr
    exact ⟨c', hmono hc', hown⟩
  · exact ⟨c, hc, hrows.1 r hr⟩

/-- **OWNERSHIP IS KEPT** by every persisted run. -/
theorem owned_persisted (hs : Owned s) (ha : Shaped a) (h : Persisted rt s a s') : Owned s' := by
  have hk := cleared_kept hs a
  have hmono : caseIds s ⊆ caseIds s' := fun _ hc => caseIds_mono h hc
  have hc := mem_caseIds_persisted h
  -- the run a step or handoff refers to was kept or has just been stored
  have hrun : ∀ {id : String}, ((∃ r ∈ (kept s a).agentRuns.rows, r.agentRunId = id) ∨
      id ∈ a.agentRuns.map AgentRun.agentRunId) → ∃ r ∈ s'.agentRuns.rows, r.agentRunId = id := by
    rintro id (⟨r, hr, hid⟩ | hmem)
    · exact ⟨r, by rw [Table.rows_of_insert h.agentRuns]; exact List.mem_append_left _ hr, hid⟩
    · obtain ⟨r, hr, hid⟩ := List.mem_map.mp hmem
      exact ⟨r, by rw [Table.rows_of_insert h.agentRuns]; exact List.mem_append_right _ hr, hid⟩
  exact {
    evidence := by
      intro e he
      rw [Table.rows_of_insert h.evidence, List.mem_append] at he
      rcases he with he | he
      · obtain ⟨hid, -, heq⟩ := hk.evidence e he
        exact ⟨hmono hid, heq⟩
      · obtain ⟨hcase, heq⟩ := ha.evidence e he
        exact ⟨hcase ▸ hc, heq⟩
    claims := housed_of_insert hk.claims ha.claims hmono hc h.claims
    authorityRecords := housed_of_insert hk.authorityRecords (block_singleton ha.authority) hmono hc
      h.authorityRecords
    reviewTasks := housed_of_insert hk.reviewTasks ha.review hmono hc h.reviewTasks
    outcomes := housed_of_insert hk.outcomes (block_singleton ha.outcome) hmono hc h.outcomes
    traceEvents := housed_of_insert hk.traceEvents ha.trace hmono hc h.traceEvents
    agentRuns := housed_of_insert hk.agentRuns ha.runs hmono hc h.agentRuns
    agentSteps := housed_of_insert hk.agentSteps ha.steps hmono hc h.agentSteps
    agentHandoffs := housed_of_insert hk.agentHandoffs ha.handoffs hmono hc h.agentHandoffs
    guardrailReports := housed_of_insert hk.guardrailReports ha.report hmono hc h.guardrailReports
    stepRuns := by
      intro st hst
      rw [Table.rows_of_insert h.agentSteps, List.mem_append] at hst
      exact hrun (hst.imp (hk.stepRuns st) (ha.stepRuns st))
    handoffRuns := by
      intro ho hho
      rw [Table.rows_of_insert h.agentHandoffs, List.mem_append] at hho
      exact hrun (hho.imp (hk.handoffRuns ho) (ha.handoffRuns ho)) }

end CaseOwnership
