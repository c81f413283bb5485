import OutcomeAssurance.CaseIsolation

/-! # Running a case again

    A case is persisted over its own earlier run: the rows of that run are
    deleted by three different mechanisms, and the ids of the new rows are the
    old ones.  In a store that holds nothing but the case, each run goes
    through and leaves its own rows and no others. -/

namespace CaseReplacement

open KeyedTable CaseModel PyRuntime Investigation Pipeline CaseStore CaseKeys CaseOwnership
open CaseIsolation

variable {R : Type} {rt : Runtime R} {s s' : Store R} {a : CaseArtifacts R}

/-- The rows of the run, of a version, are all there is, and no step or handoff
    refers to a run that is not stored. -/
structure Exactly (s : Store R) (a : CaseArtifacts R) (version : Nat) : Prop where
  cases : s.cases.rows = [caseRow a version]
  evidence : s.evidence.rows = a.evidence
  claims : s.claims.rows = a.claims
  authorityRecords : s.authorityRecords.rows = [a.authority]
  reviewTasks : s.reviewTasks.rows = a.review.toList
  outcomes : s.outcomes.rows = [a.outcome]
  traceEvents : s.traceEvents.rows = a.traceEvents
  agentRuns : s.agentRuns.rows = a.agentRuns
  agentSteps : s.agentSteps.rows = a.agentSteps
  agentHandoffs : s.agentHandoffs.rows = a.agentHandoffs
  guardrailReports : s.guardrailReports.rows = a.guardrailReport.toList
  stepRuns : ∀ st ∈ s.agentSteps.rows, ∃ r ∈ s.agentRuns.rows, r.agentRunId = st.agentRunId
  handoffRuns : ∀ h ∈ s.agentHandoffs.rows,
    (∃ r ∈ s.agentRuns.rows, r.agentRunId = h.parentRunId) ∧
      ∃ r ∈ s.agentRuns.rows, r.agentRunId = h.childRunId

/-- The store holds no other case, and `version` runs of this one. -/
structure Alone (s : Store R) (caseId : String) (version : Nat) : Prop where
  owned : Owned s
  only : ∀ c ∈ caseIds s, c = caseId
  next : (s.replaceExistingCase caseId).2 = version + 1

theorem alone_empty (caseId : String) : Alone (Store.empty : Store R) caseId 0 where
  owned := owned_empty
  only _ hc := absurd hc List.not_mem_nil
  next := rfl

/-! ## One run -/

/-- The runs that a run's handoffs lead to are runs of its own. -/
theorem childRuns_of_run {c : Case} {sources : List Source} {budget : RunBudget}
    (h : runCasePipeline rt c sources budget = .ok a) :
    ∀ ho ∈ a.agentHandoffs, ho.childRunId ∈ a.agentRuns.map AgentRun.agentRunId := by
  by_cases hspent : budget.Spent
  · rw [run_of_spent hspent] at h
    obtain rfl := Except.ok.inj h
    intro ho hho
    exact absurd hho List.not_mem_nil
  · obtain ⟨review, report, entries, hrun, -⟩ := run_of_left rt c sources hspent
    rw [hrun] at h
    obtain rfl := Except.ok.inj h
    intro ho hho
    simp only [completedArtifacts, foundResult, investigationResult, List.mem_cons,
      List.not_mem_nil, or_false] at hho
    rcases hho with rfl | rfl
    · exact List.mem_cons_of_mem _ List.mem_cons_self
    · exact List.mem_cons_of_mem _ (List.mem_cons_of_mem _ List.mem_cons_self)

theorem rows_of_elsewhere {ρ : Type} [Constrained ρ] [CaseRows ρ] {t : Table ρ}
    {ids : List String} {c : String} (h : Elsewhere ids c t) (honly : ∀ c' ∈ ids, c' = c) :
    t.rows = [] := by
  refine List.eq_nil_iff_forall_not_mem.mpr fun r hr => ?_
  obtain ⟨c', hc', hne, -⟩ := h r hr
  exact hne (honly c' hc')

theorem rows_of_insert_nil {ρ : Type} [Constrained ρ] {t t' : Table ρ} {rows : List ρ}
    (ht : t.rows = []) (h : t.insert rows = some t') : t'.rows = rows := by
  rw [Table.rows_of_insert h, ht, List.nil_append]

/-- With no other case around, a run that is persisted is all there is. -/
theorem exactly_persisted {caseId : String} {version : Nat} (hs : Alone s caseId version)
    (hcase : a.case.caseId = caseId) (ha : Shaped a)
    (hchildren : ∀ ho ∈ a.agentHandoffs, ho.childRunId ∈ a.agentRuns.map AgentRun.agentRunId)
    (h : Persisted rt s a s') : Exactly s' a (version + 1) := by
  obtain rfl := hcase
  have hk := cleared_kept hs.owned a
  have hcases : (kept s a).cases.rows = [] := by
    refine List.eq_nil_iff_forall_not_mem.mpr fun r hr => ?_
    exact (hk.cases r hr).2 (hs.only _ (hk.cases r hr).1)
  have hevidence : (kept s a).evidence.rows = [] := by
    refine List.eq_nil_iff_forall_not_mem.mpr fun e he => ?_
    exact (hk.evidence e he).2.1 (hs.only _ (hk.evidence e he).1)
  have hruns : s'.agentRuns.rows = a.agentRuns :=
    rows_of_insert_nil (rows_of_elsewhere hk.agentRuns hs.only) h.agentRuns
  have hhandoffs : s'.agentHandoffs.rows = a.agentHandoffs :=
    rows_of_insert_nil (rows_of_elsewhere hk.agentHandoffs hs.only) h.agentHandoffs
  have howned := owned_persisted hs.owned ha h
  exact {
    cases := by rw [rows_of_insert_nil hcases h.cases, hs.next]
    evidence := rows_of_insert_nil hevidence h.evidence
    claims := rows_of_insert_nil (rows_of_elsewhere hk.claims hs.only) h.claims
    authorityRecords :=
      rows_of_insert_nil (rows_of_elsewhere hk.authorityRecords hs.only) h.authorityRecords
    reviewTasks := rows_of_insert_nil (rows_of_elsewhere hk.reviewTasks hs.only) h.reviewTasks
    outcomes := rows_of_insert_nil (rows_of_elsewhere hk.outcomes hs.only) h.outcomes
    traceEvents := rows_of_insert_nil (rows_of_elsewhere hk.traceEvents hs.only) h.traceEvents
    agentRuns := hruns
    agentSteps := rows_of_insert_nil (rows_of_elsewhere hk.agentSteps hs.only) h.agentSteps
    agentHandoffs := hhandoffs
    guardrailReports :=
      rows_of_insert_nil (rows_of_elsewhere hk.guardrailReports hs.only) h.guardrailReports
    stepRuns := howned.stepRuns
    handoffRuns := by
      intro ho hho
      refine ⟨howned.handoffRuns ho hho, ?_⟩
      rw [hhandoffs] at hho
      rw [hruns]
      exact List.mem_map.mp (hchildren ho hho) }

/-- The evidence of a run goes into an empty table. -/
theorem persists_alone {caseId : String} {version : Nat} (hs : Alone s caseId version) {j : Job}
    (hcase : j.case.caseId = caseId) (hdistinct : (j.sources.map Source.sourceId).Nodup)
    (hrun : runCasePipeline rt j.case j.sources j.budget = .ok a) :
    ∃ s', persistCaseRun rt s a = some s' := by
  obtain ⟨hshaped, hacase⟩ := shaped_of_run hrun
  rw [persist_isSome hs.owned hshaped, Table.insert_isSome]
  refine ⟨evidence_unclashed hrun hdistinct, fun e he => ?_⟩
  obtain ⟨hid, hne, -⟩ := (cleared_kept hs.owned a).evidence e he
  rw [hacase, hcase] at hne
  exact absurd (hs.only _ hid) hne

/-- **ONE MORE RUN** goes through and replaces the one before. -/
theorem replaced_step {caseId : String} {version : Nat} (hs : Alone s caseId version) {j : Job}
    (hcase : j.case.caseId = caseId) (hdistinct : (j.sources.map Source.sourceId).Nodup) :
    ∃ a s', runCasePipeline rt j.case j.sources j.budget = .ok a ∧ j.persist rt s = some s' ∧
      Exactly s' a (version + 1) ∧ Alone s' caseId (version + 1) := by
  obtain ⟨a, hrun, hpersist⟩ := persist_eq rt j
  obtain ⟨hshaped, hacase⟩ := shaped_of_run hrun
  obtain ⟨s', hs'⟩ := persists_alone hs hcase hdistinct hrun
  have hpersisted := (persisted_iff hshaped).mp hs'
  have hid : a.case.caseId = caseId := by rw [hacase, hcase]
  have hexactly := exactly_persisted hs hid hshaped (childRuns_of_run hrun) hpersisted
  refine ⟨a, s', hrun, (hpersist s).trans hs', hexactly, ?_⟩
  have hget : s'.getCase caseId = some (caseRow a (version + 1)) := by
    have hmem : caseRow a (version + 1) ∈ s'.cases.rows := by
      rw [hexactly.cases]
      exact List.mem_cons_self
    exact hid ▸ Table.get_key hmem
  exact {
    owned := owned_persisted hs.owned hshaped hpersisted
    only := by
      intro c hc
      rw [caseIds, hexactly.cases, List.map_singleton, List.mem_singleton] at hc
      exact hc.trans hid
    next := by
      rw [Store.replaceExistingCase, hget]
      rfl }

/-! ## Any number of runs -/

/-- The runs of a case from a store that holds nothing else. -/
theorem replaced_run {caseId : String} {version : Nat} (hs : Alone s caseId version)
    {jobs : List Job} (hne : jobs ≠ []) (hcase : ∀ j ∈ jobs, j.case.caseId = caseId)
    (hdistinct : ∀ j ∈ jobs, (j.sources.map Source.sourceId).Nodup) :
    ∃ s' a, persistAll rt s jobs = some s' ∧
      runCasePipeline rt (jobs.getLast hne).case (jobs.getLast hne).sources
        (jobs.getLast hne).budget = .ok a ∧
      Exactly s' a (version + jobs.length) := by
  induction jobs generalizing s version with
  | nil => exact absurd rfl hne
  | cons j jobs ih =>
      obtain ⟨hcasej, hcase⟩ := List.forall_mem_cons.mp hcase
      obtain ⟨hdistinctj, hdistinct⟩ := List.forall_mem_cons.mp hdistinct
      obtain ⟨a, s₁, hrun, hpersist, hexactly, hs₁⟩ := replaced_step hs hcasej hdistinctj
      rw [persistAll_cons hpersist]
      cases jobs with
      | nil => exact ⟨s₁, a, rfl, hrun, hexactly⟩
      | cons k jobs =>
          obtain ⟨s', a', hall, hrun', hexactly'⟩ :=
            ih hs₁ (List.cons_ne_nil k jobs) hcase hdistinct
          refine ⟨s', a', hall, hrun', ?_⟩
          rw [List.length_cons, Nat.add_comm _ 1, ← Nat.add_assoc]
          exact hexactly'

/-- **RE-RUNNING A CASE REPLACES IT EXACTLY**: any number of runs of one case,
    persisted one after the other in an empty store, leave the rows of the last
    one and no others, under the number of runs as version. -/
theorem replaced_exactly (rt : Runtime R) (caseId : String) (jobs : List Job) (hne : jobs ≠ [])
    (hcase : ∀ j ∈ jobs, j.case.caseId = caseId)
    (hdistinct : ∀ j ∈ jobs, (j.sources.map Source.sourceId).Nodup) :
    ∃ s a, persistAll rt Store.empty jobs = some s ∧
      runCasePipeline rt (jobs.getLast hne).case (jobs.getLast hne).sources
        (jobs.getLast hne).budget = .ok a ∧
      Exactly s a jobs.length := by
  obtain ⟨s, a, hall, hrun, hexactly⟩ := replaced_run (alone_empty caseId) hne hcase hdistinct
  exact ⟨s, a, hall, hrun, Nat.zero_add jobs.length ▸ hexactly⟩

/-- A run, a run out of tool calls, and a run with another source. -/
def heroJobs : List Job :=
  [{ case := Fixtures.hero, sources := [Fixtures.kogan, Fixtures.accc] },
   { case := Fixtures.hero, sources := [Fixtures.kogan], budget := { maxToolCalls := 0 } },
   { case := Fixtures.hero, sources := [Fixtures.accc] }]

theorem hero_replaced :
    ∃ s a, persistAll (default : Runtime Float) Store.empty heroJobs = some s ∧
      runCasePipeline (default : Runtime Float) (heroJobs.getLast (by decide)).case
        (heroJobs.getLast (by decide)).sources (heroJobs.getLast (by decide)).budget = .ok a ∧
      Exactly s a heroJobs.length :=
  replaced_exactly default "CASE-RET-001" heroJobs (by decide) (by decide) (by decide)

end CaseReplacement
