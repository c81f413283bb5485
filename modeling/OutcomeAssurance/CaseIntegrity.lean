import Mathlib.Algebra.GroupWithZero.Nat
import OutcomeAssurance.CaseViews
import OutcomeAssurance.SourceProvenance

/-! # References between the stored rows

    SQLite does not enforce the foreign keys that `app/orm_models.py` declares,
    and a re-run deletes rows by three mechanisms.  The references resolve all
    the same, in every store that runs and decisions lead to; and the agent runs
    of a case are a tree of one level, whose books agree with the stored steps. -/

namespace CaseIntegrity

open KeyedTable CaseModel PyRuntime Investigation Pipeline CaseStore CaseKeys CaseOwnership
open CaseIsolation CaseQueries CaseViews Runs

variable {R : Type} {rt : Runtime R} {s s' : Store R} {a : CaseArtifacts R}

/-! ## The delegation tree of a run -/

/-- The agent runs of a case, with the steps and handoffs of each: a root, and
    runs that it delegated to. -/
structure Delegation (runs : List AgentRun) (stepsOf : String → List AgentStep)
    (handoffsOf : String → List AgentHandoff) : Prop where
  tree : ∃ root ∈ runs, root.parentRunId = none ∧
    ∀ r ∈ runs, r ≠ root → r.parentRunId = some root.agentRunId
  /-- A handoff leads from its run to a child of it, and names both agents. -/
  handed : ∀ r ∈ runs, ∀ h ∈ handoffsOf r.agentRunId, ∃ child ∈ runs,
    child.agentRunId = h.childRunId ∧ child.parentRunId = some r.agentRunId ∧
      h.fromAgentId = r.agentId ∧ h.toAgentId = child.agentId
  /-- A completed child was handed its task once, and counts its steps. -/
  child : ∀ r ∈ runs, ∀ parent, r.parentRunId = some parent →
    r.terminationStatus = some .completed →
    ((handoffsOf parent).filter fun h => h.childRunId = r.agentRunId).length = 1 ∧
      r.stepsUsed = (stepsOf r.agentRunId).length
  /-- A completed root counts what its children count. -/
  root : ∀ r ∈ runs, r.parentRunId = none → r.terminationStatus = some .completed →
    let children := runs.filter fun child => child.parentRunId = some r.agentRunId
    r.stepsUsed = (children.map AgentRun.stepsUsed).sum ∧
      r.toolCallsUsed = (children.map AgentRun.toolCallsUsed).sum
  /-- What was stopped has taken no step and handed nothing on. -/
  stopped : ∀ r ∈ runs, r.terminationStatus ≠ some .completed →
    stepsOf r.agentRunId = [] ∧ handoffsOf r.agentRunId = []

theorem runId_ne (c : String) {role role' : AgentRole} (h : role ≠ role') :
    runId c role ≠ runId c role' :=
  fun heq => h (runId_inj heq).2

theorem delegation_found (rt : Runtime R) (c : Case) (sources : List Source) (budget : RunBudget) :
    Delegation (foundResult rt c sources budget).agentRuns
      (fun id => (foundResult rt c sources budget).agentSteps.filter fun st => st.agentRunId = id)
      fun id => (foundResult rt c sources budget).agentHandoffs.filter fun h =>
        h.parentRunId = id := by
  have hsr : runId c.caseId .supervisor ≠ runId c.caseId .retrieval := runId_ne _ (by decide)
  have hsc : runId c.caseId .supervisor ≠ runId c.caseId .critic := runId_ne _ (by decide)
  have hrc : runId c.caseId .retrieval ≠ runId c.caseId .critic := runId_ne _ (by decide)
  constructor
  · refine ⟨_, List.mem_cons_self, rfl, ?_⟩
    intro r hr hne
    simp only [foundResult, investigationResult, List.mem_cons, List.not_mem_nil, or_false] at hr
    rcases hr with rfl | rfl | rfl
    · exact absurd rfl hne
    · rfl
    · rfl
  · intro r hr h hh
    obtain ⟨hmem, hparent⟩ := List.mem_filter.mp hh
    have hparent := of_decide_eq_true hparent
    simp only [foundResult, investigationResult, List.mem_cons, List.not_mem_nil, or_false]
      at hr hmem
    -- both handoffs are the supervisor's
    rcases hr with rfl | rfl | rfl
    · rcases hmem with rfl | rfl
      · exact ⟨_, List.mem_cons_of_mem _ List.mem_cons_self, rfl, rfl, rfl, rfl⟩
      · exact ⟨_, List.mem_cons_of_mem _ (List.mem_cons_of_mem _ List.mem_cons_self),
          rfl, rfl, rfl, rfl⟩
    · rcases hmem with rfl | rfl <;> exact absurd hparent hsr
    · rcases hmem with rfl | rfl <;> exact absurd hparent hsc
  · intro r hr parent hparent hstatus
    simp only [foundResult, investigationResult, List.mem_cons, List.not_mem_nil, or_false] at hr
    rcases hr with rfl | rfl | rfl
    · cases hparent
    · obtain rfl := Option.some.inj hparent
      simp [foundResult, investigationResult, delegatedRun, handoff, retrievalStep, criticStep,
        hrc.symm]
    · obtain rfl := Option.some.inj hparent
      simp [foundResult, investigationResult, delegatedRun, handoff, retrievalStep, criticStep,
        hrc]
  · intro r hr hparent hstatus
    simp only [foundResult, investigationResult, List.mem_cons, List.not_mem_nil, or_false] at hr
    rcases hr with rfl | rfl | rfl
    · simp [foundResult, investigationResult, delegatedRun, supervisorRun]
    · cases hparent
    · cases hparent
  · intro r hr hstatus
    simp only [foundResult, investigationResult, List.mem_cons, List.not_mem_nil, or_false] at hr
    rcases hr with rfl | rfl | rfl <;> exact absurd rfl hstatus

theorem delegation_blocked (rt : Runtime R) (c : Case) (left : RunBudget) (e : BudgetExceeded) :
    Delegation (blockedRuns rt c left e) (fun _ => []) fun _ => [] := by
  constructor
  · refine ⟨_, List.mem_cons_self, rfl, ?_⟩
    intro r hr hne
    simp only [blockedRuns, List.mem_cons, List.not_mem_nil, or_false] at hr
    rcases hr with rfl | rfl
    · exact absurd rfl hne
    · rfl
  · intro r hr h hh
    exact absurd hh List.not_mem_nil
  · intro r hr parent hparent hstatus
    simp only [blockedRuns, List.mem_cons, List.not_mem_nil, or_false] at hr
    rcases hr with rfl | rfl <;> cases hstatus
  · intro r hr hparent hstatus
    simp only [blockedRuns, List.mem_cons, List.not_mem_nil, or_false] at hr
    rcases hr with rfl | rfl <;> cases hstatus
  · intro r hr hstatus
    exact ⟨rfl, rfl⟩

/-- **EVERY RUN'S AGENTS ARE A TREE**, however the run ended. -/
theorem delegation_of_run {c : Case} {sources : List Source} {budget : RunBudget}
    (h : runCasePipeline rt c sources budget = .ok a) :
    Delegation a.agentRuns (fun id => a.agentSteps.filter fun st => st.agentRunId = id)
      fun id => a.agentHandoffs.filter fun ho => ho.parentRunId = id := by
  by_cases hspent : budget.Spent
  · rw [run_of_spent hspent] at h
    obtain rfl := Except.ok.inj h
    exact delegation_blocked rt c _ _
  · obtain ⟨report, entries, hrun, -⟩ := run_recorded rt c sources hspent
    obtain rfl := Except.ok.inj (h.symm.trans hrun)
    exact delegation_found rt c sources budget

/-- The agents of a run are registered. -/
theorem agents_of_run {c : Case} {sources : List Source} {budget : RunBudget}
    (h : runCasePipeline rt c sources budget = .ok a) :
    ∀ r ∈ a.agentRuns, ∃ agent ∈ registeredAgents rt, agent.agentId = r.agentId := by
  intro r hr
  by_cases hspent : budget.Spent
  · rw [run_of_spent hspent] at h
    obtain rfl := Except.ok.inj h
    simp only [blockedArtifacts, blockedRuns, List.mem_cons, List.not_mem_nil, or_false] at hr
    rcases hr with rfl | rfl
    · exact ⟨_, List.mem_cons_self, rfl⟩
    · exact ⟨_, List.mem_cons_of_mem _ List.mem_cons_self, rfl⟩
  · obtain ⟨report, entries, hrun, -⟩ := run_recorded rt c sources hspent
    obtain rfl := Except.ok.inj (h.symm.trans hrun)
    simp only [completedArtifacts, foundResult, investigationResult, List.mem_cons,
      List.not_mem_nil, or_false] at hr
    rcases hr with rfl | rfl | rfl
    · exact ⟨_, List.mem_cons_self, rfl⟩
    · exact ⟨_, List.mem_cons_of_mem _ List.mem_cons_self, rfl⟩
    · exact ⟨_, List.mem_cons_of_mem _ (List.mem_cons_of_mem _ List.mem_cons_self), rfl⟩

/-! ## The tree in the store -/

/-- A tree depends on the steps and handoffs of its own runs alone. -/
theorem Delegation.congr {runs : List AgentRun} {stepsOf stepsOf' : String → List AgentStep}
    {handoffsOf handoffsOf' : String → List AgentHandoff}
    (h : Delegation runs stepsOf handoffsOf)
    (hsame : ∀ r ∈ runs, stepsOf' r.agentRunId = stepsOf r.agentRunId ∧
      handoffsOf' r.agentRunId = handoffsOf r.agentRunId) :
    Delegation runs stepsOf' handoffsOf' where
  tree := h.tree
  handed r hr ho hho := h.handed r hr ho ((hsame r hr).2 ▸ hho)
  child r hr parent hparent hstatus := by
    obtain ⟨root, hroot, hnone, hrest⟩ := h.tree
    have hne : r ≠ root := by
      rintro rfl
      cases hnone.symm.trans hparent
    obtain rfl := Option.some.inj ((hrest r hr hne).symm.trans hparent)
    rw [(hsame root hroot).2, (hsame r hr).1]
    exact h.child r hr _ hparent hstatus
  root := h.root
  stopped r hr hstatus := by
    rw [(hsame r hr).1, (hsame r hr).2]
    exact h.stopped r hr hstatus

/-- The agents' rows of a stored case. -/
def DelegationOf (s : Store R) (c : String) : Prop :=
  Delegation (rowsOf s.agentRuns AgentRun.caseId c) (rowsOf s.agentSteps AgentStep.agentRunId)
    (rowsOf s.agentHandoffs AgentHandoff.parentRunId)

theorem delegation_stored (hs : Owned s) (ha : Shaped a) {version : Nat}
    (hshows : Shows s a version)
    (h : Delegation a.agentRuns (fun id => a.agentSteps.filter fun st => st.agentRunId = id)
      fun id => a.agentHandoffs.filter fun ho => ho.parentRunId = id) :
    DelegationOf s a.case.caseId := by
  rw [DelegationOf, hshows.runs]
  refine h.congr fun r hr => ?_
  obtain ⟨-, role, hrole⟩ := ha.runs.1 r hr
  rw [hrole]
  refine ⟨hshows.steps role, ?_⟩
  by_cases hsup : role = .supervisor
  · subst hsup
    rw [hshows.handoffs]
    refine (List.filter_eq_self.mpr fun ho hho => ?_).symm
    exact decide_eq_true (ha.handoffs.1 ho hho).1
  · -- only supervisors hand tasks on
    have hout : ∀ {c : String} {ho : AgentHandoff}, Owns c ho →
        ho.parentRunId ≠ runId a.case.caseId role := by
      intro c ho hown heq
      exact hsup (runId_inj (hown.1.symm.trans heq)).2.symm
    rw [rowsOf_eq_nil fun ho hho => ?_]
    · refine (List.filter_eq_nil_iff.mpr fun ho hho => ?_).symm
      simpa using hout (ha.handoffs.1 ho hho)
    · obtain ⟨c, -, hown⟩ := hs.agentHandoffs ho hho
      exact hout hown

/-! ## Shared rows -/

/-- Sources and agents that stored rows refer to are there. -/
structure Supplied (rt : Runtime R) (s : Store R) : Prop where
  current : Current rt s
  sources : ∀ e ∈ s.evidence.rows, (s.sourceSnapshots.get e.sourceId).isSome
  agents : caseIds s ≠ [] →
    ∀ agent ∈ registeredAgents rt, (s.agentDefinitions.get agent.agentId).isSome

theorem supplied_empty (rt : Runtime R) : Supplied rt (Store.empty : Store R) :=
  ⟨current_empty rt, fun _ he => absurd he List.not_mem_nil, fun h => absurd rfl h⟩

/-- An upserted row is there, and so is what was there before. -/
theorem isSome_of_upsertAll {ρ : Type} [Keyed ρ String] {t t' : Table ρ} {rows : List ρ}
    (h : upsertAll t rows = some t') (k : String) :
    (t'.get k).isSome = true ↔ (t.get k).isSome = true ∨ ∃ r ∈ rows, key r = k := by
  rw [get_of_upsertAll h, Option.isSome_or, Bool.or_eq_true, List.find?_isSome]
  simp only [decide_eq_true_eq]

theorem supplied_persisted (hs : Supplied rt s) {j : Job}
    (hrun : runCasePipeline rt j.case j.sources j.budget = .ok a) (h : Persisted rt s a s') :
    Supplied rt s' where
  current := current_persisted hs.current hrun h
  sources := by
    intro e he
    rw [isSome_of_upsertAll h.sourceSnapshots]
    rw [Table.rows_of_insert h.evidence, List.mem_append] at he
    rcases he with he | he
    · left
      exact hs.sources e ((mem_kept_evidence hs.current.owned).mp he).1
    · right
      obtain ⟨hevidence, hsnapshots⟩ := SourceProvenance.artifacts_of_run hrun
      rw [hevidence] at he
      obtain ⟨x, hx, rfl⟩ := List.mem_map.mp he
      rw [hsnapshots]
      refine ⟨Validation.snapshotOf x, List.mem_map.mpr ⟨x, hx, rfl⟩, ?_⟩
      exact (SourceProvenance.rowOf_sourceId j x).symm
  agents := by
    intro _ agent hagent
    rw [isSome_of_upsertAll h.agentDefinitions]
    exact Or.inr ⟨agent, hagent, rfl⟩

/-- **EACH WRITE** leaves the shared rows that its rows refer to. -/
theorem supplied_write (hs : Supplied rt s) (w : Write) : Supplied rt (write rt s w) := by
  cases w with
  | run j =>
      rw [write, step]
      cases h : j.persist rt s with
      | none => exact hs
      | some s' =>
          obtain ⟨a, hrun, -, hpersisted, -⟩ := persisted_of_persist hs.current.owned h
          exact supplied_persisted hs hrun hpersisted
  | decide req => exact ⟨current_write hs.current (.decide req), hs.sources, hs.agents⟩

theorem supplied_run (rt : Runtime R) (history : List Write) :
    Supplied rt (run (write rt) Store.empty history) := by
  have hstep : ∀ s w, Supplied rt s → Supplied rt (write rt s w) :=
    fun _ w hs => supplied_write hs w
  exact run_invariant hstep (supplied_empty rt) history

/-! ## Every reference -/

/-- The declared foreign keys resolve. -/
structure References (s : Store R) : Prop where
  evidenceCase : ∀ r ∈ s.evidence.rows, (s.cases.get r.caseId).isSome
  evidenceSource : ∀ r ∈ s.evidence.rows, (s.sourceSnapshots.get r.sourceId).isSome
  claimCase : ∀ r ∈ s.claims.rows, (s.cases.get r.caseId).isSome
  authorityCase : ∀ r ∈ s.authorityRecords.rows, (s.cases.get r.caseId).isSome
  reviewCase : ∀ r ∈ s.reviewTasks.rows, (s.cases.get r.caseId).isSome
  outcomeCase : ∀ r ∈ s.outcomes.rows, (s.cases.get r.caseId).isSome
  traceCase : ∀ r ∈ s.traceEvents.rows, (s.cases.get r.caseId).isSome
  runCase : ∀ r ∈ s.agentRuns.rows, (s.cases.get r.caseId).isSome
  runAgent : ∀ r ∈ s.agentRuns.rows, (s.agentDefinitions.get r.agentId).isSome
  runParent : ∀ r ∈ s.agentRuns.rows, ∀ parent, r.parentRunId = some parent →
    (s.agentRuns.get parent).isSome
  stepRun : ∀ r ∈ s.agentSteps.rows, (s.agentRuns.get r.agentRunId).isSome
  handoffParent : ∀ r ∈ s.agentHandoffs.rows, (s.agentRuns.get r.parentRunId).isSome
  handoffChild : ∀ r ∈ s.agentHandoffs.rows, (s.agentRuns.get r.childRunId).isSome
  handoffFrom : ∀ r ∈ s.agentHandoffs.rows, (s.agentDefinitions.get r.fromAgentId).isSome
  handoffTo : ∀ r ∈ s.agentHandoffs.rows, (s.agentDefinitions.get r.toAgentId).isSome
  reportCase : ∀ r ∈ s.guardrailReports.rows, (s.cases.get r.caseId).isSome

/-- A row is found under its key. -/
theorem isSome_get {ρ : Type} [Keyed ρ String] {t : Table ρ} {k : String}
    (h : ∃ r ∈ t.rows, key r = k) : (t.get k).isSome = true := by
  obtain ⟨r, hr, rfl⟩ := h
  rw [Table.get_key hr]
  rfl

theorem isSome_case {c : String} (h : c ∈ caseIds s) : (s.cases.get c).isSome = true :=
  isSome_get (List.mem_map.mp h)

/-- The case of a housed row is stored. -/
theorem isSome_housed {ρ : Type} [Constrained ρ] [CaseRows ρ] {t : Table ρ} {f : ρ → String}
    (h : Housed (caseIds s) t) (hf : ∀ {c r}, Owns c r → f r = c) :
    ∀ r ∈ t.rows, (s.cases.get (f r)).isSome = true := by
  intro r hr
  obtain ⟨c, hc, hown⟩ := h r hr
  exact hf hown ▸ isSome_case hc

/-- A stored agent run, within the tree of its case. -/
theorem tree_of_run (hs : Current rt s) {r : AgentRun} (hr : r ∈ s.agentRuns.rows) :
    r ∈ rowsOf s.agentRuns AgentRun.caseId r.caseId ∧ DelegationOf s r.caseId ∧
      ∃ agent ∈ registeredAgents rt, agent.agentId = r.agentId := by
  obtain ⟨c, hc, hcase, -⟩ := hs.owned.agentRuns r hr
  obtain ⟨j, a, version, hrun, ha, hshows⟩ := hs.shown c hc
  rw [← hcase] at ha
  have hmem : r ∈ rowsOf s.agentRuns AgentRun.caseId r.caseId := mem_rowsOf.mpr ⟨hr, rfl⟩
  refine ⟨hmem, ?_, ?_⟩
  · rw [← ha]
    exact delegation_stored hs.owned (shaped_of_run hrun).1 hshows (delegation_of_run hrun)
  · have hruns := hshows.runs
    rw [ha] at hruns
    rw [hruns] at hmem
    exact agents_of_run hrun r hmem

/-- A stored handoff leads from a stored run to a child of it. -/
theorem runs_of_handoff (hs : Current rt s) {ho : AgentHandoff}
    (hho : ho ∈ s.agentHandoffs.rows) :
    ∃ parent ∈ s.agentRuns.rows, ∃ child ∈ s.agentRuns.rows,
      parent.agentRunId = ho.parentRunId ∧ child.agentRunId = ho.childRunId ∧
      ho.fromAgentId = parent.agentId ∧ ho.toAgentId = child.agentId := by
  obtain ⟨parent, hparent, hid⟩ := hs.owned.handoffRuns ho hho
  obtain ⟨hmem, htree, -⟩ := tree_of_run hs hparent
  obtain ⟨child, hchild, hchildId, -, hfrom, hto⟩ :=
    htree.handed parent hmem ho (mem_rowsOf.mpr ⟨hho, hid.symm⟩)
  exact ⟨parent, hparent, child, (mem_rowsOf.mp hchild).1, hid, hchildId, hfrom, hto⟩

theorem references_of_supplied (hs : Supplied rt s) : References s := by
  have howned := hs.current.owned
  have hagents : ∀ r ∈ s.agentRuns.rows, (s.agentDefinitions.get r.agentId).isSome = true := by
    intro r hr
    obtain ⟨-, -, agent, hagent, hid⟩ := tree_of_run hs.current hr
    obtain ⟨c, hc, -⟩ := howned.agentRuns r hr
    exact hid ▸ hs.agents (List.ne_nil_of_mem hc) agent hagent
  exact {
    evidenceCase := fun r hr => isSome_case (howned.evidence r hr).1
    evidenceSource := hs.sources
    claimCase := isSome_housed howned.claims And.left
    authorityCase := isSome_housed howned.authorityRecords And.left
    reviewCase := isSome_housed howned.reviewTasks And.left
    outcomeCase := isSome_housed howned.outcomes And.left
    traceCase := isSome_housed howned.traceEvents And.left
    runCase := isSome_housed howned.agentRuns And.left
    runAgent := hagents
    runParent := by
      intro r hr parent hparent
      obtain ⟨hmem, htree, -⟩ := tree_of_run hs.current hr
      obtain ⟨root, hroot, hnone, hrest⟩ := htree.tree
      have hne : r ≠ root := by
        rintro rfl
        cases hnone.symm.trans hparent
      obtain rfl := Option.some.inj ((hrest r hmem hne).symm.trans hparent)
      exact isSome_get ⟨root, (mem_rowsOf.mp hroot).1, rfl⟩
    stepRun := fun st hst => isSome_get (howned.stepRuns st hst)
    handoffParent := fun ho hho => isSome_get (howned.handoffRuns ho hho)
    handoffChild := by
      intro ho hho
      obtain ⟨-, -, child, hchild, -, hid, -⟩ := runs_of_handoff hs.current hho
      exact isSome_get ⟨child, hchild, hid⟩
    handoffFrom := by
      intro ho hho
      obtain ⟨parent, hparent, -, -, -, -, hfrom, -⟩ := runs_of_handoff hs.current hho
      exact hfrom ▸ hagents parent hparent
    handoffTo := by
      intro ho hho
      obtain ⟨-, -, child, hchild, -, -, -, hto⟩ := runs_of_handoff hs.current hho
      exact hto ▸ hagents child hchild
    reportCase := isSome_housed howned.guardrailReports And.left }

/-- What the rows of a store refer to, and the trees of its agent runs. -/
structure Sound (s : Store R) : Prop where
  references : References s
  trees : ∀ c ∈ caseIds s, DelegationOf s c

theorem sound_of_supplied (hs : Supplied rt s) : Sound s := by
  refine ⟨references_of_supplied hs, fun c hc => ?_⟩
  obtain ⟨j, a, version, hrun, rfl, hshows⟩ := hs.current.shown c hc
  exact delegation_stored hs.current.owned (shaped_of_run hrun).1 hshows (delegation_of_run hrun)

/-- **NO REFERENCE DANGLES**: in every store that runs of any cases, on any
    sources and budgets, and decisions lead to, also where some are refused,
    each declared foreign key resolves, and the agent runs of each case are a
    tree whose handoffs and step counts agree with the stored rows. -/
theorem references_resolve (rt : Runtime R) (history : List Write) :
    Sound (run (write rt) Store.empty history) :=
  sound_of_supplied (supplied_run rt history)

end CaseIntegrity
