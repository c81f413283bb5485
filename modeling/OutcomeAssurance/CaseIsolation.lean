import OutcomeAssurance.CaseOwnership
import OutcomeAssurance.Fixtures
import OutcomeAssurance.Runs

/-! # Cases side by side

    Persisting the run of a new case leaves every stored row alone, if it goes
    through; it goes through exactly when no candidate of the new case has a
    stored evidence row, whichever case that row belongs to. -/

namespace CaseIsolation

open KeyedTable CaseModel PyRuntime Investigation Pipeline CaseStore CaseKeys CaseOwnership Runs

variable {R : Type} {rt : Runtime R} {s s' : Store R} {a : CaseArtifacts R}

/-- A case to run and persist. -/
structure Job where
  case : Case
  sources : List Source
  budget : RunBudget := {}

/-- Run the pipeline and persist what it returns. -/
def Job.persist (rt : Runtime R) (j : Job) (s : Store R) : Option (Store R) :=
  match runCasePipeline rt j.case j.sources j.budget with
  | .error _ => none
  | .ok a => persistCaseRun rt s a

/-- A transaction that aborts leaves the store as it was. -/
def step (rt : Runtime R) (s : Store R) (j : Job) : Store R := (j.persist rt s).getD s

/-- The source ids of the candidates; a run stopped by the budget has none. -/
def Job.candidateIds (j : Job) : List String :=
  if j.budget.Spent then [] else (candidatesOf j.case j.sources).map Source.sourceId

/-! ## Rows that stay -/

/-- Every row of the first store is a row of the second, in its old place. -/
structure Extends (s s' : Store R) : Prop where
  cases : s.cases.rows <+: s'.cases.rows
  sourceSnapshots : s.sourceSnapshots.rows <+: s'.sourceSnapshots.rows
  agentDefinitions : s.agentDefinitions.rows <+: s'.agentDefinitions.rows
  evidence : s.evidence.rows <+: s'.evidence.rows
  claims : s.claims.rows <+: s'.claims.rows
  authorityRecords : s.authorityRecords.rows <+: s'.authorityRecords.rows
  reviewTasks : s.reviewTasks.rows <+: s'.reviewTasks.rows
  outcomes : s.outcomes.rows <+: s'.outcomes.rows
  traceEvents : s.traceEvents.rows <+: s'.traceEvents.rows
  agentRuns : s.agentRuns.rows <+: s'.agentRuns.rows
  agentSteps : s.agentSteps.rows <+: s'.agentSteps.rows
  agentHandoffs : s.agentHandoffs.rows <+: s'.agentHandoffs.rows
  guardrailReports : s.guardrailReports.rows <+: s'.guardrailReports.rows

theorem prefix_of_insert {ρ : Type} [Constrained ρ] {t t' : Table ρ} {rows : List ρ}
    (h : t.insert rows = some t') : t.rows <+: t'.rows :=
  Table.rows_of_insert h ▸ List.prefix_append _ _

theorem prefix_of_upsert {ρ : Type} [Keyed ρ String] {t t' : Table ρ} {rows : List ρ}
    (hkey : ∀ a b : ρ, Clash a b → key a = key b) (h : upsertAll t rows = some t') :
    t.rows <+: t'.rows := by
  obtain ⟨t'', ht'', hpre⟩ := upsertAll_isSome hkey t rows
  rw [ht''] at h
  exact Option.some.inj h ▸ hpre

/-- A new case that is persisted is only added. -/
theorem extends_of_fresh (hfresh : a.case.caseId ∉ caseIds s) (h : Persisted rt s a s') :
    Extends s s' := by
  have hkept := kept_of_fresh hfresh
  obtain ⟨h1, h2, h3, h4, h5, h6, h7, h8, h9, h10, h11, h12, h13⟩ := h
  rw [hkept] at h3 h4 h5 h6 h7 h8 h9 h10 h11 h12 h13
  exact {
    cases := prefix_of_insert h3
    sourceSnapshots := prefix_of_upsert (fun _ _ h => h) h1
    agentDefinitions := prefix_of_upsert (fun _ _ h => h) h2
    evidence := prefix_of_insert h4
    claims := prefix_of_insert h5
    authorityRecords := prefix_of_insert h6
    reviewTasks := prefix_of_insert h7
    outcomes := prefix_of_insert h8
    traceEvents := prefix_of_insert h9
    agentRuns := prefix_of_insert h10
    agentSteps := prefix_of_insert h11
    agentHandoffs := prefix_of_insert h12
    guardrailReports := prefix_of_insert h13 }

/-- The rows of the run are stored. -/
structure Holds (s : Store R) (a : CaseArtifacts R) : Prop where
  case : a.case.caseId ∈ caseIds s
  evidence : a.evidence ⊆ s.evidence.rows
  claims : a.claims ⊆ s.claims.rows
  authority : a.authority ∈ s.authorityRecords.rows
  review : a.review.toList ⊆ s.reviewTasks.rows
  outcome : a.outcome ∈ s.outcomes.rows
  trace : a.traceEvents ⊆ s.traceEvents.rows
  runs : a.agentRuns ⊆ s.agentRuns.rows
  steps : a.agentSteps ⊆ s.agentSteps.rows
  handoffs : a.agentHandoffs ⊆ s.agentHandoffs.rows
  report : a.guardrailReport.toList ⊆ s.guardrailReports.rows

theorem subset_of_insert {ρ : Type} [Constrained ρ] {t t' : Table ρ} {rows : List ρ}
    (h : t.insert rows = some t') : rows ⊆ t'.rows := by
  rw [Table.rows_of_insert h]
  exact List.subset_append_right _ _

theorem holds_persisted (h : Persisted rt s a s') : Holds s' a where
  case := mem_caseIds_persisted h
  evidence := subset_of_insert h.evidence
  claims := subset_of_insert h.claims
  authority := subset_of_insert h.authorityRecords List.mem_cons_self
  review := subset_of_insert h.reviewTasks
  outcome := subset_of_insert h.outcomes List.mem_cons_self
  trace := subset_of_insert h.traceEvents
  runs := subset_of_insert h.agentRuns
  steps := subset_of_insert h.agentSteps
  handoffs := subset_of_insert h.agentHandoffs
  report := subset_of_insert h.guardrailReports

theorem Holds.extend (h : Holds s a) (hext : Extends s s') : Holds s' a where
  case := (hext.cases.map CaseRow.caseId).subset h.case
  evidence := fun _ he => hext.evidence.subset (h.evidence he)
  claims := fun _ hc => hext.claims.subset (h.claims hc)
  authority := hext.authorityRecords.subset h.authority
  review := fun _ hr => hext.reviewTasks.subset (h.review hr)
  outcome := hext.outcomes.subset h.outcome
  trace := fun _ ht => hext.traceEvents.subset (h.trace ht)
  runs := fun _ hr => hext.agentRuns.subset (h.runs hr)
  steps := fun _ hst => hext.agentSteps.subset (h.steps hst)
  handoffs := fun _ hh => hext.agentHandoffs.subset (h.handoffs hh)
  report := fun _ hr => hext.guardrailReports.subset (h.report hr)

/-! ## One new case -/

/-- The evidence of a run is that of its candidates. -/
theorem evidence_of_run {j : Job} (h : runCasePipeline rt j.case j.sources j.budget = .ok a) :
    a.evidence.map Evidence.sourceId = j.candidateIds := by
  by_cases hspent : j.budget.Spent
  · rw [run_of_spent hspent] at h
    obtain rfl := Except.ok.inj h
    rw [Job.candidateIds, if_pos hspent]
    rfl
  · obtain ⟨review, report, entries, hrun, -⟩ := run_of_left rt j.case j.sources hspent
    rw [hrun] at h
    obtain rfl := Except.ok.inj h
    rw [Job.candidateIds, if_neg hspent]
    show (runEvidence rt j.case j.sources).map _ = _
    rw [runEvidence, List.map_map]
    exact List.map_congr_left (fun s _ => Validation.settled_sourceId _ _ s)

theorem candidateIds_nodup {j : Job} (h : (j.sources.map Source.sourceId).Nodup) :
    j.candidateIds.Nodup := by
  rw [Job.candidateIds]
  split
  · exact List.nodup_nil
  · exact h.sublist (List.filter_sublist.map _)

/-- Evidence of different sources does not clash. -/
theorem evidence_unclashed {j : Job}
    (hrun : runCasePipeline rt j.case j.sources j.budget = .ok a)
    (hdistinct : (j.sources.map Source.sourceId).Nodup) :
    a.evidence.Pairwise fun e e' => ¬ Clash e e' := by
  obtain ⟨hshaped, -⟩ := shaped_of_run hrun
  have hnodup := candidateIds_nodup hdistinct
  rw [← evidence_of_run hrun] at hnodup
  refine (List.pairwise_map.mp hnodup).imp_of_mem ?_
  intro e e' he he' hne hclash
  have hclash : e.evidenceId = e'.evidenceId := hclash
  rw [(hshaped.evidence e he).2, (hshaped.evidence e' he').2] at hclash
  exact hne ((String.append_right_inj _).mp hclash)

/-- No stored evidence row is of one of the job's candidates. -/
def NoneStored (s : Store R) (j : Job) : Prop :=
  ∀ e ∈ s.evidence.rows, e.sourceId ∉ j.candidateIds

/-- Every run of the pipeline ends, so a job is persisted or refused by the
    store. -/
theorem persist_eq (rt : Runtime R) (j : Job) :
    ∃ a, runCasePipeline rt j.case j.sources j.budget = .ok a ∧
      ∀ s, j.persist rt s = persistCaseRun rt s a := by
  obtain ⟨a, hrun⟩ : ∃ a, runCasePipeline rt j.case j.sources j.budget = .ok a := by
    by_cases hspent : j.budget.Spent
    · exact ⟨_, run_of_spent hspent⟩
    · obtain ⟨review, report, entries, hrun, -⟩ := run_of_left rt j.case j.sources hspent
      exact ⟨_, hrun⟩
  refine ⟨a, hrun, fun s => ?_⟩
  rw [Job.persist, hrun]

/-- A new case goes through exactly when none of its candidates has a stored
    evidence row. -/
theorem persist_fresh_iff (rt : Runtime R) {j : Job} (hs : Owned s)
    (hfresh : j.case.caseId ∉ caseIds s)
    (hdistinct : (j.sources.map Source.sourceId).Nodup) :
    (∃ s', j.persist rt s = some s') ↔ NoneStored s j := by
  obtain ⟨a, hrun, hpersist⟩ := persist_eq rt j
  obtain ⟨hshaped, hcase⟩ := shaped_of_run hrun
  have hids := evidence_of_run hrun
  rw [hpersist, persist_isSome hs hshaped, kept_of_fresh (by rwa [hcase]), Table.insert_isSome]
  constructor
  · rintro ⟨-, hclash⟩ e he hmem
    rw [← hids] at hmem
    obtain ⟨e', he', hid⟩ := List.mem_map.mp hmem
    refine hclash e he e' he' ?_
    show e.evidenceId = e'.evidenceId
    rw [(hs.evidence e he).2, (hshaped.evidence e' he').2, hid]
  · intro hnone
    constructor
    · exact evidence_unclashed hrun hdistinct
    · intro e he e' he' hclash
      have hclash : e.evidenceId = e'.evidenceId := hclash
      rw [(hs.evidence e he).2, (hshaped.evidence e' he').2] at hclash
      refine hnone e he ?_
      rw [(String.append_right_inj _).mp hclash, ← hids]
      exact List.mem_map.mpr ⟨e', he', rfl⟩

/-- What a job that goes through leaves behind. -/
theorem persisted_of_persist {j : Job} (hs : Owned s) (h : j.persist rt s = some s') :
    ∃ a, runCasePipeline rt j.case j.sources j.budget = .ok a ∧ a.case = j.case ∧
      Persisted rt s a s' ∧ Owned s' := by
  obtain ⟨a, hrun, hpersist⟩ := persist_eq rt j
  obtain ⟨hshaped, hcase⟩ := shaped_of_run hrun
  rw [hpersist] at h
  have hpersisted := (persisted_iff hshaped).mp h
  exact ⟨a, hrun, hcase, hpersisted, owned_persisted hs hshaped hpersisted⟩

theorem owned_step (hs : Owned s) (j : Job) : Owned (step rt s j) := by
  rw [step]
  cases h : j.persist rt s with
  | none => exact hs
  | some s' =>
      obtain ⟨-, -, -, -, howned⟩ := persisted_of_persist hs h
      exact howned

/-! ## Many new cases -/

/-- The two cases have no candidate source in common. -/
def Apart (j k : Job) : Prop := ∀ id ∈ j.candidateIds, id ∉ k.candidateIds

instance (j k : Job) : Decidable (Apart j k) :=
  inferInstanceAs (Decidable (∀ id ∈ j.candidateIds, id ∉ k.candidateIds))

/-- All jobs persisted, in order, from a store on. -/
def persistAll (rt : Runtime R) (s : Store R) (jobs : List Job) : Option (Store R) :=
  jobs.foldlM (fun s j => j.persist rt s) s

/-- All jobs go through, and in the end the rows of each are stored. -/
def SideBySide (rt : Runtime R) (s : Store R) (jobs : List Job) : Prop :=
  ∃ s', persistAll rt s jobs = some s' ∧ Extends s s' ∧ ∀ j ∈ jobs, ∃ a,
    runCasePipeline rt j.case j.sources j.budget = .ok a ∧ Holds s' a

theorem Extends.refl (s : Store R) : Extends s s :=
  ⟨List.prefix_rfl, List.prefix_rfl, List.prefix_rfl, List.prefix_rfl, List.prefix_rfl,
    List.prefix_rfl, List.prefix_rfl, List.prefix_rfl, List.prefix_rfl, List.prefix_rfl,
    List.prefix_rfl, List.prefix_rfl, List.prefix_rfl⟩

theorem Extends.trans {s'' : Store R} (h : Extends s s') (h' : Extends s' s'') :
    Extends s s'' :=
  ⟨h.1.trans h'.1, h.2.trans h'.2, h.3.trans h'.3, h.4.trans h'.4, h.5.trans h'.5,
    h.6.trans h'.6, h.7.trans h'.7, h.8.trans h'.8, h.9.trans h'.9, h.10.trans h'.10,
    h.11.trans h'.11, h.12.trans h'.12, h.13.trans h'.13⟩

/-- What is left to check for a later case once `j` is stored. -/
theorem noneStored_after {j k : Job} (hfresh : j.case.caseId ∉ caseIds s)
    (hrun : runCasePipeline rt j.case j.sources j.budget = .ok a) (hcase : a.case = j.case)
    (h : Persisted rt s a s') : NoneStored s' k ↔ NoneStored s k ∧ Apart j k := by
  have hkept : kept s a = s := kept_of_fresh (by rwa [hcase])
  have hrows : s'.evidence.rows = s.evidence.rows ++ a.evidence := by
    rw [Table.rows_of_insert h.evidence, hkept]
  rw [NoneStored, NoneStored, Apart, hrows, List.forall_mem_append, ← evidence_of_run hrun,
    List.forall_mem_map]

theorem fresh_after {j k : Job} (hfresh : j.case.caseId ∉ caseIds s) (hcase : a.case = j.case)
    (h : Persisted rt s a s') (hk : k.case.caseId ∉ caseIds s)
    (hne : j.case.caseId ≠ k.case.caseId) : k.case.caseId ∉ caseIds s' := by
  rw [caseIds_persisted h, kept_of_fresh (by rwa [hcase]), hcase, List.mem_append,
    List.mem_singleton]
  rintro (hmem | heq)
  · exact hk hmem
  · exact hne heq.symm

theorem persistAll_cons {j : Job} {jobs : List Job} (h : j.persist rt s = some s') :
    persistAll rt s (j :: jobs) = persistAll rt s' jobs := by
  rw [persistAll, List.foldlM_cons, h]
  rfl

/-- New cases that go through leave the store's rows and each other's alone. -/
theorem holds_of_persistAll {jobs : List Job} (hs : Owned s)
    (hfresh : ∀ j ∈ jobs, j.case.caseId ∉ caseIds s)
    (hids : (jobs.map fun j => j.case.caseId).Nodup) (h : persistAll rt s jobs = some s') :
    Extends s s' ∧ ∀ j ∈ jobs, ∃ a,
      runCasePipeline rt j.case j.sources j.budget = .ok a ∧ Holds s' a := by
  induction jobs generalizing s with
  | nil =>
      obtain rfl := Option.some.inj h
      exact ⟨Extends.refl s, fun j hj => absurd hj List.not_mem_nil⟩
  | cons j jobs ih =>
      obtain ⟨hout, hids⟩ := List.nodup_cons.mp hids
      obtain ⟨hfreshj, hfresh⟩ := List.forall_mem_cons.mp hfresh
      cases hpersist : j.persist rt s with
      | none =>
          rw [persistAll, List.foldlM_cons, hpersist] at h
          cases h
      | some s₁ =>
          obtain ⟨a, hrun, hcase, hpersisted, howned⟩ := persisted_of_persist hs hpersist
          rw [persistAll_cons hpersist] at h
          have hfresh₁ : ∀ k ∈ jobs, k.case.caseId ∉ caseIds s₁ := by
            intro k hk
            refine fresh_after hfreshj hcase hpersisted (hfresh k hk) fun heq => hout ?_
            exact List.mem_map.mpr ⟨k, hk, heq.symm⟩
          obtain ⟨hext, hholds⟩ := ih howned hfresh₁ hids h
          refine ⟨(extends_of_fresh (by rwa [hcase]) hpersisted).trans hext, ?_⟩
          refine List.forall_mem_cons.mpr ⟨⟨a, hrun, ?_⟩, hholds⟩
          exact (holds_persisted hpersisted).extend hext

/-- New cases go through together exactly when none of their candidates has a
    stored evidence row and no two of them share a candidate. -/
theorem persistAll_iff (rt : Runtime R) {jobs : List Job} (hs : Owned s)
    (hfresh : ∀ j ∈ jobs, j.case.caseId ∉ caseIds s)
    (hids : (jobs.map fun j => j.case.caseId).Nodup)
    (hdistinct : ∀ j ∈ jobs, (j.sources.map Source.sourceId).Nodup) :
    (∃ s', persistAll rt s jobs = some s') ↔
      (∀ j ∈ jobs, NoneStored s j) ∧ jobs.Pairwise Apart := by
  induction jobs generalizing s with
  | nil =>
      constructor
      · intro _
        exact ⟨fun j hj => absurd hj List.not_mem_nil, List.Pairwise.nil⟩
      · intro _
        exact ⟨s, rfl⟩
  | cons j jobs ih =>
      obtain ⟨hout, hids⟩ := List.nodup_cons.mp hids
      obtain ⟨hfreshj, hfresh⟩ := List.forall_mem_cons.mp hfresh
      obtain ⟨hdistinctj, hdistinct⟩ := List.forall_mem_cons.mp hdistinct
      have hj := persist_fresh_iff rt hs hfreshj hdistinctj
      rw [List.forall_mem_cons, List.pairwise_cons, ← hj]
      cases hpersist : j.persist rt s with
      | none =>
          constructor
          · rintro ⟨s'', hall⟩
            rw [persistAll, List.foldlM_cons, hpersist] at hall
            cases hall
          · rintro ⟨⟨⟨s', hnone⟩, -⟩, -⟩
            cases hnone
      | some s' =>
          obtain ⟨a, hrun, hcase, hpersisted, howned⟩ := persisted_of_persist hs hpersist
          have hfresh' : ∀ k ∈ jobs, k.case.caseId ∉ caseIds s' := by
            intro k hk
            refine fresh_after hfreshj hcase hpersisted (hfresh k hk) fun heq => hout ?_
            exact List.mem_map.mpr ⟨k, hk, heq.symm⟩
          -- what the first job leaves behind is where the others start
          have hafter : (∀ k ∈ jobs, NoneStored s' k) ↔
              (∀ k ∈ jobs, NoneStored s k) ∧ ∀ k ∈ jobs, Apart j k := by
            rw [← forall₂_and]
            exact forall₂_congr fun k _ => noneStored_after hfreshj hrun hcase hpersisted
          rw [persistAll_cons hpersist, ih howned hfresh' hids hdistinct, hafter]
          constructor
          · rintro ⟨⟨hnones, hapart⟩, hpairwise⟩
            exact ⟨⟨⟨s', rfl⟩, hnones⟩, hapart, hpairwise⟩
          · rintro ⟨⟨-, hnones⟩, hapart, hpairwise⟩
            exact ⟨⟨hnones, hapart⟩, hpairwise⟩

theorem sideBySide_iff {jobs : List Job} (hs : Owned s)
    (hfresh : ∀ j ∈ jobs, j.case.caseId ∉ caseIds s)
    (hids : (jobs.map fun j => j.case.caseId).Nodup)
    (hdistinct : ∀ j ∈ jobs, (j.sources.map Source.sourceId).Nodup) :
    SideBySide rt s jobs ↔ (∀ j ∈ jobs, NoneStored s j) ∧ jobs.Pairwise Apart := by
  rw [← persistAll_iff rt hs hfresh hids hdistinct]
  constructor
  · rintro ⟨s', hall, -⟩
    exact ⟨s', hall⟩
  · rintro ⟨s', hall⟩
    exact ⟨s', hall, holds_of_persistAll hs hfresh hids hall⟩

/-! ## The stores of persisted runs -/

theorem owned_run (rt : Runtime R) (history : List Job) :
    Owned (run (step rt) Store.empty history) := by
  have hstep : ∀ s j, Owned s → Owned (step rt s j) := fun _ j hs => owned_step hs j
  exact run_invariant hstep owned_empty history

theorem persist_extends_iff (rt : Runtime R) {j : Job} (hs : Owned s)
    (hfresh : j.case.caseId ∉ caseIds s) (hdistinct : (j.sources.map Source.sourceId).Nodup) :
    (∃ s', j.persist rt s = some s' ∧ Extends s s') ↔ NoneStored s j := by
  rw [← persist_fresh_iff rt hs hfresh hdistinct]
  constructor
  · rintro ⟨s', hpersist, -⟩
    exact ⟨s', hpersist⟩
  · rintro ⟨s', hpersist⟩
    obtain ⟨a, -, hcase, hpersisted, -⟩ := persisted_of_persist hs hpersist
    exact ⟨s', hpersist, extends_of_fresh (by rwa [hcase]) hpersisted⟩

theorem noneStored_empty (j : Job) : NoneStored (Store.empty : Store R) j :=
  fun _ he => absurd he List.not_mem_nil

theorem Apart.symm {j k : Job} (h : Apart j k) : Apart k j := fun id hk hj => h id hj hk

/-- The order of the cases does not matter. -/
theorem sideBySide_perm_iff (rt : Runtime R) {jobs order : List Job} (horder : order.Perm jobs)
    (hids : (jobs.map fun j => j.case.caseId).Nodup)
    (hdistinct : ∀ j ∈ jobs, (j.sources.map Source.sourceId).Nodup) :
    SideBySide rt Store.empty order ↔ jobs.Pairwise Apart := by
  have hids' : (order.map fun j => j.case.caseId).Nodup := (horder.map _).nodup_iff.mpr hids
  rw [sideBySide_iff owned_empty (fun _ _ => List.not_mem_nil) hids'
    fun j hj => hdistinct j (horder.mem_iff.mp hj), horder.pairwise_iff Apart.symm]
  exact and_iff_right fun j _ => noneStored_empty j

/-- **CASES SHARE NO CANDIDATE**: over any history of persisted runs, a new
    case goes through, with every stored row left alone, exactly when none of
    its candidates has a stored evidence row; new cases can be stored side by
    side, in whichever order, exactly when no two of them share a candidate. -/
theorem isolated_iff (rt : Runtime R) :
    (∀ (history : List Job) (j : Job),
      j.case.caseId ∉ caseIds (run (step rt) Store.empty history) →
      (j.sources.map Source.sourceId).Nodup →
      ((∃ s', j.persist rt (run (step rt) Store.empty history) = some s' ∧
          Extends (run (step rt) Store.empty history) s') ↔
        NoneStored (run (step rt) Store.empty history) j)) ∧
    ∀ jobs order : List Job, order.Perm jobs → (jobs.map fun j => j.case.caseId).Nodup →
      (∀ j ∈ jobs, (j.sources.map Source.sourceId).Nodup) →
      (SideBySide rt Store.empty order ↔ jobs.Pairwise Apart) := by
  constructor
  · intro history j hfresh hdistinct
    exact persist_extends_iff rt (owned_run rt history) hfresh hdistinct
  · intro jobs order horder hids hdistinct
    exact sideBySide_perm_iff rt horder hids hdistinct

/-- The hero case, run on the retailer's policy alone. -/
def policyJob : Job := ⟨Fixtures.hero, [Fixtures.kogan], {}⟩

/-- The case of the major fault, run on the fault report alone. -/
def faultJob : Job := ⟨Fixtures.majorFaultCase, [Fixtures.faultMajor], {}⟩

/-- The two have different sources: either is stored first, the other next to it. -/
theorem policy_fault_isolated :
    (∃ s', policyJob.persist (default : Runtime Float) Store.empty = some s' ∧
        Extends Store.empty s') ∧
      SideBySide (default : Runtime Float) Store.empty [faultJob, policyJob] := by
  constructor
  · exact ((isolated_iff default).1 [] policyJob List.not_mem_nil (by decide)).mpr
      (noneStored_empty policyJob)
  · have hapart : [policyJob, faultJob].Pairwise Apart := by decide
    exact ((isolated_iff default).2 [policyJob, faultJob] [faultJob, policyJob]
      (List.Perm.swap _ _ _) (by decide) (by decide)).mpr hapart

/-- The shipped case of the hero with its shipped sources. -/
def heroJob : Job := ⟨Fixtures.hero, [Fixtures.kogan, Fixtures.accc], {}⟩

/-- The shipped case of the major fault with its shipped sources. -/
def majorFaultJob : Job :=
  ⟨Fixtures.majorFaultCase, [Fixtures.kogan, Fixtures.accc, Fixtures.faultMajor], {}⟩

/-- Once the hero case is stored, that of the major fault is refused: both cite
    the retailer's policy. -/
theorem shared_policy_refused :
    majorFaultJob.case.caseId ∉
        caseIds (run (step (default : Runtime Float)) Store.empty [heroJob]) ∧
      (majorFaultJob.sources.map Source.sourceId).Nodup ∧
      majorFaultJob.persist default
        (run (step (default : Runtime Float)) Store.empty [heroJob]) = none := by
  obtain ⟨s', hpersist⟩ := (persist_fresh_iff (default : Runtime Float) (j := heroJob)
    owned_empty List.not_mem_nil (by decide)).mpr (noneStored_empty heroJob)
  obtain ⟨a, hrun, hcase, hpersisted, howned⟩ := persisted_of_persist owned_empty hpersist
  have hstep : run (step (default : Runtime Float)) Store.empty [heroJob] = s' := by
    rw [run_cons, run_nil, step, hpersist]
    rfl
  have hfresh : majorFaultJob.case.caseId ∉ caseIds s' :=
    fresh_after List.not_mem_nil hcase hpersisted List.not_mem_nil (by decide)
  have hdistinct : (majorFaultJob.sources.map Source.sourceId).Nodup := by decide
  refine ⟨by rwa [hstep], hdistinct, ?_⟩
  rw [hstep, Option.eq_none_iff_forall_ne_some]
  intro s'' hrefused
  have hnone := (persist_fresh_iff default howned hfresh hdistinct).mp ⟨s'', hrefused⟩
  have hapart : Apart heroJob majorFaultJob :=
    ((noneStored_after List.not_mem_nil hrun hcase hpersisted).mp hnone).2
  exact absurd hapart (by decide)

end CaseIsolation
