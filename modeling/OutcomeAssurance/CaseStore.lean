import OutcomeAssurance.KeyedTable
import OutcomeAssurance.Pipeline

/-! # The case store

    `app/persistence.py` over the tables of `app/orm_models.py`.  A run is
    persisted in one transaction: shared rows are upserted, the rows of an
    earlier run of the case are deleted, and the new rows inserted; a violated
    key or unique constraint aborts it.  SQLite enforces no foreign keys, and
    the deletes follow the declared relationships. -/

namespace CaseStore

open KeyedTable CaseModel PyRuntime Investigation Pipeline
open ReviewModel (ReviewTask)

variable {R : Type}

/-! ## Constraints -/

/-- `CaseORM`. -/
structure CaseRow where
  caseId : String
  asOf : Instant
  orderRef : String
  sellerRef : String
  productRef : String
  riskBand : String
  status : String
  sourceRefs : List String
  stateVersion : Nat
  deriving DecidableEq, Repr

/-- A row type with a primary key and no other constraint. -/
abbrev keyedBy {ρ : Type} (f : ρ → String) : Keyed ρ String where
  Clash a b := f a = f b
  decClash _ _ := inferInstanceAs (Decidable (_ = _))
  symm h := Eq.symm h
  key := f
  clash_of_key h := h

/-- A row type with a primary key and one unique constraint. -/
abbrev keyedAndUnique {ρ υ : Type} [DecidableEq υ] (f : ρ → String) (u : ρ → υ) :
    Keyed ρ String where
  Clash a b := f a = f b ∨ u a = u b
  decClash _ _ := inferInstanceAs (Decidable (_ ∨ _))
  symm h := h.imp Eq.symm Eq.symm
  key := f
  clash_of_key h := Or.inl h

instance : Keyed CaseRow String := keyedBy CaseRow.caseId

/-- The unique pair of source id and version adds nothing to the key. -/
instance : Keyed SourceSnapshot String := keyedBy SourceSnapshot.sourceId

instance : Keyed AgentDefinition String := keyedBy AgentDefinition.agentId

instance : Keyed (Evidence R) String := keyedBy Evidence.evidenceId

instance : Keyed Claim String :=
  keyedAndUnique Claim.claimId fun c => (c.caseId, c.claimType)

instance : Keyed AuthorityRecord String := keyedBy AuthorityRecord.authorityId

instance : Keyed Outcome String :=
  keyedAndUnique Outcome.outcomeId fun o => (o.caseId, o.attemptId)

instance : Keyed TraceEvent String :=
  keyedAndUnique TraceEvent.traceId fun t => (t.caseId, t.sequence)

instance : Keyed AgentRun String := keyedBy AgentRun.agentRunId

instance : Keyed AgentStep String :=
  keyedAndUnique AgentStep.stepId fun s => (s.agentRunId, s.sequence)

instance : Keyed AgentHandoff String :=
  keyedAndUnique AgentHandoff.handoffId AgentHandoff.childRunId

instance : Keyed (GuardrailReport R) String := keyedBy GuardrailReport.reportId

/-! ## The store -/

structure Store (R : Type) where
  cases : Table CaseRow
  sourceSnapshots : Table SourceSnapshot
  agentDefinitions : Table AgentDefinition
  evidence : Table (Evidence R)
  claims : Table Claim
  authorityRecords : Table AuthorityRecord
  reviewTasks : Table ReviewTask
  outcomes : Table Outcome
  traceEvents : Table TraceEvent
  agentRuns : Table AgentRun
  agentSteps : Table AgentStep
  agentHandoffs : Table AgentHandoff
  guardrailReports : Table (GuardrailReport R)

/-- A database with its tables created. -/
def Store.empty : Store R :=
  ⟨.empty, .empty, .empty, .empty, .empty, .empty, .empty, .empty, .empty, .empty, .empty, .empty,
    .empty⟩

/-- `session.get(CaseORM, case_id)`. -/
def Store.getCase (s : Store R) (caseId : String) : Option CaseRow := s.cases.get caseId

/-- The ids of the runs of a case. -/
def Store.runIds (s : Store R) (caseId : String) : List String :=
  (s.agentRuns.rows.filter fun r => r.caseId = caseId).map AgentRun.agentRunId

/-- The rows of a case deleted: its children, the steps of its runs, and the
    handoffs that one of its runs made. -/
def Store.withoutCase (s : Store R) (caseId : String) : Store R where
  cases := s.cases.delete fun r => r.caseId = caseId
  sourceSnapshots := s.sourceSnapshots
  agentDefinitions := s.agentDefinitions
  evidence := s.evidence.delete fun r => r.caseId = caseId
  claims := s.claims.delete fun r => r.caseId = caseId
  authorityRecords := s.authorityRecords.delete fun r => r.caseId = caseId
  reviewTasks := s.reviewTasks.delete fun r => r.caseId = caseId
  outcomes := s.outcomes.delete fun r => r.caseId = caseId
  traceEvents := s.traceEvents.delete fun r => r.caseId = caseId
  agentRuns := s.agentRuns.delete fun r => r.caseId = caseId
  agentSteps := s.agentSteps.delete fun r => r.agentRunId ∈ s.runIds caseId
  agentHandoffs := s.agentHandoffs.delete fun r => r.parentRunId ∈ s.runIds caseId
  guardrailReports := s.guardrailReports.delete fun r => r.caseId = caseId

/-- `_replace_existing_case`, with the next `state_version`. -/
def Store.replaceExistingCase (s : Store R) (caseId : String) : Store R × Nat :=
  match s.getCase caseId with
  | none => (s, 1)
  | some existing => (s.withoutCase caseId, existing.stateVersion + 1)

/-! ## Persisting a run -/

/-- `INSERT … ON CONFLICT DO NOTHING`, row by row. -/
def upsertAll {ρ : Type} [Keyed ρ String] (t : Table ρ) (rows : List ρ) : Option (Table ρ) :=
  rows.foldlM Table.insertOrIgnore t

theorem upsertAll_isSome {ρ : Type} [Keyed ρ String]
    (hkey : ∀ a b : ρ, Clash a b → key a = key b) (t : Table ρ) (rows : List ρ) :
    ∃ t', upsertAll t rows = some t' ∧ t.rows <+: t'.rows := by
  induction rows generalizing t with
  | nil => exact ⟨t, rfl, List.prefix_rfl⟩
  | cons r rows ih =>
      obtain ⟨t', ht', hpre⟩ := Table.insertOrIgnore_isSome hkey t r
      obtain ⟨t'', ht'', hpre'⟩ := ih t'
      refine ⟨t'', ?_, hpre.trans hpre'⟩
      show Option.bind (t.insertOrIgnore r) _ = _
      rw [ht']
      exact ht''

/-- The first row with a key stays, in the table or in what is added to it. -/
theorem get_of_upsertAll {ρ : Type} [Keyed ρ String] {t t' : Table ρ} {rows : List ρ}
    (h : upsertAll t rows = some t') (k : String) :
    t'.get k = (t.get k).or (rows.find? fun r => key r = k) := by
  induction rows generalizing t with
  | nil =>
      obtain rfl := Option.some.inj h
      rw [List.find?_nil, Option.or_none]
  | cons r rows ih =>
      rw [upsertAll, List.foldlM_cons] at h
      obtain ⟨t₁, hfirst, hrest⟩ := Option.bind_eq_some_iff.mp h
      rw [ih hrest, Table.get_of_insertOrIgnore hfirst, Option.or_assoc, List.find?_cons]
      by_cases hk : key r = k
      · rw [if_pos hk, decide_eq_true hk, Option.some_or]
      · rw [if_neg hk, decide_eq_false hk, Option.none_or]

def caseRow (a : CaseArtifacts R) (stateVersion : Nat) : CaseRow where
  caseId := a.case.caseId
  asOf := a.case.asOf
  orderRef := a.case.orderRef
  sellerRef := a.case.sellerRef
  productRef := a.case.productRef
  riskBand := a.case.riskBand
  status := a.terminationStatus.value
  sourceRefs := a.case.sourceRefs
  stateVersion := stateVersion

variable (rt : Runtime R)

/-- `persist_case_run`: the children are stored under the id of the case. -/
def persistCaseRun (s : Store R) (a : CaseArtifacts R) : Option (Store R) := do
  let caseId := a.case.caseId
  let sourceSnapshots ← upsertAll s.sourceSnapshots a.snapshots
  let agentDefinitions ← upsertAll s.agentDefinitions (registeredAgents rt)
  -- from here on the rows of an earlier run are gone
  let (kept, stateVersion) := s.replaceExistingCase caseId
  let cases ← kept.cases.insert [caseRow a stateVersion]
  let evidence ← kept.evidence.insert (a.evidence.map fun e => { e with caseId := caseId })
  let claims ← kept.claims.insert (a.claims.map fun c => { c with caseId := caseId })
  let authorityRecords ← kept.authorityRecords.insert [{ a.authority with caseId := caseId }]
  let reviewTasks ← kept.reviewTasks.insert
    (a.review.toList.map fun r => { r with caseId := caseId })
  let outcomes ← kept.outcomes.insert [{ a.outcome with caseId := caseId }]
  let traceEvents ← kept.traceEvents.insert
    (a.traceEvents.map fun t => { t with caseId := caseId })
  -- the check constraint of the table
  guard (a.agentRuns.all fun r => r.stage = "INVESTIGATE")
  let agentRuns ← kept.agentRuns.insert (a.agentRuns.map fun r => { r with caseId := caseId })
  let agentSteps ← kept.agentSteps.insert a.agentSteps
  let agentHandoffs ← kept.agentHandoffs.insert a.agentHandoffs
  let guardrailReports ← kept.guardrailReports.insert
    (a.guardrailReport.toList.map fun r => { r with caseId := caseId })
  return ⟨cases, sourceSnapshots, agentDefinitions, evidence, claims, authorityRecords,
    reviewTasks, outcomes, traceEvents, agentRuns, agentSteps, agentHandoffs, guardrailReports⟩

end CaseStore
