import OutcomeAssurance.Interleaving
import OutcomeAssurance.KeyedTable

/-! # The model-release lifecycle

    `app/model_release.py` over the two tables of `app/orm_models.py` it
    writes.  Each call reads some rows into its own session and then commits
    one unit of work; a unit of work writes the columns it changed, by primary
    key, and is refused as a whole when a uniqueness constraint would break.

    Left out: the random primary key of an audit event (its place in the log
    stands for it), `created_at`, and the foreign keys, which SQLite does not
    enforce.  A clock reading is an argument of the call that takes it. -/

namespace ReleaseModel

open KeyedTable Interleaving Runs

/-! ## Rows and constraints -/

inductive ModelReleaseStatus where
  | candidate | active | superseded | rolledBack
  deriving DecidableEq, Repr

def ModelReleaseStatus.value : ModelReleaseStatus → String
  | .candidate => "CANDIDATE"
  | .active => "ACTIVE"
  | .superseded => "SUPERSEDED"
  | .rolledBack => "ROLLED_BACK"

inductive GateReason where
  | generationFailed | emptyOutput
  deriving DecidableEq, Repr

/-- `ModelReleaseORM`. -/
structure ModelRelease where
  releaseId : String
  modelName : String
  checkpointId : String
  configHash : String
  status : ModelReleaseStatus := .candidate
  previousReleaseId : Option String := none
  gatePassed : Option Bool := none
  gateReasonCodes : List GateReason := []
  approvedBy : Option String := none
  approvedAt : Option Nat := none
  activatedBy : Option String := none
  activatedAt : Option Nat := none
  rolledBackAt : Option Nat := none
  deriving DecidableEq, Repr

/-- Primary key `release_id` and `uq_model_release_single_active`. -/
instance : Keyed ModelRelease String where
  Clash a b := a.releaseId = b.releaseId ∨ (a.status = .active ∧ b.status = .active)
  decClash _ _ := inferInstanceAs (Decidable (_ ∨ _))
  symm h := h.imp Eq.symm And.symm
  key r := r.releaseId
  clash_of_key h := Or.inl h

theorem key_release (r : ModelRelease) : key r = r.releaseId := rfl

inductive AuditEventType where
  | registered | gateRun | approved | activated | rolledBack
  deriving DecidableEq, Repr

/-- The `detail` JSON of an audit event. -/
inductive AuditDetail where
  | empty
  | gate (passed : Bool) (reasonCodes : List GateReason)
  | rolledBackFrom (releaseId : String)
  deriving DecidableEq, Repr

/-- `ModelReleaseAuditEventORM`. -/
structure AuditEvent where
  releaseId : String
  eventType : AuditEventType
  actor : Option String := none
  idempotencyKey : Option String := none
  detail : AuditDetail := .empty
  deriving DecidableEq, Repr

/-- `uq_model_release_audit_events_idempotency_key`; NULL is exempt. -/
instance : Constrained AuditEvent where
  Clash a b := a.idempotencyKey ≠ none ∧ a.idempotencyKey = b.idempotencyKey
  decClash _ _ := inferInstanceAs (Decidable (_ ∧ _))
  symm h := ⟨h.2 ▸ h.1, h.2.symm⟩

/-- The `model_releases` and `model_release_audit_events` tables. -/
@[ext] structure Db where
  releases : Table ModelRelease
  audit : Table AuditEvent
  deriving DecidableEq

def Db.empty : Db := ⟨.empty, .empty⟩

/-! ## Errors -/

inductive ModelReleaseError where
  | releaseNotFound (releaseId : String)
  | releaseNotCandidate (releaseId : String) (status : ModelReleaseStatus)
  | releaseGateNotPassed (releaseId : String)
  | releaseNotApproved (releaseId : String)
  | noActiveRelease
  | noPreviousRelease (releaseId : String)
  | concurrentActivation (releaseId : String)
  /-- An `IntegrityError` of the database that the call does not translate. -/
  | integrityError
  /-- An exception of the model backend that the gate does not catch. -/
  | backendError
  deriving DecidableEq, Repr

def ModelReleaseError.message : ModelReleaseError → String
  | .releaseNotFound id => s!"No ModelRelease with id '{id}'"
  | .releaseNotCandidate id status =>
      s!"ModelRelease '{id}' is '{status.value}', not CANDIDATE — cannot activate"
  | .releaseGateNotPassed id => s!"ModelRelease '{id}' has not passed its release gate"
  | .releaseNotApproved id => s!"ModelRelease '{id}' has not been approved"
  | .noActiveRelease => "There is no active ModelRelease to roll back"
  | .noPreviousRelease id =>
      s!"Active ModelRelease '{id}' has no previous_release_id to roll back to"
  | .concurrentActivation id =>
      s!"Another release was activated concurrently while activating '{id}' — " ++
        "re-check the current active release before retrying"
  | .integrityError => "IntegrityError"
  | .backendError => "backend error"

/-- How a call ends: it returns the release with this id, or it raises. -/
inductive Outcome where
  | returned (releaseId : String)
  | raised (e : ModelReleaseError)
  deriving DecidableEq, Repr

def Outcome.ok : Outcome → Bool
  | .returned _ => true
  | .raised _ => false

/-! ## Queries -/

/-- `_get_active_row`. -/
def getActiveRow (db : Db) : Option ModelRelease :=
  db.releases.rows.find? (fun r => r.status = .active)

/-- `_find_rollback_event`. -/
def findRollbackEvent (db : Db) (idempotencyKey : String) : Option AuditEvent :=
  db.audit.rows.find? (fun e => e.eventType = .rolledBack ∧ e.idempotencyKey = some idempotencyKey)

def statusOf (db : Db) (releaseId : String) : Option ModelReleaseStatus :=
  (db.releases.get releaseId).map (·.status)

def previousOf (db : Db) (releaseId : String) : Option String :=
  (db.releases.get releaseId).bind (·.previousReleaseId)

/-! ## Units of work -/

/-- `UPDATE … SET` of the columns in which `changed` differs from `loaded`,
    applied to the stored row. -/
def ModelRelease.write (loaded changed stored : ModelRelease) : ModelRelease where
  releaseId := stored.releaseId
  modelName := if changed.modelName = loaded.modelName then stored.modelName else changed.modelName
  checkpointId :=
    if changed.checkpointId = loaded.checkpointId then stored.checkpointId
    else changed.checkpointId
  configHash :=
    if changed.configHash = loaded.configHash then stored.configHash else changed.configHash
  status := if changed.status = loaded.status then stored.status else changed.status
  previousReleaseId :=
    if changed.previousReleaseId = loaded.previousReleaseId then stored.previousReleaseId
    else changed.previousReleaseId
  gatePassed :=
    if changed.gatePassed = loaded.gatePassed then stored.gatePassed else changed.gatePassed
  gateReasonCodes :=
    if changed.gateReasonCodes = loaded.gateReasonCodes then stored.gateReasonCodes
    else changed.gateReasonCodes
  approvedBy :=
    if changed.approvedBy = loaded.approvedBy then stored.approvedBy else changed.approvedBy
  approvedAt :=
    if changed.approvedAt = loaded.approvedAt then stored.approvedAt else changed.approvedAt
  activatedBy :=
    if changed.activatedBy = loaded.activatedBy then stored.activatedBy else changed.activatedBy
  activatedAt :=
    if changed.activatedAt = loaded.activatedAt then stored.activatedAt else changed.activatedAt
  rolledBackAt :=
    if changed.rolledBackAt = loaded.rolledBackAt then stored.rolledBackAt
    else changed.rolledBackAt

/-- What a session is about to commit: new rows, changed rows as loaded and as
    changed, in flush order, and the audit event.  `result` is the release the
    call returns. -/
structure Work where
  inserts : List ModelRelease := []
  flushes : List (ModelRelease × ModelRelease) := []
  event : AuditEvent
  result : ModelRelease
  deriving DecidableEq

def Db.flush (db : Db) (u : ModelRelease × ModelRelease) : Option Db :=
  (db.releases.update u.1.releaseId (ModelRelease.write u.1 u.2)).map
    (fun t => { db with releases := t })

/-- `session.commit()`: every statement of the unit of work, or none of them. -/
def Db.commit (db : Db) (w : Work) : Option Db := do
  let releases ← db.releases.insert w.inserts
  let db' ← w.flushes.foldlM Db.flush { db with releases := releases }
  let audit ← db'.audit.insert [w.event]
  return { db' with audit := audit }

/-! ## The release gate -/

/-- How the backend answers one prompt. -/
inductive GenerationOutcome where
  | tokens (ts : List String)
  | transientError
  | permanentError
  | otherError
  deriving DecidableEq, Repr

def gateSyntheticPrompts : List String :=
  ["hello", "please summarise the refund policy", "what is the order status"]

/-- The reason codes the gate collects; `none` when an exception other than the
    two backend errors escapes. -/
def gateReasons (backend : String → GenerationOutcome) : List String → Option (List GateReason)
  | [] => some []
  | prompt :: rest =>
      match backend prompt with
      | .tokens [] => (gateReasons backend rest).map (.emptyOutput :: ·)
      | .tokens (_ :: _) => gateReasons backend rest
      | .transientError => (gateReasons backend rest).map (.generationFailed :: ·)
      | .permanentError => (gateReasons backend rest).map (.generationFailed :: ·)
      | .otherError => none

/-! ## Calls -/

inductive Call where
  | registerCandidate (releaseId modelName checkpointId configHash : String)
  | runReleaseGate (releaseId : String) (backend : String → GenerationOutcome)
  | approveRelease (releaseId approvedBy : String) (now : Nat)
  | activateRelease (releaseId activatedBy : String) (now : Nat)
  | rollbackActiveRelease (activatedBy idempotencyKey : String) (now : Nat)

def registerWork (releaseId modelName checkpointId configHash : String) : Work :=
  let release : ModelRelease := { releaseId, modelName, checkpointId, configHash }
  { inserts := [release]
    event := { releaseId, eventType := .registered }
    result := release }

def gateWork (release : ModelRelease) (reasons : List GateReason) : Work :=
  let gated := { release with
    gatePassed := some reasons.isEmpty
    gateReasonCodes := reasons }
  { flushes := [(release, gated)]
    event := { releaseId := release.releaseId, eventType := .gateRun
               detail := .gate reasons.isEmpty reasons }
    result := gated }

def approveWork (release : ModelRelease) (approvedBy : String) (now : Nat) : Work :=
  let approved := { release with
    approvedBy := some approvedBy
    approvedAt := some now }
  { flushes := [(release, approved)]
    event := { releaseId := release.releaseId, eventType := .approved, actor := some approvedBy }
    result := approved }

/-- The three checks `activate_release` makes on the release it is given. -/
def activationRefusal (release : ModelRelease) : Option ModelReleaseError :=
  if release.status ≠ .candidate then
    some (.releaseNotCandidate release.releaseId release.status)
  else if release.gatePassed ≠ some true then some (.releaseGateNotPassed release.releaseId)
  else if release.approvedBy = none then some (.releaseNotApproved release.releaseId)
  else none

def demoted (current : ModelRelease) : ModelRelease :=
  { current with status := .superseded }

def promoted (release : ModelRelease) (current : Option ModelRelease)
    (activatedBy : String) (now : Nat) : ModelRelease :=
  { release with
    status := .active
    activatedBy := some activatedBy
    activatedAt := some now
    previousReleaseId := current.map (·.releaseId) }

/-- The writes of `activate_release`: the demotion is flushed first.  A session
    holds one object per row, so a current release that is the release itself
    is the object already loaded. -/
def activateWork (release : ModelRelease) (current : Option ModelRelease)
    (activatedBy : String) (now : Nat) : Work :=
  let event : AuditEvent :=
    { releaseId := release.releaseId, eventType := .activated, actor := some activatedBy }
  match current with
  | none =>
      let active := promoted release none activatedBy now
      { flushes := [(release, active)], event, result := active }
  | some row =>
      let cur := if row.releaseId = release.releaseId then release else row
      let base := if row.releaseId = release.releaseId then demoted release else release
      let active := promoted base (some cur) activatedBy now
      { flushes := [(cur, demoted cur), (base, active)], event, result := active }

def revoked (current : ModelRelease) (now : Nat) : ModelRelease :=
  { current with
    status := .rolledBack
    rolledBackAt := some now }

def restored (previous : ModelRelease) (activatedBy : String) (now : Nat) : ModelRelease :=
  { previous with
    status := .active
    activatedBy := some activatedBy
    activatedAt := some now }

@[simp] theorem demoted_releaseId (r : ModelRelease) : (demoted r).releaseId = r.releaseId := rfl

@[simp] theorem promoted_releaseId (r : ModelRelease) (current : Option ModelRelease)
    (activatedBy : String) (now : Nat) :
    (promoted r current activatedBy now).releaseId = r.releaseId := rfl

@[simp] theorem revoked_releaseId (r : ModelRelease) (now : Nat) :
    (revoked r now).releaseId = r.releaseId := rfl

@[simp] theorem restored_releaseId (r : ModelRelease) (activatedBy : String) (now : Nat) :
    (restored r activatedBy now).releaseId = r.releaseId := rfl

@[simp] theorem demoted_previous (r : ModelRelease) :
    (demoted r).previousReleaseId = r.previousReleaseId := rfl

@[simp] theorem promoted_previous (r : ModelRelease) (current : Option ModelRelease)
    (activatedBy : String) (now : Nat) :
    (promoted r current activatedBy now).previousReleaseId = current.map (·.releaseId) := rfl

@[simp] theorem revoked_previous (r : ModelRelease) (now : Nat) :
    (revoked r now).previousReleaseId = r.previousReleaseId := rfl

@[simp] theorem restored_previous (r : ModelRelease) (activatedBy : String) (now : Nat) :
    (restored r activatedBy now).previousReleaseId = r.previousReleaseId := rfl

/-- The writes of `rollback_active_release`, the demotion flushed first. -/
def rollbackWork (current previous : ModelRelease) (activatedBy idempotencyKey : String)
    (now : Nat) : Work :=
  let base := if previous.releaseId = current.releaseId then revoked current now else previous
  let active := restored base activatedBy now
  { flushes := [(current, revoked current now), (base, active)]
    event := { releaseId := previous.releaseId, eventType := .rolledBack
               actor := some activatedBy, idempotencyKey := some idempotencyKey
               detail := .rolledBackFrom current.releaseId }
    result := active }

/-- `get_release`, for a call that returns the release it finds. -/
def returnRelease (db : Db) (releaseId : String) : Outcome :=
  match db.releases.get releaseId with
  | none => .raised (.releaseNotFound releaseId)
  | some r => .returned r.releaseId

/-- Everything a call does before its commit, on the state it sees. -/
def Call.read (db : Db) : Call → Outcome ⊕ Work
  | .registerCandidate releaseId modelName checkpointId configHash =>
      .inr (registerWork releaseId modelName checkpointId configHash)
  | .runReleaseGate releaseId backend =>
      match db.releases.get releaseId with
      | none => .inl (.raised (.releaseNotFound releaseId))
      | some release =>
          match gateReasons backend gateSyntheticPrompts with
          | none => .inl (.raised .backendError)
          | some reasons => .inr (gateWork release reasons)
  | .approveRelease releaseId approvedBy now =>
      match db.releases.get releaseId with
      | none => .inl (.raised (.releaseNotFound releaseId))
      | some release =>
          if release.gatePassed ≠ some true then
            .inl (.raised (.releaseGateNotPassed releaseId))
          else .inr (approveWork release approvedBy now)
  | .activateRelease releaseId activatedBy now =>
      match db.releases.get releaseId with
      | none => .inl (.raised (.releaseNotFound releaseId))
      | some release =>
          match activationRefusal release with
          | some e => .inl (.raised e)
          | none => .inr (activateWork release (getActiveRow db) activatedBy now)
  | .rollbackActiveRelease activatedBy idempotencyKey now =>
      match findRollbackEvent db idempotencyKey with
      | some e => .inl (returnRelease db e.releaseId)
      | none =>
          match getActiveRow db with
          | none => .inl (.raised .noActiveRelease)
          | some current =>
              match current.previousReleaseId with
              | none => .inl (.raised (.noPreviousRelease current.releaseId))
              | some previousId =>
                  match db.releases.get previousId with
                  | none => .inl (.raised (.releaseNotFound previousId))
                  | some previous =>
                      .inr (rollbackWork current previous activatedBy idempotencyKey now)

/-- The `except IntegrityError` branch of a call. -/
def Call.onConflict (db : Db) : Call → Outcome
  | .activateRelease releaseId _ _ => .raised (.concurrentActivation releaseId)
  | .rollbackActiveRelease _ idempotencyKey _ =>
      match findRollbackEvent db idempotencyKey with
      | none => .raised .integrityError
      | some e => returnRelease db e.releaseId
  | _ => .raised .integrityError

/-- The commit of a call and what follows it. -/
def Call.commit (db : Db) (c : Call) (w : Work) : Outcome × Db :=
  match db.commit w with
  | some db' => (.returned w.result.releaseId, db')
  | none => (c.onConflict db, db)

/-- The lifecycle calls as transactions of one read and one commit. -/
def lifecycle : Txn Call Db Work Outcome where
  read c db := c.read db
  commit c w db := c.commit db w

/-- A call run with nothing in between: its outcome and the state it leaves. -/
def Call.exec (db : Db) (c : Call) : Outcome × Db := lifecycle.alone c db

/-- Serial use: one call after another. -/
def serve (db : Db) (c : Call) : Db := (c.exec db).2

end ReleaseModel
