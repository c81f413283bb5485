import OutcomeAssurance.ReleaseSteps

/-! # Release calls query by query

    The calls of `ReleaseModel`, stopped after every query and every commit.
    `alone_eq_exec` says that a call whose queries nothing comes between does
    what `Call.exec` does. -/

namespace ReleaseQueries

open KeyedTable Interleaving Runs ReleaseModel ReleaseCommit ReleaseSteps

/-- The points between two queries of a call. -/
inductive Pc where
  | start
  /-- The release the call is given has been loaded. -/
  | loaded (release : ModelRelease)
  /-- A rollback has found no event with its key. -/
  | noEvent
  /-- A rollback has found the ACTIVE row and its previous id. -/
  | active (current : ModelRelease) (previousId : String)
  | ready (w : Work)
  /-- The commit of a rollback was refused and undone. -/
  | conflicted
  /-- An event with the key names this release. -/
  | found (releaseId : String)
  /-- Committed, the cache not yet synchronised. -/
  | committed (releaseId : String)
  | finished (o : Outcome)
  deriving DecidableEq

/-- `session.get` of a release the call needs. -/
def load (db : Db) (releaseId : String) : Pc :=
  match db.releases.get releaseId with
  | none => .finished (.raised (.releaseNotFound releaseId))
  | some release => .loaded release

/-- The first query of a call. -/
def Call.begin (db : Db) : Call → Pc
  | .registerCandidate releaseId modelName checkpointId configHash =>
      .ready (registerWork releaseId modelName checkpointId configHash)
  | .runReleaseGate releaseId _ => load db releaseId
  | .approveRelease releaseId _ _ => load db releaseId
  | .activateRelease releaseId _ _ => load db releaseId
  | .rollbackActiveRelease _ idempotencyKey _ =>
      match findRollbackEvent db idempotencyKey with
      | some e => .found e.releaseId
      | none => .noEvent

/-- What follows the loading of the release; an activation that passes its
    checks looks the ACTIVE row up here. -/
def Call.prepare (db : Db) (release : ModelRelease) : Call → Pc
  | .registerCandidate _ _ _ _ => .loaded release
  | .runReleaseGate _ backend =>
      match gateReasons backend gateSyntheticPrompts with
      | none => .finished (.raised .backendError)
      | some reasons => .ready (gateWork release reasons)
  | .approveRelease releaseId approvedBy now =>
      if release.gatePassed ≠ some true then
        .finished (.raised (.releaseGateNotPassed releaseId))
      else .ready (approveWork release approvedBy now)
  | .activateRelease _ activatedBy now =>
      match activationRefusal release with
      | some e => .finished (.raised e)
      | none => .ready (activateWork release (getActiveRow db) activatedBy now)
  | .rollbackActiveRelease _ _ _ => .loaded release

/-- The ACTIVE-row lookup of a rollback. -/
def findActive (db : Db) : Pc :=
  match getActiveRow db with
  | none => .finished (.raised .noActiveRelease)
  | some current =>
      match current.previousReleaseId with
      | none => .finished (.raised (.noPreviousRelease current.releaseId))
      | some previousId => .active current previousId

/-- The previous-row lookup of a rollback.  A session that already holds the
    row does not query for it. -/
def Call.findPrevious (db : Db) (current : ModelRelease) (previousId : String) : Call → Pc
  | .rollbackActiveRelease activatedBy idempotencyKey now =>
      match (if previousId = current.releaseId then some current
        else db.releases.get previousId) with
      | none => .finished (.raised (.releaseNotFound previousId))
      | some previous => .ready (rollbackWork current previous activatedBy idempotencyKey now)
  | _ => .active current previousId

/-- What follows an accepted commit. -/
def Call.afterCommit (w : Work) : Call → Pc
  | .activateRelease _ _ _ => .committed w.result.releaseId
  | .rollbackActiveRelease _ _ _ => .committed w.result.releaseId
  | _ => .finished (.returned w.result.releaseId)

/-- What follows a refused commit. -/
def Call.afterConflict : Call → Pc
  | .activateRelease releaseId _ _ => .finished (.raised (.concurrentActivation releaseId))
  | .rollbackActiveRelease _ _ _ => .conflicted
  | _ => .finished (.raised .integrityError)

/-- The event lookup of a rollback whose commit was refused. -/
def Call.reconcile (db : Db) : Call → Pc
  | .rollbackActiveRelease _ idempotencyKey _ =>
      match findRollbackEvent db idempotencyKey with
      | none => .finished (.raised .integrityError)
      | some e => .found e.releaseId
  | _ => .conflicted

/-- The next query or commit of a call. -/
def Call.step (c : Call) : Pc → Db → Pc × Db
  | .start, db => (Call.begin db c, db)
  | .loaded release, db => (Call.prepare db release c, db)
  | .noEvent, db => (findActive db, db)
  | .active current previousId, db => (Call.findPrevious db current previousId c, db)
  | .ready w, db =>
      match db.commit w with
      | some db' => (Call.afterCommit w c, db')
      | none => (Call.afterConflict c, db)
  | .conflicted, db => (Call.reconcile db c, db)
  | .found releaseId, db => (.finished (returnRelease db releaseId), db)
  | .committed releaseId, db => (.finished (.returned releaseId), db)
  | .finished o, db => (.finished o, db)

/-- A call on its own, `n` steps long. -/
def Call.steps (c : Call) : Nat → Pc → Db → Pc × Db
  | 0, pc, db => (pc, db)
  | n + 1, pc, db => Call.steps c n (Call.step c pc db).1 (Call.step c pc db).2

theorem step_ready_some {c : Call} {w : Work} {db db' : Db} (h : db.commit w = some db') :
    Call.step c (.ready w) db = (Call.afterCommit w c, db') := by
  simp only [Call.step, h]

theorem step_ready_none {c : Call} {w : Work} {db : Db} (h : db.commit w = none) :
    Call.step c (.ready w) db = (Call.afterConflict c, db) := by
  simp only [Call.step, h]

@[simp] theorem steps_finished (c : Call) (n : Nat) (o : Outcome) (db : Db) :
    Call.steps c n (.finished o) db = (.finished o, db) := by
  induction n with
  | zero => rfl
  | succ n ih => exact ih

/-- From its commit on, a call ends as `Call.commit` says. -/
theorem steps_ready (c : Call) (w : Work) (db : Db) (n : Nat) :
    Call.steps c (n + 3) (.ready w) db =
      (.finished (c.commit db w).1, (c.commit db w).2) := by
  show Call.steps c (n + 2) (Call.step c (.ready w) db).1 (Call.step c (.ready w) db).2 = _
  cases hcommit : db.commit w with
  | some db' =>
      rw [step_ready_some hcommit, commit_of_some hcommit]
      cases c with
      | registerCandidate | runReleaseGate | approveRelease | activateRelease
      | rollbackActiveRelease => exact steps_finished _ _ _ _
  | none =>
      rw [step_ready_none hcommit, commit_of_none hcommit]
      cases c with
      | registerCandidate | runReleaseGate | approveRelease | activateRelease =>
          exact steps_finished _ _ _ _
      | rollbackActiveRelease activatedBy key now =>
          show Call.steps (.rollbackActiveRelease activatedBy key now) (n + 1)
              (Call.reconcile db (.rollbackActiveRelease activatedBy key now)) db
            = (.finished (Call.onConflict db (.rollbackActiveRelease activatedBy key now)), db)
          cases hevent : findRollbackEvent db key with
          | none =>
              simp only [Call.reconcile, Call.onConflict, hevent]
              exact steps_finished _ _ _ _
          | some e =>
              simp only [Call.reconcile, Call.onConflict, hevent]
              exact steps_finished _ _ _ _

/-- A call that plans a commit reaches it in at most three steps. -/
theorem steps_planned {c : Call} {db : Db} {w : Work} (h : c.read db = .inr w) :
    ∃ n, Call.steps c 6 .start db = Call.steps c (n + 3) (.ready w) db := by
  cases planned h with
  | register id model checkpoint config => exact ⟨2, rfl⟩
  | gate hget hreasons =>
      refine ⟨1, ?_⟩
      simp only [Call.steps, Call.step, Call.begin, load, hget, Call.prepare, hreasons]
  | approve hget hgate =>
      refine ⟨1, ?_⟩
      simp only [Call.steps, Call.step, Call.begin, load, hget, Call.prepare, hgate, ne_eq,
        not_true_eq_false, if_false]
  | activate hget hok =>
      refine ⟨1, ?_⟩
      simp only [Call.steps, Call.step, Call.begin, load, hget, Call.prepare, hok]
  | @rollback activatedBy key now current previous hevent hactive hprev hget =>
      refine ⟨0, ?_⟩
      have hheld : (if previous.releaseId = current.releaseId then some current
          else db.releases.get previous.releaseId) = some previous := by
        split
        · next heq =>
            rw [heq, get_of_getActiveRow hactive] at hget
            exact hget
        · exact hget
      simp only [Call.steps, Call.step, Call.begin, hevent, findActive, hactive, hprev,
        Call.findPrevious, hheld]

/-- A call that plans no commit ends as its read says. -/
theorem steps_settled {c : Call} {db : Db} {o : Outcome} (h : c.read db = .inl o) :
    Call.steps c 6 .start db = (.finished o, db) := by
  cases c with
  | registerCandidate _ _ _ _ => cases h
  | runReleaseGate releaseId backend =>
      simp only [Call.read] at h
      split at h
      · next hget =>
          rw [← Sum.inl.inj h]
          simp only [Call.steps, Call.step, Call.begin, load, hget]
      · next release hget =>
          split at h
          · next hreasons =>
              rw [← Sum.inl.inj h]
              simp only [Call.steps, Call.step, Call.begin, load, hget, Call.prepare, hreasons]
          · cases h
  | approveRelease releaseId approvedBy now =>
      simp only [Call.read] at h
      split at h
      · next hget =>
          rw [← Sum.inl.inj h]
          simp only [Call.steps, Call.step, Call.begin, load, hget]
      · next release hget =>
          split at h
          · next hgate =>
              rw [← Sum.inl.inj h]
              simp only [Call.steps, Call.step, Call.begin, load, hget, Call.prepare,
                if_pos hgate]
          · cases h
  | activateRelease releaseId activatedBy now =>
      simp only [Call.read] at h
      split at h
      · next hget =>
          rw [← Sum.inl.inj h]
          simp only [Call.steps, Call.step, Call.begin, load, hget]
      · next release hget =>
          split at h
          · next e hrefusal =>
              rw [← Sum.inl.inj h]
              simp only [Call.steps, Call.step, Call.begin, load, hget, Call.prepare, hrefusal]
          · cases h
  | rollbackActiveRelease activatedBy key now =>
      simp only [Call.read] at h
      split at h
      · next e hevent =>
          rw [← Sum.inl.inj h]
          simp only [Call.steps, Call.step, Call.begin, hevent]
      · next hevent =>
          split at h
          · next hactive =>
              rw [← Sum.inl.inj h]
              simp only [Call.steps, Call.step, Call.begin, hevent, findActive, hactive]
          · next current hactive =>
              split at h
              · next hprev =>
                  rw [← Sum.inl.inj h]
                  simp only [Call.steps, Call.step, Call.begin, hevent, findActive, hactive, hprev]
              · next previousId hprev =>
                  split at h
                  · next hget =>
                      -- the row is queried for: it is not the ACTIVE one
                      have hne : previousId ≠ current.releaseId := by
                        rintro rfl
                        cases hget.symm.trans (get_of_getActiveRow hactive)
                      rw [← Sum.inl.inj h]
                      simp only [Call.steps, Call.step, Call.begin, hevent, findActive, hactive,
                        hprev, Call.findPrevious, if_neg hne, hget]
                  · cases h

/-- **REFINEMENT**: a call whose queries nothing comes between ends with the
    outcome and in the tables of `Call.exec`. -/
theorem alone_eq_exec (c : Call) (db : Db) :
    Call.steps c 6 .start db = (.finished (c.exec db).1, (c.exec db).2) := by
  cases hread : c.read db with
  | inl o => rw [exec_of_inl hread, steps_settled hread]
  | inr w =>
      obtain ⟨n, hn⟩ := steps_planned hread
      rw [exec_of_inr hread, hn, steps_ready]

end ReleaseQueries
