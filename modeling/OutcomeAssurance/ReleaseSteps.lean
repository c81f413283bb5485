import OutcomeAssurance.ReleaseCommit

/-! # What a serial call can do

    `served` is the one place that opens the calls: it lists every way a call
    run on its own can change the tables.  The lifecycle theorems are case
    analyses of `Served`. -/

namespace ReleaseSteps

open KeyedTable Interleaving Runs ReleaseModel ReleaseCommit

/-- The rows `new` overwrite the stored rows of the same ids, the first one
    listed winning, and one audit event is appended. -/
structure Wrote (db db' : Db) (new : List ModelRelease) (e : AuditEvent) : Prop where
  get : ∀ k, db'.releases.get k =
    (new.find? (fun r => r.releaseId = k)).or (db.releases.get k)
  audit : db'.audit.rows = db.audit.rows ++ [e]

/-- The row written first is the row stored. -/
theorem Wrote.get_head {db db' : Db} {r : ModelRelease} {new : List ModelRelease}
    {e : AuditEvent} (hw : Wrote db db' (r :: new) e) :
    db'.releases.get r.releaseId = some r := by
  rw [hw.get]
  simp

/-- A row that is not written reads as before. -/
theorem Wrote.get_other {db db' : Db} {new : List ModelRelease} {e : AuditEvent} {id : String}
    (hw : Wrote db db' new e) (h : ∀ r ∈ new, r.releaseId ≠ id) :
    db'.releases.get id = db.releases.get id := by
  have hnone : new.find? (fun r => decide (r.releaseId = id)) = none := by
    refine List.find?_eq_none.mpr ?_
    intro r hr
    simpa using h r hr
  rw [hw.get, hnone, Option.none_or]

theorem Wrote.get_one {db db' : Db} {r : ModelRelease} {e : AuditEvent}
    (hw : Wrote db db' [r] e) (id : String) :
    db'.releases.get id = if id = r.releaseId then some r else db.releases.get id := by
  by_cases hid : id = r.releaseId
  · rw [if_pos hid, hid, hw.get_head]
  · rw [if_neg hid]
    refine hw.get_other ?_
    intro x hx
    rw [List.mem_singleton.mp hx]
    exact Ne.symm hid

/-- A column that the write leaves alone reads as before in every row. -/
theorem Wrote.column_eq {α : Type} {db db' : Db} {r r' : ModelRelease} {e : AuditEvent}
    (hw : Wrote db db' [r'] e) (hget : db.releases.get r'.releaseId = some r)
    {f : ModelRelease → α} (hf : f r' = f r) (id : String) :
    (db'.releases.get id).map f = (db.releases.get id).map f := by
  rw [hw.get_one]
  by_cases hid : id = r'.releaseId
  · rw [if_pos hid, hid, hget, Option.map_some, Option.map_some, hf]
  · rw [if_neg hid]

/-- The status of a release whose row reads as before. -/
theorem statusOf_of_get {db db' : Db} {id : String}
    (h : db'.releases.get id = db.releases.get id) : statusOf db' id = statusOf db id := by
  rw [statusOf, statusOf]
  rw [h]

section Activation

variable {db db' : Db} {r : ModelRelease} {activatedBy : String} {now : Nat} {e : AuditEvent}
  (hw : Wrote db db'
    (promoted r (getActiveRow db) activatedBy now :: ((getActiveRow db).map demoted).toList) e)

include hw

/-- An activation leaves the rows alone that are neither its own nor ACTIVE. -/
theorem Wrote.activated_other {id : String} (hid : id ≠ r.releaseId)
    (hact : statusOf db id ≠ some .active) : db'.releases.get id = db.releases.get id := by
  refine hw.get_other ?_
  intro x hx
  rcases List.mem_cons.mp hx with rfl | hx
  · exact Ne.symm hid
  · obtain ⟨cur, hcur, rfl⟩ := Option.map_eq_some_iff.mp (Option.mem_toList.mp hx)
    intro heq
    refine hact (statusOf_active.mpr ?_)
    rw [hcur]
    exact congrArg some heq

/-- The row that was ACTIVE before an activation is demoted. -/
theorem Wrote.activated_demoted {c : ModelRelease} (hc : getActiveRow db = some c)
    (hne : c.releaseId ≠ r.releaseId) : db'.releases.get c.releaseId = some (demoted c) := by
  rw [hw.get, hc]
  simp [Ne.symm hne]

end Activation

section Rollback

variable {db db' : Db} {c p : ModelRelease} {activatedBy : String} {now : Nat} {e : AuditEvent}
  (hw : Wrote db db' [restored p activatedBy now, revoked c now] e)

include hw

/-- A rollback leaves the rows alone that it neither revokes nor restores. -/
theorem Wrote.rolledBack_other {id : String} (hidp : id ≠ p.releaseId) (hidc : id ≠ c.releaseId) :
    db'.releases.get id = db.releases.get id := by
  refine hw.get_other ?_
  intro x hx
  rcases List.mem_cons.mp hx with rfl | hx
  · exact Ne.symm hidp
  · rw [List.mem_singleton.mp hx]
    exact Ne.symm hidc

theorem Wrote.rolledBack_revoked (hne : p.releaseId ≠ c.releaseId) :
    db'.releases.get c.releaseId = some (revoked c now) := by
  rw [hw.get]
  simp [hne]

end Rollback

/-- Everything a call run on its own can do. -/
inductive Served (db : Db) : Call → Outcome → Db → Prop where
  /-- A call that raises leaves the tables as they are. -/
  | raised {c : Call} (e : ModelReleaseError) : Served db c (.raised e) db
  /-- A rollback whose key is recorded returns what was recorded. -/
  | replayed {activatedBy key : String} {now : Nat} {e : AuditEvent}
      (hevent : findRollbackEvent db key = some e) :
      Served db (.rollbackActiveRelease activatedBy key now) (returnRelease db e.releaseId) db
  | registered {id model checkpoint config : String} {db' : Db}
      (hnew : db.releases.get id = none)
      (hwrote : Wrote db db' [(registerWork id model checkpoint config).result]
        (registerWork id model checkpoint config).event) :
      Served db (.registerCandidate id model checkpoint config) (.returned id) db'
  | gated {id : String} {backend : String → GenerationOutcome} {r : ModelRelease}
      {reasons : List GateReason} {db' : Db}
      (hget : db.releases.get id = some r)
      (hreasons : gateReasons backend gateSyntheticPrompts = some reasons)
      (hwrote : Wrote db db' [(gateWork r reasons).result] (gateWork r reasons).event) :
      Served db (.runReleaseGate id backend) (.returned id) db'
  | approved {id approvedBy : String} {now : Nat} {r : ModelRelease} {db' : Db}
      (hget : db.releases.get id = some r) (hgate : r.gatePassed = some true)
      (hwrote : Wrote db db' [(approveWork r approvedBy now).result]
        (approveWork r approvedBy now).event) :
      Served db (.approveRelease id approvedBy now) (.returned id) db'
  | activated {id activatedBy : String} {now : Nat} {r : ModelRelease} {db' : Db}
      (hget : db.releases.get id = some r) (hok : activationRefusal r = none)
      (hwrote : Wrote db db'
        (promoted r (getActiveRow db) activatedBy now :: ((getActiveRow db).map demoted).toList)
        (activateWork r (getActiveRow db) activatedBy now).event) :
      Served db (.activateRelease id activatedBy now) (.returned id) db'
  | rolledBack {activatedBy key : String} {now : Nat} {current previous : ModelRelease}
      {previousId : String} {db' : Db}
      (hevent : findRollbackEvent db key = none)
      (hactive : getActiveRow db = some current)
      (hprev : current.previousReleaseId = some previousId)
      (hget : db.releases.get previousId = some previous)
      (hwrote : Wrote db db'
        [restored (if previous.releaseId = current.releaseId then revoked current now
          else previous) activatedBy now, revoked current now]
        (rollbackWork current previous activatedBy key now).event) :
      Served db (.rollbackActiveRelease activatedBy key now) (.returned previousId) db'

/-! ## Commits of what was just read -/

/-- One changed row, written over the row it was loaded from. -/
theorem wrote_of_one {db db' : Db} {w : Work} {r r' : ModelRelease}
    (hget : db.releases.get r.releaseId = some r) (hid : r'.releaseId = r.releaseId)
    (hins : w.inserts = []) (hfl : w.flushes = [(r, r')]) (h : db.commit w = some db') :
    Wrote db db' [r'] w.event := by
  refine ⟨?_, (commit_rows hins h).2⟩
  intro k
  rw [get_of_commit hins h]
  by_cases hk : r'.releaseId = k
  · have hk' : k = r.releaseId := hk.symm.trans hid
    subst hk'
    rw [hget, Option.map_some]
    simp [effect, hfl, rewrite, write_loaded hid, hid]
  · have hnone : [r'].find? (fun r => decide (r.releaseId = k)) = none := by simp [hk]
    rw [hnone, Option.none_or]
    cases hgetk : db.releases.get k with
    | none => rfl
    | some x =>
        have hx : x.releaseId ≠ r.releaseId := by
          rw [id_of_get hgetk, ← hid]
          exact Ne.symm hk
        simp [effect, hfl, rewrite, hx]

/-- Two changed rows of different ids, each written over the row it was loaded
    from. -/
theorem wrote_of_two {db db' : Db} {w : Work} {r r' c c' : ModelRelease}
    (hr : db.releases.get r.releaseId = some r) (hid : r'.releaseId = r.releaseId)
    (hc : db.releases.get c.releaseId = some c) (hcid : c'.releaseId = c.releaseId)
    (hne : c.releaseId ≠ r.releaseId) (hins : w.inserts = [])
    (hfl : w.flushes = [(c, c'), (r, r')]) (h : db.commit w = some db') :
    Wrote db db' [r', c'] w.event := by
  refine ⟨?_, (commit_rows hins h).2⟩
  intro k
  rw [get_of_commit hins h]
  by_cases hk : k = r.releaseId
  · subst hk
    rw [hr, Option.map_some]
    simp [effect, hfl, rewrite, write_loaded hid, hid, Ne.symm hne]
  · by_cases hkc : k = c.releaseId
    · subst hkc
      rw [hc, Option.map_some]
      simp [effect, hfl, rewrite, write_loaded hcid, hid, hcid, hne, Ne.symm hne]
    · have hnone : [r', c'].find? (fun r => decide (r.releaseId = k)) = none := by
        simp [hid, hcid, Ne.symm hk, Ne.symm hkc]
      rw [hnone, Option.none_or]
      cases hgetk : db.releases.get k with
      | none => rfl
      | some x =>
          have hx : x.releaseId = k := id_of_get hgetk
          have hxr : x.releaseId ≠ r.releaseId := fun heq => hk (hx.symm.trans heq)
          have hxc : x.releaseId ≠ c.releaseId := fun heq => hkc (hx.symm.trans heq)
          simp [effect, hfl, rewrite, hxr, hxc]

theorem wrote_of_register {db db' : Db} {id model checkpoint config : String}
    (h : db.commit (registerWork id model checkpoint config) = some db') :
    db.releases.get id = none ∧
      Wrote db db' [(registerWork id model checkpoint config).result]
        (registerWork id model checkpoint config).event := by
  obtain ⟨t, ht, h⟩ := Option.bind_eq_some_iff.mp h
  obtain ⟨db₁, h₁, h⟩ := Option.bind_eq_some_iff.mp h
  obtain ⟨a, ha, h⟩ := Option.bind_eq_some_iff.mp h
  have hdb₁ : { db with releases := t } = db₁ := Option.some.inj h₁
  subst hdb₁
  have hdb' : _ = db' := Option.some.inj h
  subst hdb'
  refine ⟨?_, ?_, Table.rows_of_insert ha⟩
  · refine Table.get_eq_none.mpr ?_
    intro r hr hid
    exact (Table.insert_isSome.mp ⟨t, ht⟩).2 r hr _ List.mem_cons_self (Or.inl hid)
  · intro k
    show t.get k = _
    rw [Table.get_of_insert ht k]
    by_cases hk : k = id
    · subst hk
      simp [registerWork, key_release]
    · simp [registerWork, key_release, hk, Ne.symm hk]

/-! ## The case list -/

theorem activationRefusal_eq_none {r : ModelRelease} :
    activationRefusal r = none ↔
      r.status = .candidate ∧ r.gatePassed = some true ∧ r.approvedBy ≠ none := by
  rw [activationRefusal]
  by_cases h₁ : r.status = .candidate
  · by_cases h₂ : r.gatePassed = some true
    · by_cases h₃ : r.approvedBy = none <;> simp [h₁, h₂, h₃]
    · simp [h₁, h₂]
  · simp [h₁]

/-- A candidate is not the ACTIVE row. -/
theorem ne_active_of_candidate {db : Db} {r c : ModelRelease}
    (hr : db.releases.get r.releaseId = some r) (hs : r.status = .candidate)
    (hc : getActiveRow db = some c) : c.releaseId ≠ r.releaseId := by
  intro heq
  have hrc : c = r := Option.some.inj ((get_of_getActiveRow hc).symm.trans (heq ▸ hr))
  have hact := status_of_getActiveRow hc
  rw [hrc, hs] at hact
  cases hact

theorem wrote_of_activate {db db' : Db} {r : ModelRelease} {activatedBy : String} {now : Nat}
    (hr : db.releases.get r.releaseId = some r) (hok : activationRefusal r = none)
    (h : db.commit (activateWork r (getActiveRow db) activatedBy now) = some db') :
    Wrote db db'
      (promoted r (getActiveRow db) activatedBy now :: ((getActiveRow db).map demoted).toList)
      (activateWork r (getActiveRow db) activatedBy now).event := by
  have hs := (activationRefusal_eq_none.mp hok).1
  cases hc : getActiveRow db with
  | none =>
      rw [hc] at h
      exact wrote_of_one hr rfl rfl rfl h
  | some c =>
      rw [hc] at h
      have hne := ne_active_of_candidate hr hs hc
      have hfl : (activateWork r (some c) activatedBy now).flushes =
          [(c, demoted c), (r, promoted r (some c) activatedBy now)] := by
        simp [activateWork, hne]
      exact wrote_of_two hr rfl (get_of_getActiveRow hc) rfl hne rfl hfl h

theorem wrote_of_rollback {db db' : Db} {current previous : ModelRelease}
    {activatedBy key : String} {now : Nat} (hc : getActiveRow db = some current)
    (hp : db.releases.get previous.releaseId = some previous)
    (h : db.commit (rollbackWork current previous activatedBy key now) = some db') :
    Wrote db db'
      [restored (if previous.releaseId = current.releaseId then revoked current now
        else previous) activatedBy now, revoked current now]
      (rollbackWork current previous activatedBy key now).event := by
  by_cases hself : previous.releaseId = current.releaseId
  · -- a release that points to itself: both writes hit the one row
    have hget := get_of_getActiveRow hc
    refine ⟨?_, (commit_rows rfl h).2⟩
    intro k
    rw [get_of_commit rfl h, if_pos hself]
    by_cases hk : k = current.releaseId
    · subst hk
      rw [hget, Option.map_some]
      have hrev : ModelRelease.write current (revoked current now) current = revoked current now :=
        write_loaded rfl
      have hres : ModelRelease.write (revoked current now)
          (restored (revoked current now) activatedBy now) (revoked current now)
          = restored (revoked current now) activatedBy now := write_loaded rfl
      simp [effect, rollbackWork, rewrite, hself, hrev, hres]
    · have hnone : [restored (revoked current now) activatedBy now, revoked current now].find?
          (fun r => decide (r.releaseId = k)) = none := by
        simp [Ne.symm hk]
      rw [hnone, Option.none_or]
      cases hgetk : db.releases.get k with
      | none => rfl
      | some x =>
          have hx : x.releaseId ≠ current.releaseId := fun heq => hk ((id_of_get hgetk) ▸ heq)
          simp [effect, rollbackWork, rewrite, hself, hx]
  · have hfl : (rollbackWork current previous activatedBy key now).flushes =
        [(current, revoked current now), (previous, restored previous activatedBy now)] := by
      simp [rollbackWork, hself]
    rw [if_neg hself]
    exact wrote_of_two hp rfl (get_of_getActiveRow hc) rfl (Ne.symm hself) rfl hfl h

/-- What a commit that fails reports, and that it leaves the tables. -/
theorem commit_of_none {db : Db} {c : Call} {w : Work} (h : db.commit w = none) :
    c.commit db w = (c.onConflict db, db) := by
  simp only [Call.commit, h]

theorem commit_of_some {db db' : Db} {c : Call} {w : Work} (h : db.commit w = some db') :
    c.commit db w = (.returned w.result.releaseId, db') := by
  simp only [Call.commit, h]

theorem exec_of_inl {db : Db} {c : Call} {o : Outcome} (h : c.read db = .inl o) :
    c.exec db = (o, db) := by
  show lifecycle.alone c db = _
  exact (Txn.step_idle_inl (M := lifecycle) h).2

theorem exec_of_inr {db : Db} {c : Call} {w : Work} (h : c.read db = .inr w) :
    c.exec db = c.commit db w := by
  show lifecycle.alone c db = _
  exact (Txn.step_idle_inr (M := lifecycle) h).2

theorem result_of_activate {r : ModelRelease} {current : Option ModelRelease}
    {activatedBy : String} {now : Nat} :
    (activateWork r current activatedBy now).result.releaseId = r.releaseId := by
  simp only [activateWork]
  cases current with
  | none => rfl
  | some c =>
      show (promoted (if c.releaseId = r.releaseId then demoted r else r) _ _ _).releaseId = _
      split <;> rfl

theorem result_of_rollback {current previous : ModelRelease} {activatedBy key : String}
    {now : Nat} :
    (rollbackWork current previous activatedBy key now).result.releaseId
      = previous.releaseId := by
  show (restored (if previous.releaseId = current.releaseId then _ else _) _ _).releaseId = _
  split
  · next h => exact h.symm
  · rfl

/-- The two rows an activation over a current release writes: the objects of
    the current row and of the release itself. -/
theorem activateWork_flushes (r row : ModelRelease) (activatedBy : String) (now : Nat) :
    ∃ x y, (activateWork r (some row) activatedBy now).flushes
        = [(x, demoted x), (y, promoted y (some x) activatedBy now)] ∧
      (x = row ∨ x = r) ∧ x.releaseId = row.releaseId ∧ (y = r ∨ y = demoted r) := by
  by_cases heq : row.releaseId = r.releaseId
  · exact ⟨r, demoted r, by simp [activateWork, heq], Or.inr rfl, heq.symm, Or.inr rfl⟩
  · exact ⟨row, r, by simp [activateWork, heq], Or.inl rfl, rfl, Or.inl rfl⟩

/-- A conflict is reported as an error, unless it is a rollback that finds its
    key recorded after all. -/
theorem onConflict_raised {db : Db} {c : Call}
    (h : ∀ activatedBy key now, c = .rollbackActiveRelease activatedBy key now →
      findRollbackEvent db key = none) : ∃ e, c.onConflict db = .raised e := by
  cases c with
  | rollbackActiveRelease activatedBy key now =>
      refine ⟨.integrityError, ?_⟩
      simp only [Call.onConflict, h activatedBy key now rfl]
  | activateRelease | registerCandidate | runReleaseGate | approveRelease => exact ⟨_, rfl⟩

/-- The units of work a read can prepare, with what the read has checked. -/
inductive Planned (db : Db) : Call → Work → Prop where
  | register (id model checkpoint config : String) :
      Planned db (.registerCandidate id model checkpoint config)
        (registerWork id model checkpoint config)
  | gate {backend : String → GenerationOutcome} {r : ModelRelease} {reasons : List GateReason}
      (hget : db.releases.get r.releaseId = some r)
      (hreasons : gateReasons backend gateSyntheticPrompts = some reasons) :
      Planned db (.runReleaseGate r.releaseId backend) (gateWork r reasons)
  | approve {approvedBy : String} {now : Nat} {r : ModelRelease}
      (hget : db.releases.get r.releaseId = some r) (hgate : r.gatePassed = some true) :
      Planned db (.approveRelease r.releaseId approvedBy now) (approveWork r approvedBy now)
  | activate {activatedBy : String} {now : Nat} {r : ModelRelease}
      (hget : db.releases.get r.releaseId = some r) (hok : activationRefusal r = none) :
      Planned db (.activateRelease r.releaseId activatedBy now)
        (activateWork r (getActiveRow db) activatedBy now)
  | rollback {activatedBy key : String} {now : Nat} {current previous : ModelRelease}
      (hevent : findRollbackEvent db key = none)
      (hactive : getActiveRow db = some current)
      (hprev : current.previousReleaseId = some previous.releaseId)
      (hget : db.releases.get previous.releaseId = some previous) :
      Planned db (.rollbackActiveRelease activatedBy key now)
        (rollbackWork current previous activatedBy key now)

theorem planned {db : Db} {c : Call} {w : Work} (h : c.read db = .inr w) : Planned db c w := by
  cases c with
  | registerCandidate releaseId modelName checkpointId configHash =>
      rw [← Sum.inr.inj h]
      exact .register releaseId modelName checkpointId configHash
  | runReleaseGate releaseId backend =>
      simp only [Call.read] at h
      split at h
      · cases h
      · next r hget =>
          split at h
          · cases h
          · next reasons hreasons =>
              obtain rfl := id_of_get hget
              rw [← Sum.inr.inj h]
              exact .gate hget hreasons
  | approveRelease releaseId approvedBy now =>
      simp only [Call.read] at h
      split at h
      · cases h
      · next r hget =>
          split at h
          · cases h
          · next hgate =>
              obtain rfl := id_of_get hget
              rw [← Sum.inr.inj h]
              exact .approve hget (not_not.mp hgate)
  | activateRelease releaseId activatedBy now =>
      simp only [Call.read] at h
      split at h
      · cases h
      · next r hget =>
          split at h
          · cases h
          · next hok =>
              obtain rfl := id_of_get hget
              rw [← Sum.inr.inj h]
              exact .activate hget hok
  | rollbackActiveRelease activatedBy key now =>
      simp only [Call.read] at h
      split at h
      · cases h
      · next hevent =>
          split at h
          · cases h
          · next current hactive =>
              split at h
              · cases h
              · next previousId hprev =>
                  split at h
                  · cases h
                  · next previous hget =>
                      obtain rfl := id_of_get hget
                      rw [← Sum.inr.inj h]
                      exact .rollback hevent hactive hprev hget

/-- A read settles a call by an error, or by a rollback its key records. -/
theorem settled {db : Db} {c : Call} {o : Outcome} (h : c.read db = .inl o) :
    (∃ e, o = .raised e) ∨ ∃ activatedBy key now e,
      c = .rollbackActiveRelease activatedBy key now ∧
        findRollbackEvent db key = some e ∧ o = returnRelease db e.releaseId := by
  cases c with
  | registerCandidate releaseId modelName checkpointId configHash => cases h
  | runReleaseGate | approveRelease | activateRelease =>
      simp only [Call.read] at h
      split at h
      · exact Or.inl ⟨_, (Sum.inl.inj h).symm⟩
      · split at h
        · exact Or.inl ⟨_, (Sum.inl.inj h).symm⟩
        · cases h
  | rollbackActiveRelease activatedBy key now =>
      simp only [Call.read] at h
      split at h
      · next e hevent =>
          exact Or.inr ⟨activatedBy, key, now, e, rfl, hevent, (Sum.inl.inj h).symm⟩
      · split at h
        · exact Or.inl ⟨_, (Sum.inl.inj h).symm⟩
        · split at h
          · exact Or.inl ⟨_, (Sum.inl.inj h).symm⟩
          · split at h
            · exact Or.inl ⟨_, (Sum.inl.inj h).symm⟩
            · cases h

/-- **THE CASE LIST OF A SERIAL CALL.** -/
theorem served (db : Db) (c : Call) : Served db c (c.exec db).1 (c.exec db).2 := by
  cases hread : c.read db with
  | inl o =>
      rw [exec_of_inl hread]
      rcases settled hread with ⟨e, rfl⟩ | ⟨activatedBy, key, now, e, rfl, hevent, rfl⟩
      · exact .raised e
      · exact .replayed hevent
  | inr w =>
      rw [exec_of_inr hread]
      have hplan := planned hread
      cases hcommit : db.commit w with
      | none =>
          rw [commit_of_none hcommit]
          have hkey : ∀ activatedBy key now, c = .rollbackActiveRelease activatedBy key now →
              findRollbackEvent db key = none := by
            intro activatedBy key now hc
            subst hc
            cases hplan with
            | rollback hevent _ _ _ => exact hevent
          obtain ⟨e, he⟩ := onConflict_raised hkey
          rw [he]
          exact .raised e
      | some db' =>
          rw [commit_of_some hcommit]
          cases hplan with
          | register id model checkpoint config =>
              obtain ⟨hnew, hwrote⟩ := wrote_of_register hcommit
              exact .registered hnew hwrote
          | gate hget hreasons =>
              exact .gated hget hreasons (wrote_of_one hget rfl rfl rfl hcommit)
          | approve hget hgate =>
              exact .approved hget hgate (wrote_of_one hget rfl rfl rfl hcommit)
          | activate hget hok =>
              rw [result_of_activate]
              exact .activated hget hok (wrote_of_activate hget hok hcommit)
          | rollback hevent hactive hprev hget =>
              rw [result_of_rollback]
              exact .rolledBack hevent hactive hprev hget (wrote_of_rollback hactive hget hcommit)

/-- What the call leaves behind. -/
theorem served_serve (db : Db) (c : Call) : ∃ o, Served db c o (serve db c) := ⟨_, served db c⟩

end ReleaseSteps
