import OutcomeAssurance.ReleaseVetting

/-! # The audit log counts the promotions

    Along a serial history a release is activated at most once and rolled back
    at most once, and the audit log has one event for each: `Logged` ties the
    numbers of events to the statuses. -/

namespace ReleaseLog

open KeyedTable Interleaving Runs PointerStack ReleaseModel ReleaseCommit ReleaseSteps
open ReleaseStack ReleaseLifecycle ReleaseVetting

/-- The event is the activation of the release. -/
def activates (id : String) (e : AuditEvent) : Bool :=
  e.eventType = .activated ∧ e.releaseId = id

/-- The event is the rollback away from the release. -/
def revokes (id : String) (e : AuditEvent) : Bool :=
  e.eventType = .rolledBack ∧ e.detail = .rolledBackFrom id

/-- A release with this status has been activated. -/
def launched : Option ModelReleaseStatus → Bool
  | some .active => true
  | some .superseded => true
  | some .rolledBack => true
  | _ => false

/-- One activation event for each release that has been activated, one rollback
    event for each that has been rolled back, and no other. -/
structure Logged (db : Db) : Prop where
  activations : ∀ id, db.audit.rows.countP (activates id)
    = if launched (statusOf db id) then 1 else 0
  revocations : ∀ id, db.audit.rows.countP (revokes id)
    = if statusOf db id = some .rolledBack then 1 else 0
  /-- Only a release that has been rolled back carries the time of it. -/
  unrevoked : ∀ id r, db.releases.get id = some r → r.status ≠ .rolledBack →
    r.rolledBackAt = none

theorem logged_empty : Logged Db.empty where
  activations _ := rfl
  revocations _ := rfl
  unrevoked _ _ hget := absurd hget.symm (Option.some_ne_none _)

/-- One more event: the statuses change for the release it counts for, and for
    no other in a way that counts. -/
theorem Logged.append {db db' : Db} {e : AuditEvent} (h : Logged db)
    (haudit : db'.audit.rows = db.audit.rows ++ [e])
    (hact : ∀ id, if activates id e = true
      then launched (statusOf db id) = false ∧ launched (statusOf db' id) = true
      else launched (statusOf db' id) = launched (statusOf db id))
    (hrev : ∀ id, if revokes id e = true
      then statusOf db id ≠ some .rolledBack ∧ statusOf db' id = some .rolledBack
      else (statusOf db' id = some .rolledBack ↔ statusOf db id = some .rolledBack))
    (hrows : ∀ id r, db'.releases.get id = some r → r.status ≠ .rolledBack →
      r.rolledBackAt = none) : Logged db' := by
  refine ⟨?_, ?_, hrows⟩
  · intro id
    have hid := hact id
    rw [haudit, List.countP_append, List.countP_singleton, h.activations]
    split at hid
    · next hcounts => rw [hid.1, hid.2, hcounts]; rfl
    · next hcounts => rw [hid, if_neg hcounts, Nat.add_zero]
  · intro id
    have hid := hrev id
    rw [haudit, List.countP_append, List.countP_singleton, h.revocations]
    split at hid
    · next hcounts => rw [if_neg hid.1, if_pos hid.2, hcounts]; rfl
    · next hcounts => rw [if_neg hcounts, Nat.add_zero, if_congr hid rfl rfl]

/-- A write to one row that keeps its status and rollback time. -/
theorem Logged.keep_one {db db' : Db} {r r' : ModelRelease} {e : AuditEvent} (h : Logged db)
    (hw : Wrote db db' [r'] e) (hget : db.releases.get r'.releaseId = some r)
    (hstatus : r'.status = r.status) (hrolled : r'.rolledBackAt = r.rolledBackAt)
    (hact : ∀ id, activates id e = false) (hrev : ∀ id, revokes id e = false) : Logged db' := by
  have hst : ∀ id, statusOf db' id = statusOf db id := hw.column_eq hget hstatus
  refine h.append hw.audit ?_ ?_ ?_
  · intro id
    rw [hact id, hst id]
    rfl
  · intro id
    rw [hrev id, hst id]
    exact Iff.rfl
  intro id x hx hs
  rw [hw.get_one] at hx
  split at hx
  · obtain rfl : r' = x := Option.some.inj hx
    rw [hrolled]
    exact h.unrevoked _ r hget (hstatus ▸ hs)
  · exact h.unrevoked id x hx hs

/-- A registration adds a release that no event counts for. -/
theorem Logged.registered {db db' : Db} {id model checkpoint config : String} (h : Logged db)
    (hnew : db.releases.get id = none)
    (hwrote : Wrote db db' [(registerWork id model checkpoint config).result]
      (registerWork id model checkpoint config).event) : Logged db' := by
  have hst : ∀ x, statusOf db' x = if x = id then some .candidate else statusOf db x := by
    intro x
    rw [statusOf]
    rw [hwrote.get_one]
    show ((if x = id then _ else _) : Option ModelRelease).map _ = _
    split <;> rfl
  have hold : statusOf db id = none := by
    rw [statusOf]
    rw [hnew]
    rfl
  refine h.append hwrote.audit ?_ ?_ ?_
  · intro x
    show launched (statusOf db' x) = launched (statusOf db x)
    rw [hst]
    split
    · next heq =>
        rw [heq, hold]
        rfl
    · rfl
  · intro x
    show statusOf db' x = some .rolledBack ↔ statusOf db x = some .rolledBack
    rw [hst]
    split
    · next heq =>
        rw [heq, hold]
        constructor <;> intro hs <;> cases hs
    · exact Iff.rfl
  · intro x r hr hs
    rw [hwrote.get_one] at hr
    split at hr
    · rw [← Option.some.inj hr]
      rfl
    · exact h.unrevoked x r hr hs

/-! ## Activations -/

/-- The event of an activation counts for the release it activates. -/
theorem activates_activateWork (r : ModelRelease) (cur : Option ModelRelease)
    (activatedBy : String) (now : Nat) (id : String) :
    activates id (activateWork r cur activatedBy now).event = decide (r.releaseId = id) := by
  simp only [activateWork]
  cases cur <;> simp [activates]

theorem revokes_activateWork (r : ModelRelease) (cur : Option ModelRelease)
    (activatedBy : String) (now : Nat) (id : String) :
    revokes id (activateWork r cur activatedBy now).event = false := by
  simp only [activateWork]
  cases cur <;> rfl

section Activation

variable {db db' : Db} {r : ModelRelease} {activatedBy : String} {now : Nat}
  (hwrote : Wrote db db'
    (promoted r (getActiveRow db) activatedBy now :: ((getActiveRow db).map demoted).toList)
    (activateWork r (getActiveRow db) activatedBy now).event)

include hwrote

/-- Besides its own row an activation only makes the ACTIVE one SUPERSEDED. -/
theorem get_of_activation {id : String} (hid : r.releaseId ≠ id) :
    db'.releases.get id = db.releases.get id ∨
      ∃ cur, getActiveRow db = some cur ∧ cur.releaseId = id ∧
        db'.releases.get id = some (demoted cur) := by
  by_cases hact : statusOf db id = some .active
  · obtain ⟨cur, hcur, rfl⟩ := Option.map_eq_some_iff.mp (statusOf_active.mp hact)
    exact Or.inr ⟨cur, hcur, rfl, hwrote.activated_demoted hcur (Ne.symm hid)⟩
  · exact Or.inl (hwrote.activated_other (Ne.symm hid) hact)

theorem statusOf_of_activation {id : String} (hid : r.releaseId ≠ id) :
    statusOf db' id = statusOf db id ∨
      (statusOf db id = some .active ∧ statusOf db' id = some .superseded) := by
  rcases get_of_activation hwrote hid with hsame | ⟨cur, hcur, rfl, hdem⟩
  · exact Or.inl (statusOf_of_get hsame)
  · refine Or.inr ⟨statusOf_active.mpr (by rw [hcur]; rfl), ?_⟩
    exact statusOf_eq_some.mpr ⟨_, hdem, rfl⟩

theorem Logged.activated (h : Logged db) (hget : db.releases.get r.releaseId = some r)
    (hcand : r.status = .candidate) : Logged db' := by
  have hnew : statusOf db' r.releaseId = some .active :=
    statusOf_eq_some.mpr ⟨_, hwrote.get_head, rfl⟩
  have hold : statusOf db r.releaseId = some .candidate := statusOf_eq_some.mpr ⟨r, hget, hcand⟩
  refine h.append hwrote.audit ?_ ?_ ?_
  · intro x
    rw [activates_activateWork]
    by_cases hx : r.releaseId = x
    · subst hx
      rw [if_pos (decide_eq_true rfl), hold, hnew]
      exact ⟨rfl, rfl⟩
    · rw [if_neg (by simp [hx])]
      rcases statusOf_of_activation hwrote hx with hsame | ⟨hact, hsup⟩
      · rw [hsame]
      · rw [hact, hsup]
        rfl
  · intro x
    rw [revokes_activateWork]
    show statusOf db' x = some .rolledBack ↔ statusOf db x = some .rolledBack
    by_cases hx : r.releaseId = x
    · subst hx
      rw [hold, hnew]
      constructor <;> intro hs <;> cases hs
    · rcases statusOf_of_activation hwrote hx with hsame | ⟨hact, hsup⟩
      · rw [hsame]
      · rw [hact, hsup]
        constructor <;> intro hs <;> cases hs
  · intro x y hy hs
    by_cases hx : r.releaseId = x
    · subst hx
      obtain rfl : promoted r (getActiveRow db) activatedBy now = y :=
        Option.some.inj (hwrote.get_head.symm.trans hy)
      exact h.unrevoked _ r hget (by rw [hcand]; decide)
    · rcases get_of_activation hwrote hx with hsame | ⟨cur, hcur, rfl, hdem⟩
      · exact h.unrevoked x y (hsame.symm.trans hy) hs
      · obtain rfl : demoted cur = y := Option.some.inj (hdem.symm.trans hy)
        refine h.unrevoked _ cur (get_of_getActiveRow hcur) ?_
        rw [status_of_getActiveRow hcur]
        intro hs
        cases hs

end Activation

/-! ## Rollbacks -/

theorem revokes_rollbackWork (current previous : ModelRelease) (activatedBy key : String)
    (now : Nat) (id : String) :
    revokes id (rollbackWork current previous activatedBy key now).event
      = decide (current.releaseId = id) := by
  simp [revokes, rollbackWork]

theorem Logged.rolledBack {db db' : Db} {rest : List String} {current previous : ModelRelease}
    {activatedBy key : String} {now : Nat} (h : Logged db)
    (hstk : Stacked db (current.releaseId :: previous.releaseId :: rest))
    (hactive : getActiveRow db = some current)
    (hget : db.releases.get previous.releaseId = some previous)
    (hsup : previous.status = .superseded)
    (hwrote : Wrote db db' [restored previous activatedBy now, revoked current now]
      (rollbackWork current previous activatedBy key now).event) : Logged db' := by
  obtain ⟨-, hpopped, hrestored, hothers⟩ := hstk.pop hget hwrote
  have hcur : statusOf db current.releaseId = some .active :=
    statusOf_active.mpr (by rw [hactive]; rfl)
  have hprevious : statusOf db previous.releaseId = some .superseded :=
    statusOf_eq_some.mpr ⟨previous, hget, hsup⟩
  refine h.append hwrote.audit ?_ ?_ ?_
  · intro x
    show launched (statusOf db' x) = launched (statusOf db x)
    by_cases hxc : x = current.releaseId
    · rw [hxc, hpopped, hcur]
      rfl
    · by_cases hxp : x = previous.releaseId
      · rw [hxp, hrestored, hprevious]
        rfl
      · rw [hothers x hxc hxp]
  · intro x
    rw [revokes_rollbackWork]
    by_cases hxc : current.releaseId = x
    · subst hxc
      rw [if_pos (decide_eq_true rfl), hcur, hpopped]
      exact ⟨(fun hs => by cases hs), rfl⟩
    · rw [if_neg (by simp [hxc])]
      by_cases hxp : x = previous.releaseId
      · rw [hxp, hrestored, hprevious]
        constructor <;> intro hs <;> cases hs
      · rw [hothers x (Ne.symm hxc) hxp]
  · intro x y hy hs
    by_cases hxp : x = previous.releaseId
    · subst hxp
      have hrow := Option.some.inj (hwrote.get_head.symm.trans hy)
      rw [← hrow]
      exact h.unrevoked _ previous hget (by rw [hsup]; decide)
    · by_cases hxc : x = current.releaseId
      · subst hxc
        have hrow := hwrote.rolledBack_revoked (Ne.symm hxp)
        rw [← Option.some.inj (hrow.symm.trans hy)] at hs
        exact absurd rfl hs
      · rw [hwrote.rolledBack_other hxp hxc] at hy
        exact h.unrevoked x y hy hs

/-! ## Every call -/

/-- Every call keeps the log in step with the statuses. -/
theorem logged_step {db : Db} {stk : List String} (hstk : Stacked db stk) (h : Logged db)
    (c : Call) : Logged (serve db c) := by
  obtain ⟨o, hserved⟩ := served_serve db c
  generalize serve db c = db' at hserved ⊢
  cases hserved with
  | raised e => exact h
  | replayed hevent => exact h
  | registered hnew hwrote => exact h.registered hnew hwrote
  | gated hget _ hwrote =>
      obtain rfl := id_of_get hget
      refine h.keep_one hwrote hget rfl rfl (fun _ => rfl) (fun _ => rfl)
  | approved hget _ hwrote =>
      obtain rfl := id_of_get hget
      refine h.keep_one hwrote hget rfl rfl (fun _ => rfl) (fun _ => rfl)
  | activated hget hok hwrote =>
      obtain rfl := id_of_get hget
      exact h.activated hwrote hget (activationRefusal_eq_none.mp hok).1
  | rolledBack hevent hactive hprev hget hwrote =>
      obtain rfl := id_of_get hget
      obtain ⟨hne, hsup⟩ := hstk.below_top hactive hprev hget
      obtain ⟨rest, rfl⟩ := hstk.top_two hactive hprev
      rw [if_neg hne] at hwrote
      exact h.rolledBack hstk hactive hget hsup hwrote

end ReleaseLog
