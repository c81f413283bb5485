import Mathlib.Data.List.Nodup
import Mathlib.Data.List.Perm.Subperm
import OutcomeAssurance.PointerStack
import OutcomeAssurance.ReleaseSteps

/-! # The release lifecycle is a stack

    The releases that have been activated and not rolled back form a stack:
    the ACTIVE release on top, the SUPERSEDED ones below, each pointing to the
    one under it by `previous_release_id`.  `Stacked` is the invariant that
    links the pointers to the statuses; `stacked_step` says that each call is
    one stack operation. -/

namespace ReleaseStack

open KeyedTable Interleaving Runs PointerStack ReleaseModel ReleaseCommit ReleaseSteps

/-- The releases met from the ACTIVE one down `previous_release_id`. -/
def stackOf (db : Db) : List String :=
  match getActiveRow db with
  | none => []
  | some r => follow (previousOf db) db.releases.rows.length r.releaseId

/-- The tables hold the stack `stk`. -/
structure Stacked (db : Db) (stk : List String) : Prop where
  nodup : stk.Nodup
  threads : Threads (previousOf db) stk
  active : ∀ id, statusOf db id = some .active ↔ stk.head? = some id
  superseded : ∀ id, statusOf db id = some .superseded ↔ id ∈ stk.tail

theorem stacked_empty : Stacked Db.empty [] := by
  refine ⟨List.nodup_nil, trivial, ?_, ?_⟩
  · intro id
    constructor <;> intro hs <;> cases hs
  · intro id
    constructor <;> intro hs <;> cases hs

section Stacked

variable {db : Db} {stk : List String}

/-- The ACTIVE row is the top of the stack. -/
theorem Stacked.head (h : Stacked db stk) : (getActiveRow db).map (·.releaseId) = stk.head? := by
  apply Option.ext
  intro id
  rw [← h.active id]
  exact statusOf_active.symm

theorem Stacked.status_of_mem (h : Stacked db stk) {id : String} (hid : id ∈ stk) :
    statusOf db id = some .active ∨ statusOf db id = some .superseded := by
  cases stk with
  | nil => cases hid
  | cons x rest =>
      rcases List.mem_cons.mp hid with rfl | hrest
      · exact Or.inl ((h.active id).mpr rfl)
      · exact Or.inr ((h.superseded id).mpr hrest)

/-- A release with any other status is not on the stack. -/
theorem Stacked.not_mem (h : Stacked db stk) {id : String} {st : Option ModelReleaseStatus}
    (hst : statusOf db id = st) (ha : st ≠ some .active) (hs : st ≠ some .superseded) :
    id ∉ stk := by
  intro hid
  rcases h.status_of_mem hid with hact | hsup
  · exact ha (hst ▸ hact)
  · exact hs (hst ▸ hsup)

theorem Stacked.length_le (h : Stacked db stk) : stk.length ≤ db.releases.rows.length := by
  have hsub : stk ⊆ db.releases.rows.map (·.releaseId) := by
    intro id hid
    have hrow : ∃ r, db.releases.get id = some r := by
      rcases h.status_of_mem hid with hst | hst
      · obtain ⟨r, hr, -⟩ := statusOf_eq_some.mp hst
        exact ⟨r, hr⟩
      · obtain ⟨r, hr, -⟩ := statusOf_eq_some.mp hst
        exact ⟨r, hr⟩
    obtain ⟨r, hr⟩ := hrow
    exact List.mem_map.mpr ⟨r, Table.mem_of_get hr, id_of_get hr⟩
  have hlen := (List.Nodup.subperm h.nodup hsub).length_le
  rwa [List.length_map] at hlen

/-- Following the pointers from the ACTIVE release reads the stack. -/
theorem Stacked.stackOf_eq (h : Stacked db stk) : stackOf db = stk := by
  have hhead := h.head
  rw [stackOf]
  cases hact : getActiveRow db with
  | none =>
      rw [hact, Option.map_none] at hhead
      exact (List.head?_eq_none_iff.mp hhead.symm).symm
  | some r =>
      rw [hact, Option.map_some] at hhead
      cases stk with
      | nil => cases hhead
      | cons x rest =>
          have hx : r.releaseId = x := Option.some.inj hhead
          subst hx
          have hlen := h.length_le
          exact h.threads.follow_eq (Nat.lt_of_succ_le hlen)

/-- Steps that change no pointer and no status, apart from adding a candidate,
    keep the stack. -/
theorem Stacked.keep (h : Stacked db stk) {db' : Db}
    (hst : ∀ id, statusOf db' id = statusOf db id ∨
      (statusOf db id = none ∧ statusOf db' id = some .candidate))
    (hprev : ∀ id ∈ stk, previousOf db' id = previousOf db id) : Stacked db' stk := by
  refine ⟨h.nodup, (threads_congr hprev).mpr h.threads, ?_, ?_⟩
  · intro id
    rw [← h.active id]
    rcases hst id with heq | ⟨hnone, hcand⟩
    · rw [heq]
    · rw [hnone, hcand]
      constructor <;> intro hs <;> cases hs
  · intro id
    rw [← h.superseded id]
    rcases hst id with heq | ⟨hnone, hcand⟩
    · rw [heq]
    · rw [hnone, hcand]
      constructor <;> intro hs <;> cases hs

/-- A write that leaves the status and the pointer of its row keeps the stack. -/
theorem Stacked.keep_of_wrote (h : Stacked db stk) {db' : Db} {r r' : ModelRelease}
    {e : AuditEvent} (hw : Wrote db db' [r'] e) (hget : db.releases.get r'.releaseId = some r)
    (hstatus : r'.status = r.status) (hprev : r'.previousReleaseId = r.previousReleaseId) :
    Stacked db' stk := by
  refine h.keep ?_ ?_
  · intro id
    exact Or.inl (hw.column_eq hget hstatus id)
  · intro id _
    rw [previousOf_eq_join, previousOf_eq_join, hw.column_eq hget hprev id]

/-- Below the top lies what is on the stack and is not the top. -/
theorem mem_tail_iff {id : String} (h : stk.head? ≠ some id) : id ∈ stk.tail ↔ id ∈ stk := by
  cases stk with
  | nil => exact Iff.rfl
  | cons x rest =>
      have hne : id ≠ x := fun heq => h (congrArg some heq.symm)
      rw [List.tail_cons, List.mem_cons]
      exact (or_iff_right hne).symm

section Push

variable (h : Stacked db stk) {db' : Db} {r : ModelRelease} {activatedBy : String} {now : Nat}
  {e : AuditEvent} (hw : Wrote db db'
    (promoted r (getActiveRow db) activatedBy now :: ((getActiveRow db).map demoted).toList) e)

include h hw

/-- The release on top before an activation is demoted. -/
theorem Stacked.top_demoted {id : String} (hid : id ≠ r.releaseId) (htop : stk.head? = some id) :
    ∃ c, db.releases.get id = some c ∧ db'.releases.get id = some (demoted c) := by
  rw [← h.head] at htop
  obtain ⟨c, hc, rfl⟩ := Option.map_eq_some_iff.mp htop
  exact ⟨c, get_of_getActiveRow hc, hw.activated_demoted hc hid⟩

/-- Every other row but its own an activation leaves alone. -/
theorem Stacked.others_kept {id : String} (hid : id ≠ r.releaseId) (htop : stk.head? ≠ some id) :
    db'.releases.get id = db.releases.get id :=
  hw.activated_other hid (mt (h.active id).mp htop)

/-- **PUSH**: activation puts its release on top of the stack. -/
theorem Stacked.push (hget : db.releases.get r.releaseId = some r)
    (hcand : r.status = .candidate) : Stacked db' (r.releaseId :: stk) := by
  have hnew : r.releaseId ∉ stk := by
    refine h.not_mem (statusOf_eq_some.mpr ⟨r, hget, hcand⟩) ?_ ?_ <;> (intro hs; cases hs)
  have hr := hw.get_head
  have hact : statusOf db' r.releaseId = some .active := statusOf_eq_some.mpr ⟨_, hr, rfl⟩
  have hdemoted : ∀ id, id ≠ r.releaseId → stk.head? = some id →
      statusOf db' id = some .superseded := by
    intro id hid htop
    obtain ⟨c, -, hc'⟩ := h.top_demoted hw hid htop
    exact statusOf_eq_some.mpr ⟨_, hc', rfl⟩
  have hkept : ∀ id, id ≠ r.releaseId → stk.head? ≠ some id → statusOf db' id = statusOf db id :=
    fun id hid htop => statusOf_of_get (h.others_kept hw hid htop)
  have hprev : ∀ id ∈ stk, previousOf db' id = previousOf db id := by
    intro id hmem
    have hid : id ≠ r.releaseId := fun heq => hnew (heq ▸ hmem)
    rw [previousOf, previousOf]
    by_cases htop : stk.head? = some id
    · obtain ⟨c, hc, hc'⟩ := h.top_demoted hw hid htop
      rw [hc, hc']
      rfl
    · rw [h.others_kept hw hid htop]
  refine ⟨List.nodup_cons.mpr ⟨hnew, h.nodup⟩, h.threads.push ?_ hprev, ?_, ?_⟩
  · rw [← h.head]
    show (db'.releases.get (promoted r (getActiveRow db) activatedBy now).releaseId).bind _ = _
    rw [hr]
    rfl
  · intro id
    rw [List.head?_cons, Option.some.injEq]
    by_cases hid : id = r.releaseId
    · rw [hid]
      exact iff_of_true hact rfl
    · refine iff_of_false ?_ (Ne.symm hid)
      by_cases htop : stk.head? = some id
      · rw [hdemoted id hid htop]
        intro hs
        cases hs
      · rw [hkept id hid htop]
        exact mt (h.active id).mp htop
  · intro id
    rw [List.tail_cons]
    by_cases hid : id = r.releaseId
    · rw [hid, hact]
      exact iff_of_false (fun hs => by cases hs) hnew
    · by_cases htop : stk.head? = some id
      · exact iff_of_true (hdemoted id hid htop) (List.mem_of_mem_head? htop)
      · rw [hkept id hid htop, h.superseded id]
        exact mem_tail_iff htop

end Push

/-- The ACTIVE row is on top and points to what lies below it. -/
theorem Stacked.active_on_top (h : Stacked db stk) {c : ModelRelease}
    (hc : getActiveRow db = some c) :
    ∃ rest, stk = c.releaseId :: rest ∧ c.previousReleaseId = rest.head? := by
  have hhead := h.head
  rw [hc, Option.map_some] at hhead
  cases stk with
  | nil => cases hhead
  | cons x rest =>
      obtain rfl : c.releaseId = x := Option.some.inj hhead
      have hthread : previousOf db c.releaseId = rest.head? := h.threads.1
      rw [previousOf] at hthread
      rw [get_of_getActiveRow hc, Option.bind_some] at hthread
      exact ⟨rest, rfl, hthread⟩

/-- A rollback finds the two topmost releases of the stack. -/
theorem Stacked.top_two (h : Stacked db stk) {c p : ModelRelease}
    (hc : getActiveRow db = some c) (hprev : c.previousReleaseId = some p.releaseId) :
    ∃ rest, stk = c.releaseId :: p.releaseId :: rest := by
  obtain ⟨below, rfl, hbelow⟩ := h.active_on_top hc
  rw [hprev] at hbelow
  cases below with
  | nil => cases hbelow
  | cons y rest =>
      obtain rfl : p.releaseId = y := Option.some.inj hbelow
      exact ⟨rest, rfl⟩

/-- What the ACTIVE row points to is another release, and SUPERSEDED. -/
theorem Stacked.below_top (h : Stacked db stk) {c p : ModelRelease}
    (hc : getActiveRow db = some c) (hprev : c.previousReleaseId = some p.releaseId)
    (hp : db.releases.get p.releaseId = some p) :
    p.releaseId ≠ c.releaseId ∧ p.status = .superseded := by
  obtain ⟨rest, rfl⟩ := h.top_two hc hprev
  constructor
  · intro heq
    refine (List.nodup_cons.mp h.nodup).1 ?_
    rw [← heq]
    exact List.mem_cons_self
  · have hsup := (h.superseded p.releaseId).mpr List.mem_cons_self
    obtain ⟨x, hx, hxs⟩ := statusOf_eq_some.mp hsup
    rwa [Option.some.inj (hp.symm.trans hx)]

/-- **POP**: a rollback takes the top release off the stack. -/
theorem Stacked.pop {rest : List String} {c p : ModelRelease}
    (h : Stacked db (c.releaseId :: p.releaseId :: rest)) {db' : Db}
    {activatedBy : String} {now : Nat} {e : AuditEvent}
    (hp : db.releases.get p.releaseId = some p)
    (hw : Wrote db db' [restored p activatedBy now, revoked c now] e) :
    Stacked db' (p.releaseId :: rest) ∧
      statusOf db' c.releaseId = some .rolledBack ∧
      statusOf db' p.releaseId = some .active ∧
      ∀ id, id ≠ c.releaseId → id ≠ p.releaseId → statusOf db' id = statusOf db id := by
  have hne : p.releaseId ≠ c.releaseId := by
    intro heq
    have hmem := (List.nodup_cons.mp h.nodup).1
    rw [← heq] at hmem
    exact hmem List.mem_cons_self
  have hp' := hw.get_head
  rw [restored_releaseId] at hp'
  have hc' := hw.rolledBack_revoked hne
  have hstc : statusOf db' c.releaseId = some .rolledBack := statusOf_eq_some.mpr ⟨_, hc', rfl⟩
  have hstp : statusOf db' p.releaseId = some .active := statusOf_eq_some.mpr ⟨_, hp', rfl⟩
  have hst : ∀ id, id ≠ c.releaseId → id ≠ p.releaseId → statusOf db' id = statusOf db id :=
    fun id hidc hidp => statusOf_of_get (hw.rolledBack_other hidp hidc)
  have hprev : ∀ id ∈ p.releaseId :: rest, previousOf db' id = previousOf db id := by
    intro id hid
    have hidc : id ≠ c.releaseId := by
      intro heq
      exact (List.nodup_cons.mp h.nodup).1 (heq ▸ hid)
    rw [previousOf, previousOf]
    by_cases hidp : id = p.releaseId
    · rw [hidp, hp', hp]
      rfl
    · rw [hw.rolledBack_other hidp hidc]
  have hnodup := (List.nodup_cons.mp h.nodup).2
  refine ⟨⟨hnodup, (threads_congr hprev).mpr h.threads.pop, ?_, ?_⟩, hstc, hstp, hst⟩
  · intro id
    rw [List.head?_cons, Option.some.injEq]
    by_cases hidp : id = p.releaseId
    · subst hidp
      exact iff_of_true hstp rfl
    · refine iff_of_false ?_ (Ne.symm hidp)
      intro hact
      by_cases hidc : id = c.releaseId
      · rw [hidc, hstc] at hact
        cases hact
      · rw [hst id hidc hidp, h.active id] at hact
        exact hidc (Option.some.inj hact).symm
  · intro id
    rw [List.tail_cons]
    by_cases hidp : id = p.releaseId
    · subst hidp
      refine iff_of_false ?_ (List.nodup_cons.mp hnodup).1
      rw [hstp]
      intro hs
      cases hs
    · by_cases hidc : id = c.releaseId
      · subst hidc
        refine iff_of_false ?_ ?_
        · rw [hstc]
          intro hs
          cases hs
        · exact fun hmem => (List.nodup_cons.mp h.nodup).1 (List.mem_cons_of_mem _ hmem)
      · rw [hst id hidc hidp, h.superseded id, List.tail_cons, List.mem_cons]
        exact ⟨fun hmem => hmem.resolve_left hidp, Or.inr⟩

end Stacked

/-! ## Every call is a stack operation -/

/-- The stack a call leaves, read off its outcome: a successful activation
    pushes, a successful rollback with a fresh key pops. -/
def stackAfter (db : Db) (stk : List String) (c : Call) : List String :=
  match c, (c.exec db).1 with
  | .activateRelease id _ _, .returned _ => id :: stk
  | .rollbackActiveRelease _ key _, .returned _ =>
      if findRollbackEvent db key = none then stk.tail else stk
  | _, _ => stk

theorem stackAfter_raised {db : Db} {stk : List String} {c : Call} {e : ModelReleaseError}
    (h : (c.exec db).1 = .raised e) : stackAfter db stk c = stk := by
  simp only [stackAfter]
  rw [h]
  cases c <;> rfl

theorem stackAfter_rollback {db : Db} {stk : List String} {activatedBy key x : String} {now : Nat}
    (h : ((Call.rollbackActiveRelease activatedBy key now).exec db).1 = .returned x) :
    stackAfter db stk (.rollbackActiveRelease activatedBy key now)
      = if findRollbackEvent db key = none then stk.tail else stk := by
  simp only [stackAfter]
  rw [h]

/-- Registering a candidate adds a row no stack mentions. -/
theorem Stacked.registered {db db' : Db} {stk : List String} {r : ModelRelease} {e : AuditEvent}
    (h : Stacked db stk) (hnew : db.releases.get r.releaseId = none)
    (hcand : r.status = .candidate) (hw : Wrote db db' [r] e) : Stacked db' stk := by
  have hnot : r.releaseId ∉ stk := by
    have hst : statusOf db r.releaseId = none := by
      rw [statusOf, hnew]
      rfl
    exact h.not_mem hst (fun hs => by cases hs) (fun hs => by cases hs)
  refine h.keep ?_ ?_
  · intro id
    by_cases hid : id = r.releaseId
    · refine Or.inr ⟨?_, ?_⟩
      · rw [statusOf]
        rw [hid, hnew]
        rfl
      · refine statusOf_eq_some.mpr ⟨r, ?_, hcand⟩
        rw [hw.get_one, if_pos hid]
    · refine Or.inl ?_
      rw [statusOf, statusOf]
      rw [hw.get_one, if_neg hid]
  · intro id hid
    have hne : id ≠ r.releaseId := fun heq => hnot (heq ▸ hid)
    rw [previousOf, previousOf]
    rw [hw.get_one, if_neg hne]

/-- **ONE CALL IS ONE STACK OPERATION.** -/
theorem stacked_step {db : Db} {stk : List String} (h : Stacked db stk) (c : Call) :
    Stacked (serve db c) (stackAfter db stk c) := by
  have hserved := served db c
  simp only [stackAfter]
  rw [serve]
  generalize (c.exec db).1 = o at hserved ⊢
  generalize (c.exec db).2 = db' at hserved ⊢
  cases hserved with
  | raised e => cases c <;> exact h
  | replayed hevent =>
      -- the event it replays makes its key a used one
      cases returnRelease db _ with
      | raised e => exact h
      | returned id =>
          simp only [hevent, reduceCtorEq, if_false]
          exact h
  | registered hnew hwrote => exact h.registered hnew rfl hwrote
  | gated hget _ hwrote =>
      have hid := id_of_get hget
      subst hid
      exact h.keep_of_wrote hwrote hget rfl rfl
  | approved hget _ hwrote =>
      have hid := id_of_get hget
      subst hid
      exact h.keep_of_wrote hwrote hget rfl rfl
  | activated hget hok hwrote =>
      have hid := id_of_get hget
      subst hid
      exact h.push hwrote hget (activationRefusal_eq_none.mp hok).1
  | @rolledBack _ _ _ current previous previousId _ hevent hactive hprev hget hwrote =>
      have hid := id_of_get hget
      subst hid
      have hne := (h.below_top hactive hprev hget).1
      obtain ⟨rest, rfl⟩ := h.top_two hactive hprev
      rw [if_neg hne] at hwrote
      simp only [hevent, if_true, List.tail_cons]
      exact (h.pop hget hwrote).1

/-- Every serial history keeps a stack. -/
theorem stacked_run {db : Db} {stk : List String} (h : Stacked db stk) (calls : List Call) :
    ∃ stk', Stacked (run serve db calls) stk' := by
  induction calls generalizing db stk with
  | nil => exact ⟨stk, h⟩
  | cons c calls ih => exact ih (stacked_step h c)

/-- **STACK INVARIANT**: after any serial history the releases met from the
    ACTIVE one are the stack. -/
theorem stacked_of_history (calls : List Call) :
    Stacked (run serve Db.empty calls) (stackOf (run serve Db.empty calls)) := by
  obtain ⟨stk, h⟩ := stacked_run stacked_empty calls
  rw [h.stackOf_eq]
  exact h

end ReleaseStack
