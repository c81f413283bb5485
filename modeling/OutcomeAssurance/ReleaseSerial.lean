import OutcomeAssurance.ReleaseLog

/-! # Concurrent activations and rollbacks

    Any number of activations and rollbacks, each a read of the tables followed
    later by one commit, interleaved from any state of a serial history.  They
    are serialisable exactly when every commit is up to date or refused
    (`serialisable_iff`): the ACTIVE release is the one the call read, and a
    release to be activated is still a candidate. -/

namespace ReleaseSerial

open KeyedTable Interleaving Runs PointerStack ReleaseModel ReleaseCommit ReleaseSteps
open ReleaseStack ReleaseLifecycle ReleaseVetting ReleaseLog

variable {ι : Type} [DecidableEq ι]

/-- The calls that move the ACTIVE status. -/
inductive Switch where
  | activate (releaseId activatedBy : String) (now : Nat)
  | rollback (activatedBy idempotencyKey : String) (now : Nat)

def Switch.call : Switch → Call
  | .activate releaseId activatedBy now => .activateRelease releaseId activatedBy now
  | .rollback activatedBy idempotencyKey now =>
      .rollbackActiveRelease activatedBy idempotencyKey now

/-- One read or commit of one session. -/
def sys (switch : ι → Switch) :
    Config ι Db (Phase Work Outcome) → ι → Config ι Db (Phase Work Outcome) :=
  lifecycle.sched (fun i => (switch i).call)

/-- Every session before its read. -/
def opened (db : Db) : Config ι Db (Phase Work Outcome) := ⟨db, fun _ => .idle⟩

/-! ## The property and the condition -/

/-- The ROLLED_BACK and ACTIVATED events. -/
def switchEvents (db : Db) : List AuditEvent :=
  db.audit.rows.filter (fun e => e.eventType = .activated ∨ e.eventType = .rolledBack)

/-- The release an event records as rolled back. -/
def revokedBy (e : AuditEvent) : Option String :=
  match e.eventType, e.detail with
  | .rolledBack, .rolledBackFrom id => some id
  | _, _ => none

/-- What is asked of a schedule: its tables are those of some serial execution
    of exactly the calls that report success, no release is rolled back twice,
    and none that has been rolled back becomes ACTIVE. -/
structure Serialisable (switch : ι → Switch) (db : Db) (sched : List ι) : Prop where
  serial : ∃ order : List ι, order.Nodup ∧
    (∀ i, i ∈ order ↔
      Succeeded Outcome.ok ((run (sys switch) (opened db) sched).pc i)) ∧
    (run serve db (order.map (fun i => (switch i).call))).releases
      = (run (sys switch) (opened db) sched).db.releases ∧
    (switchEvents (run serve db (order.map (fun i => (switch i).call)))).Perm
      (switchEvents (run (sys switch) (opened db) sched).db)
  demotedOnce : ((run (sys switch) (opened db) sched).db.audit.rows.filterMap revokedBy).Nodup
  neverRevived : ∀ pre i post, sched = pre ++ i :: post → ∀ id,
    statusOf (run (sys switch) (opened db) pre).db id = some .rolledBack →
    statusOf (run (sys switch) (opened db) (pre ++ [i])).db id ≠ some .active

/-- The release a unit of work demotes. -/
def demotes (w : Work) : Option String :=
  match w.flushes with
  | [(current, _), _] => some current.releaseId
  | _ => none

/-- The commit is up to date, or it is refused: a third release is ACTIVE, or
    its idempotency key is recorded. -/
def UpToDate (db : Db) (w : Work) : Prop :=
  ((getActiveRow db).map (·.releaseId) = demotes w ∧
      (w.event.eventType = .activated → statusOf db w.event.releaseId = some .candidate)) ∨
    (∃ a, getActiveRow db = some a ∧ some a.releaseId ≠ demotes w ∧
      a.releaseId ≠ w.event.releaseId) ∨
    (∃ k, w.event.idempotencyKey = some k ∧ findRollbackEvent db k ≠ none)

/-- If the next step of the session is its commit, that commit is up to date or
    refused. -/
def CommitsUpToDate (σ : Config ι Db (Phase Work Outcome)) (i : ι) : Prop :=
  ∀ w, σ.pc i = .ready w → UpToDate σ.db w

/-! ## Serial states -/

/-- The invariants of serial histories. -/
structure Regular (db : Db) : Prop where
  stacked : ∃ stk, Stacked db stk
  sound : Sound db
  logged : Logged db

theorem regular_serve {db : Db} (h : Regular db) (c : Call) : Regular (serve db c) := by
  obtain ⟨stk, hstk⟩ := h.stacked
  exact ⟨⟨_, stacked_step hstk c⟩, sound_step hstk h.sound c, logged_step hstk h.logged c⟩

theorem regular_run {db : Db} (h : Regular db) (calls : List Call) : Regular (run serve db calls) :=
  run_invariant (I := Regular) (fun _ c h => regular_serve h c) h calls

theorem regular_empty : Regular Db.empty := ⟨⟨[], stacked_empty⟩, sound_empty, logged_empty⟩

/-- The audit log of a serial history grows at its end. -/
theorem audit_serve (db : Db) (c : Call) :
    ∃ more, (serve db c).audit.rows = db.audit.rows ++ more := by
  obtain ⟨o, hserved⟩ := served_serve db c
  generalize serve db c = db' at hserved ⊢
  cases hserved with
  | raised e => exact ⟨[], (List.append_nil _).symm⟩
  | replayed hevent => exact ⟨[], (List.append_nil _).symm⟩
  | registered hnew hwrote => exact ⟨_, hwrote.audit⟩
  | gated hget _ hwrote => exact ⟨_, hwrote.audit⟩
  | approved hget _ hwrote => exact ⟨_, hwrote.audit⟩
  | activated hget hok hwrote => exact ⟨_, hwrote.audit⟩
  | rolledBack hevent hactive hprev hget hwrote => exact ⟨_, hwrote.audit⟩

/-- What has been activated once stays so. -/
theorem launched_serve {db : Db} (h : Regular db) {id : String} (c : Call)
    (hid : launched (statusOf db id) = true) : launched (statusOf (serve db c) id) = true := by
  obtain ⟨more, hmore⟩ := audit_serve db c
  have hbefore := h.logged.activations id
  have hafter := (regular_serve h c).logged.activations id
  rw [hid] at hbefore
  rw [hmore, List.countP_append] at hafter
  by_contra hno
  rw [if_neg hno] at hafter
  rw [if_pos rfl] at hbefore
  omega

theorem active_ne_none {db : Db} {stk : List String} (h : Stacked db stk) :
    getActiveRow db ≠ none ↔ stk ≠ [] := by
  have hhead := h.head
  cases stk with
  | nil =>
      rw [List.head?_nil, Option.map_eq_none_iff] at hhead
      simp [hhead]
  | cons x rest =>
      refine iff_of_true ?_ (List.cons_ne_nil _ _)
      intro hnone
      rw [hnone] at hhead
      cases hhead

/-! ## Plans that wait for their commit -/

/-- What a plan that has been read still has to do with the tables, while
    other calls commit: a candidate to be activated is as it was or has been
    activated; a release to be rolled back still lies right above the one it
    was read with, or has been rolled back. -/
inductive Pending (db : Db) : Switch → Work → Prop where
  | activate {activatedBy : String} {now : Nat} {r : ModelRelease} {cur : Option ModelRelease}
      (hok : activationRefusal r = none)
      (hcur : ∀ c, cur = some c → c.status = .active ∧ c.releaseId ≠ r.releaseId ∧
        getActiveRow db ≠ none)
      (hrow : db.releases.get r.releaseId = some r ∨
        launched (statusOf db r.releaseId) = true) :
      Pending db (.activate r.releaseId activatedBy now) (activateWork r cur activatedBy now)
  | rollback {activatedBy key : String} {now : Nat} {c p : ModelRelease}
      (hc : c.status = .active) (hunrevoked : c.rolledBackAt = none) (hp : p.status = .superseded)
      (hne : p.releaseId ≠ c.releaseId) (hstored : ∃ r, db.releases.get p.releaseId = some r)
      (hplace : statusOf db c.releaseId = some .rolledBack ∨
        ∃ above rest, Stacked db (above ++ c.releaseId :: p.releaseId :: rest) ∧
          db.releases.get p.releaseId = some p) :
      Pending db (.rollback activatedBy key now) (rollbackWork c p activatedBy key now)

/-- A read prepares a pending plan. -/
theorem pending_of_read {db : Db} (h : Regular db) {s : Switch} {w : Work}
    (hread : s.call.read db = .inr w) : Pending db s w := by
  obtain ⟨stk, hstk⟩ := h.stacked
  have hplan := planned hread
  cases s with
  | activate id activatedBy now =>
      generalize hc : Switch.call (.activate id activatedBy now) = c at hplan
      cases hplan with
      | register | gate | approve | rollback => cases hc
      | @activate activatedBy' now' r hget hok =>
          obtain ⟨rfl, rfl, rfl⟩ := Call.activateRelease.inj hc
          refine .activate hok ?_ (Or.inl hget)
          intro c hcur
          refine ⟨status_of_getActiveRow hcur, ?_, by rw [hcur]; intro hs; cases hs⟩
          exact ne_active_of_candidate hget (activationRefusal_eq_none.mp hok).1 hcur
  | rollback activatedBy key now =>
      generalize hc : Switch.call (.rollback activatedBy key now) = c at hplan
      cases hplan with
      | register | gate | approve | activate => cases hc
      | @rollback activatedBy' key' now' current previous hevent hactive hprev hget =>
          obtain ⟨rfl, rfl, rfl⟩ := Call.rollbackActiveRelease.inj hc
          obtain ⟨hne, hsup⟩ := hstk.below_top hactive hprev hget
          obtain ⟨rest, rfl⟩ := hstk.top_two hactive hprev
          have hact := status_of_getActiveRow hactive
          refine .rollback hact ?_ hsup hne ⟨previous, hget⟩ (Or.inr ⟨[], rest, hstk, hget⟩)
          exact h.logged.unrevoked _ current (get_of_getActiveRow hactive)
            (by rw [hact]; intro hs; cases hs)

/-- Rows never vanish. -/
theorem stored_serve {db : Db} {id : String} (h : ∃ r, db.releases.get id = some r) (c : Call) :
    ∃ r, (serve db c).releases.get id = some r := by
  have hwrote : ∀ {db' : Db} {new : List ModelRelease} {e : AuditEvent}, Wrote db db' new e →
      ∃ r, db'.releases.get id = some r := by
    intro db' new e hw
    obtain ⟨r, hr⟩ := h
    rw [hw.get, hr]
    cases new.find? (fun r => decide (r.releaseId = id)) with
    | none => exact ⟨r, rfl⟩
    | some x => exact ⟨x, rfl⟩
  obtain ⟨o, hserved⟩ := served_serve db c
  generalize serve db c = db' at hserved ⊢
  cases hserved with
  | raised e => exact h
  | replayed hevent => exact h
  | registered hnew hw => exact hwrote hw
  | gated hget _ hw => exact hwrote hw
  | approved hget _ hw => exact hwrote hw
  | activated hget hok hw => exact hwrote hw
  | rolledBack hevent hactive hprev hget hw => exact hwrote hw

/-- A row that is not ACTIVE is left alone unless it becomes the ACTIVE one. -/
theorem kept_or_active {db : Db} (h : Regular db) {r : ModelRelease}
    (hget : db.releases.get r.releaseId = some r) (hr : r.status ≠ .active) (s : Switch) :
    (serve db s.call).releases.get r.releaseId = some r ∨
      statusOf (serve db s.call) r.releaseId = some .active := by
  obtain ⟨stk, hstk⟩ := h.stacked
  have hinactive : statusOf db r.releaseId ≠ some .active := by
    intro hact
    obtain ⟨x, hx, hs⟩ := statusOf_eq_some.mp hact
    rw [Option.some.inj (hget.symm.trans hx)] at hr
    exact hr hs
  obtain ⟨o, hserved⟩ := served_serve db s.call
  generalize serve db s.call = db' at hserved ⊢
  generalize hc : s.call = c at hserved
  cases hserved with
  | raised e => exact Or.inl hget
  | replayed hevent => exact Or.inl hget
  | registered | gated | approved => cases s <;> cases hc
  | @activated id _ _ x _ hx hok hw =>
      obtain rfl := id_of_get hx
      by_cases hid : r.releaseId = x.releaseId
      · refine Or.inr ?_
        rw [hid]
        exact statusOf_eq_some.mpr ⟨_, hw.get_head, rfl⟩
      · exact Or.inl ((hw.activated_other hid hinactive).trans hget)
  | @rolledBack _ _ _ current previous _ _ _ hactive hprev hp hw =>
      obtain rfl := id_of_get hp
      rw [if_neg (hstk.below_top hactive hprev hp).1] at hw
      by_cases hid : r.releaseId = previous.releaseId
      · refine Or.inr ?_
        rw [hid]
        exact statusOf_eq_some.mpr ⟨_, hw.get_head, rfl⟩
      · refine Or.inl ((hw.rolledBack_other hid ?_).trans hget)
        intro heq
        rw [heq] at hinactive
        exact hinactive (statusOf_active.mpr (by rw [hactive]; rfl))

/-- A candidate row is left alone by activations of other releases and by
    rollbacks. -/
theorem candidate_serve {db : Db} (h : Regular db) {r : ModelRelease}
    (hget : db.releases.get r.releaseId = some r) (hcand : r.status = .candidate) (s : Switch) :
    (serve db s.call).releases.get r.releaseId = some r ∨
      launched (statusOf (serve db s.call) r.releaseId) = true := by
  refine (kept_or_active h hget (by rw [hcand]; decide) s).imp_right ?_
  intro hact
  rw [hact]
  rfl

/-- Something on a stack below its top is not the top. -/
theorem head?_ne_of_below {above rest : List String} {c p : String}
    (h : (above ++ c :: p :: rest).Nodup) : (above ++ c :: p :: rest).head? ≠ some p := by
  cases above with
  | nil =>
      intro heq
      obtain rfl : c = p := Option.some.inj heq
      exact (List.nodup_cons.mp h).1 List.mem_cons_self
  | cons x above =>
      intro heq
      obtain rfl : x = p := Option.some.inj heq
      refine (List.nodup_cons.mp h).1 (List.mem_append_right above ?_)
      exact List.mem_cons_of_mem c List.mem_cons_self

/-- Nothing lies above two neighbours one of which is the ACTIVE release. -/
theorem nothing_above {db : Db} {above rest : List String} {c p : String} {r : ModelRelease}
    (hstk : Stacked db (above ++ c :: p :: rest)) (hactive : getActiveRow db = some r)
    (h : r.releaseId = c ∨ r.releaseId = p) : above = [] := by
  have hhead := hstk.head
  rw [hactive, Option.map_some] at hhead
  cases above with
  | nil => rfl
  | cons x above =>
      have hx : r.releaseId = x := Option.some.inj hhead
      refine absurd (List.mem_append_right above ?_) (List.nodup_cons.mp hstk.nodup).1
      rw [← hx]
      rcases h with hc | hp
      · exact hc ▸ List.mem_cons_self
      · exact hp ▸ List.mem_cons_of_mem c List.mem_cons_self

/-- Two neighbours on the stack stay neighbours until the upper one is rolled
    back. -/
theorem stacked_serve {db : Db} {above rest : List String} {c p : String}
    (hstk : Stacked db (above ++ c :: p :: rest)) (s : Switch) :
    statusOf (serve db s.call) c = some .rolledBack ∨
      ∃ above' rest', Stacked (serve db s.call) (above' ++ c :: p :: rest') := by
  obtain ⟨o, hserved⟩ := served_serve db s.call
  generalize serve db s.call = db' at hserved ⊢
  generalize hc : s.call = call at hserved
  cases hserved with
  | raised e => exact Or.inr ⟨above, rest, hstk⟩
  | replayed hevent => exact Or.inr ⟨above, rest, hstk⟩
  | registered | gated | approved => cases s <;> cases hc
  | @activated id _ _ x _ hx hok hw =>
      obtain rfl := id_of_get hx
      refine Or.inr ⟨x.releaseId :: above, rest, ?_⟩
      exact hstk.push hw hx (activationRefusal_eq_none.mp hok).1
  | @rolledBack _ _ _ current previous _ _ _ hactive hprev hp hw =>
      obtain rfl := id_of_get hp
      rw [if_neg (hstk.below_top hactive hprev hp).1] at hw
      obtain ⟨rest', hshape⟩ := hstk.top_two hactive hprev
      rw [hshape] at hstk
      obtain ⟨hpop, hpopped, -, -⟩ := hstk.pop hp hw
      cases above with
      | nil =>
          obtain rfl : c = current.releaseId := (List.cons.inj hshape).1
          exact Or.inl hpopped
      | cons x above =>
          have htail : above ++ c :: p :: rest = previous.releaseId :: rest' :=
            (List.cons.inj hshape).2
          rw [← htail] at hpop
          exact Or.inr ⟨above, rest, hpop⟩

/-- The row of the lower neighbour is left alone as well. -/
theorem neighbours_serve {db : Db} (h : Regular db) {above rest : List String} {c : String}
    {p : ModelRelease} (hstk : Stacked db (above ++ c :: p.releaseId :: rest))
    (hget : db.releases.get p.releaseId = some p) (s : Switch) :
    statusOf (serve db s.call) c = some .rolledBack ∨
      ∃ above' rest', Stacked (serve db s.call) (above' ++ c :: p.releaseId :: rest') ∧
        (serve db s.call).releases.get p.releaseId = some p := by
  have hp : p.status ≠ .active := by
    intro hs
    have hact := (hstk.active p.releaseId).mp (statusOf_eq_some.mpr ⟨p, hget, hs⟩)
    exact head?_ne_of_below hstk.nodup hact
  rcases stacked_serve hstk s with hrolled | ⟨above', rest', hstk'⟩
  · exact Or.inl hrolled
  · refine Or.inr ⟨above', rest', hstk', ?_⟩
    refine (kept_or_active h hget hp s).resolve_right ?_
    intro hact
    exact head?_ne_of_below hstk'.nodup ((hstk'.active p.releaseId).mp hact)

/-- A pending plan stays one while other calls commit. -/
theorem pending_serve {db : Db} (h : Regular db) {s s' : Switch} {w : Work} (hp : Pending db s w) :
    Pending (serve db s'.call) s w := by
  obtain ⟨stk, hstk⟩ := h.stacked
  cases hp with
  | activate hok hcur hrow =>
      refine .activate hok ?_ ?_
      · intro c hc
        obtain ⟨hs, hne, hsome⟩ := hcur c hc
        refine ⟨hs, hne, (active_ne_none (stacked_step hstk s'.call)).mpr ?_⟩
        exact stackAfter_ne_nil hstk ((active_ne_none hstk).mp hsome) s'.call
      · rcases hrow with hget | hlaunched
        · exact candidate_serve h hget (activationRefusal_eq_none.mp hok).1 s'
        · exact Or.inr (launched_serve h s'.call hlaunched)
  | rollback hc hunrevoked hsup hne hstored hplace =>
      refine .rollback hc hunrevoked hsup hne (stored_serve hstored s'.call) ?_
      rcases hplace with hrolled | ⟨above, rest, habove, hget⟩
      · exact Or.inl (rolledBack_step hstk hrolled s'.call)
      · exact neighbours_serve h habove hget s'

/-! ## When a pending plan commits -/

theorem demotes_activate {r c : ModelRelease} (activatedBy : String) (now : Nat)
    (h : c.releaseId ≠ r.releaseId) :
    (activateWork r (some c) activatedBy now).flushes
        = [(c, demoted c), (r, promoted r (some c) activatedBy now)] ∧
      demotes (activateWork r (some c) activatedBy now) = some c.releaseId := by
  have hfl : (activateWork r (some c) activatedBy now).flushes
      = [(c, demoted c), (r, promoted r (some c) activatedBy now)] := by
    simp [activateWork, h]
  refine ⟨hfl, ?_⟩
  rw [demotes]
  rw [hfl]

theorem demotes_rollback {c p : ModelRelease} (activatedBy key : String) (now : Nat)
    (h : p.releaseId ≠ c.releaseId) :
    (rollbackWork c p activatedBy key now).flushes
        = [(c, revoked c now), (p, restored p activatedBy now)] ∧
      demotes (rollbackWork c p activatedBy key now) = some c.releaseId := by
  have hfl : (rollbackWork c p activatedBy key now).flushes
      = [(c, revoked c now), (p, restored p activatedBy now)] := by
    simp [rollbackWork, h]
  refine ⟨hfl, ?_⟩
  rw [demotes]
  rw [hfl]

/-- The release an activation activates is stored. -/
theorem stored_of_row {db : Db} {r : ModelRelease}
    (h : db.releases.get r.releaseId = some r ∨ launched (statusOf db r.releaseId) = true) :
    ∃ x, db.releases.get r.releaseId = some x := by
  rcases h with hget | hlaunched
  · exact ⟨r, hget⟩
  · cases hx : db.releases.get r.releaseId with
    | none =>
        rw [statusOf] at hlaunched
        rw [hx] at hlaunched
        cases hlaunched
    | some x => exact ⟨x, rfl⟩

/-- **A PENDING COMMIT GOES THROUGH** exactly when no third release is ACTIVE
    and its key is free. -/
theorem commit_iff_no_third {db : Db} {s : Switch} {w : Work} (hp : Pending db s w) :
    (∃ db', db.commit w = some db') ↔
      (∀ a ∈ db.releases.rows, a.status = .active →
        some a.releaseId = demotes w ∨ a.releaseId = w.event.releaseId) ∧
      ∀ k, w.event.idempotencyKey = some k → ∀ a ∈ db.audit.rows, a.idempotencyKey ≠ some k := by
  cases hp with
  | @activate activatedBy now r cur hok hcur hrow =>
      have hcand := (activationRefusal_eq_none.mp hok).1
      have hr : r.status ≠ .active := by
        rw [hcand]
        intro hs
        cases hs
      cases cur with
      | none =>
          rw [commit_promotion rfl rfl hr rfl (stored_of_row hrow)]
          refine and_congr_left' ?_
          constructor
          · intro h a ha hs
            exact Or.inr (h a ha hs)
          · intro h a ha hs
            exact (h a ha hs).resolve_left (fun hs => by cases hs)
      | some c =>
          obtain ⟨hs, hne, -⟩ := hcur c rfl
          obtain ⟨hfl, hdem⟩ := demotes_activate activatedBy now hne
          have hcne : (demoted c).status ≠ c.status := by
            rw [hs]
            intro hs
            cases hs
          rw [commit_handover rfl hfl hcne (fun hs => by cases hs) hr rfl (stored_of_row hrow),
            hdem]
          simp only [Option.some.injEq]
          exact Iff.rfl
  | @rollback activatedBy key now c p hc _ hsup hne hstored _ =>
      obtain ⟨hfl, hdem⟩ := demotes_rollback activatedBy key now hne
      have hpne : p.status ≠ .active := by
        rw [hsup]
        intro hs
        cases hs
      have hcne : (revoked c now).status ≠ c.status := by
        rw [hc]
        intro hs
        cases hs
      rw [commit_handover rfl hfl hcne (fun hs => by cases hs) hpne rfl hstored, hdem]
      simp only [Option.some.injEq]
      exact Iff.rfl

/-- Units of work whose two writes agree on the stored rows are one. -/
theorem commit_congr {db : Db} {w w' : Work} {u v z : ModelRelease × ModelRelease}
    (hins : w.inserts = w'.inserts) (hevent : w.event = w'.event)
    (hfl : w.flushes = [u, z]) (hfl' : w'.flushes = [v, z])
    (hid : u.1.releaseId = v.1.releaseId)
    (hwrite : ∀ r, db.releases.get u.1.releaseId = some r →
      ModelRelease.write u.1 u.2 r = ModelRelease.write v.1 v.2 r) (hw : w.inserts = []) :
    db.commit w = db.commit w' := by
  have hflush : db.flush u = db.flush v := flush_congr hid hwrite
  have hinsert : db.releases.insert [] = some db.releases :=
    Table.accept_eq_some.mpr (List.append_nil _).symm
  rw [Db.commit, Db.commit]
  rw [← hins, ← hevent, hfl, hfl', hw, hinsert]
  show (List.foldlM Db.flush db [u, z]).bind _ = (List.foldlM Db.flush db [v, z]).bind _
  rw [List.foldlM_cons, List.foldlM_cons, hflush]

theorem call_commit_congr {db : Db} {c : Call} {w w' : Work} (h : db.commit w = db.commit w')
    (hresult : w.result.releaseId = w'.result.releaseId) : c.commit db w = c.commit db w' := by
  rw [Call.commit, Call.commit]
  rw [h, hresult]

/-- Demoting a row reads nothing of it but that it was ACTIVE. -/
theorem write_demoted {c r : ModelRelease} (hc : c.status = .active) :
    ModelRelease.write c (demoted c) r = { r with status := .superseded } := by
  have hne : (demoted c).status ≠ c.status := by
    rw [hc]
    intro hs
    cases hs
  simp [ModelRelease.write, demoted, hc]

theorem write_revoked {c r : ModelRelease} {now : Nat} (hc : c.status = .active)
    (hunrevoked : c.rolledBackAt = none) :
    ModelRelease.write c (revoked c now) r
      = { r with status := .rolledBack, rolledBackAt := some now } := by
  simp [ModelRelease.write, revoked, hc, hunrevoked]

/-- What a commit that is accepted has found: the ACTIVE release it read, and a
    release to be activated still a candidate. -/
theorem fresh_of_accepted {db db' : Db} {s : Switch} {w : Work} (hp : Pending db s w)
    (hup : UpToDate db w) (hcommit : db.commit w = some db') :
    (getActiveRow db).map (·.releaseId) = demotes w ∧
      (w.event.eventType = .activated → statusOf db w.event.releaseId = some .candidate) := by
  obtain ⟨hthird, hfree⟩ := (commit_iff_no_third hp).mp ⟨db', hcommit⟩
  rcases hup with hfresh | ⟨a, ha, hdem, hpro⟩ | ⟨k, hk, hrecorded⟩
  · exact hfresh
  · obtain ⟨hmem, hs⟩ := getActiveRow_eq_some.mp ha
    rcases hthird a hmem hs with heq | heq
    · exact absurd heq hdem
    · exact absurd heq hpro
  · obtain ⟨e, he⟩ := Option.ne_none_iff_exists'.mp hrecorded
    obtain ⟨hmem, -, hkey⟩ := findRollbackEvent_eq_some.mp he
    exact absurd hkey (hfree k hk e hmem)

/-- An activation that demotes the release ACTIVE now is the serial call. -/
theorem activation_eq_exec {db : Db} {r : ModelRelease} {cur : Option ModelRelease}
    {activatedBy : String} {now : Nat} (hget : db.releases.get r.releaseId = some r)
    (hok : activationRefusal r = none)
    (hcur : ∀ c, cur = some c → c.status = .active ∧ c.releaseId ≠ r.releaseId)
    (hactive : (getActiveRow db).map (·.releaseId) = demotes (activateWork r cur activatedBy now)) :
    (Switch.call (.activate r.releaseId activatedBy now)).commit db
        (activateWork r cur activatedBy now)
      = (Switch.call (.activate r.releaseId activatedBy now)).exec db := by
  have hread : (Switch.call (.activate r.releaseId activatedBy now)).read db
      = .inr (activateWork r (getActiveRow db) activatedBy now) := by
    simp only [Switch.call, Call.read, hget, hok]
  rw [exec_of_inr hread]
  refine call_commit_congr ?_ (result_of_activate.trans result_of_activate.symm)
  cases cur with
  | none =>
      have hnone : getActiveRow db = none := Option.map_eq_none_iff.mp hactive
      rw [hnone]
  | some c =>
      obtain ⟨hs, hne⟩ := hcur c rfl
      obtain ⟨hfl, hdem⟩ := demotes_activate activatedBy now hne
      rw [hdem] at hactive
      obtain ⟨c', hc', hid⟩ := Option.map_eq_some_iff.mp hactive
      have hne' : c'.releaseId ≠ r.releaseId := by
        rw [hid]
        exact hne
      obtain ⟨hfl', -⟩ := demotes_activate activatedBy now hne'
      have hpro : promoted r (some c') activatedBy now = promoted r (some c) activatedBy now := by
        simp [promoted, hid]
      rw [hpro] at hfl'
      rw [hc']
      refine commit_congr rfl rfl hfl hfl' hid.symm ?_ rfl
      intro x _
      rw [write_demoted hs, write_demoted (status_of_getActiveRow hc')]

/-- A rollback of the release ACTIVE now to the one below it is the serial
    call. -/
theorem rollback_eq_exec {db : Db} (h : Logged db) {c c' p : ModelRelease}
    {activatedBy key : String} {now : Nat} (hc : c.status = .active)
    (hunrevoked : c.rolledBackAt = none) (hne : p.releaseId ≠ c.releaseId)
    (hevent : findRollbackEvent db key = none) (hc' : getActiveRow db = some c')
    (hid : c'.releaseId = c.releaseId) (hprev : c'.previousReleaseId = some p.releaseId)
    (hget : db.releases.get p.releaseId = some p) :
    (Switch.call (.rollback activatedBy key now)).commit db
        (rollbackWork c p activatedBy key now)
      = (Switch.call (.rollback activatedBy key now)).exec db := by
  have hs' := status_of_getActiveRow hc'
  have hread : (Switch.call (.rollback activatedBy key now)).read db
      = .inr (rollbackWork c' p activatedBy key now) := by
    simp only [Switch.call, Call.read, hevent, hc', hprev, hget]
  have hne' : p.releaseId ≠ c'.releaseId := by
    rw [hid]
    exact hne
  obtain ⟨hfl, -⟩ := demotes_rollback activatedBy key now hne
  obtain ⟨hfl', -⟩ := demotes_rollback activatedBy key now hne'
  rw [exec_of_inr hread]
  refine call_commit_congr ?_ (result_of_rollback.trans result_of_rollback.symm)
  refine commit_congr rfl ?_ hfl hfl' hid.symm ?_ rfl
  · simp [rollbackWork, hid]
  · intro x _
    rw [write_revoked hc hunrevoked, write_revoked hs'
      (h.unrevoked _ c' (get_of_getActiveRow hc') (by rw [hs']; decide))]

theorem activateWork_event (r : ModelRelease) (cur : Option ModelRelease) (activatedBy : String)
    (now : Nat) : (activateWork r cur activatedBy now).event
      = { releaseId := r.releaseId, eventType := .activated, actor := some activatedBy } := by
  cases cur <;> rfl

/-- **AN ACCEPTED COMMIT THAT IS UP TO DATE** is the serial call. -/
theorem commit_eq_exec {db db' : Db} {s : Switch} {w : Work} (h : Regular db)
    (hp : Pending db s w) (hup : UpToDate db w) (hcommit : db.commit w = some db') :
    s.call.commit db w = s.call.exec db := by
  obtain ⟨hactive, hcandidate⟩ := fresh_of_accepted hp hup hcommit
  obtain ⟨-, hfree⟩ := (commit_iff_no_third hp).mp ⟨db', hcommit⟩
  cases hp with
  | @activate activatedBy now r cur hok hcur hrow =>
      rw [activateWork_event] at hcandidate
      have hget : db.releases.get r.releaseId = some r := by
        refine hrow.resolve_right ?_
        rw [hcandidate rfl]
        intro hlaunched
        cases hlaunched
      exact activation_eq_exec hget hok (fun c hc => ⟨(hcur c hc).1, (hcur c hc).2.1⟩) hactive
  | @rollback activatedBy key now c p hc hunrevoked hsup hne hstored hplace =>
      rw [(demotes_rollback activatedBy key now hne).2] at hactive
      obtain ⟨c', hc', hid⟩ := Option.map_eq_some_iff.mp hactive
      have hplace' := hplace.resolve_left (by
        rw [statusOf_active.mpr hactive]
        intro hrolled
        cases hrolled)
      obtain ⟨above, rest, hstk, hget⟩ := hplace'
      obtain rfl := nothing_above hstk hc' (Or.inl hid)
      have hprev : c'.previousReleaseId = some p.releaseId := by
        obtain ⟨below, hbelow, hpointer⟩ := hstk.active_on_top hc'
        obtain rfl := (List.cons.inj hbelow).2
        exact hpointer
      have hevent : findRollbackEvent db key = none :=
        findRollbackEvent_eq_none.mpr fun e he _ => hfree key rfl e he
      exact rollback_eq_exec h.logged hc hunrevoked hne hevent hc' hid hprev hget

/-! ## Interleavings of up-to-date commits -/

/-- The tables of a serial history, and plans that are pending in them. -/
def Good (switch : ι → Switch) (σ : Config ι Db (Phase Work Outcome)) : Prop :=
  Regular σ.db ∧ ∀ i w, σ.pc i = .ready w → Pending σ.db (switch i) w

omit [DecidableEq ι] in
theorem good_opened (switch : ι → Switch) {db : Db} (h : Regular db) :
    Good switch (opened db) :=
  ⟨h, fun _ _ => (fun hs => by cases hs)⟩

/-- A step leaves the tables, or is the serial call. -/
theorem db_step {switch : ι → Switch} {σ : Config ι Db (Phase Work Outcome)} {i : ι}
    (h : Good switch σ) (hup : CommitsUpToDate σ i) :
    (sys switch σ i).db = σ.db ∨ (sys switch σ i).db = serve σ.db (switch i).call := by
  have hstep : (sys switch σ i).db = (lifecycle.step (switch i).call (σ.pc i) σ.db).2 := rfl
  rw [hstep]
  cases hpc : σ.pc i with
  | idle =>
      refine Or.inl ?_
      cases hread : lifecycle.read (switch i).call σ.db with
      | inl o => rw [(Txn.step_idle_inl hread).1]
      | inr w => rw [(Txn.step_idle_inr hread).1]
  | ready w =>
      show ((switch i).call.commit σ.db w).2 = _ ∨ ((switch i).call.commit σ.db w).2 = _
      cases hcommit : σ.db.commit w with
      | none => exact Or.inl (by rw [commit_of_none hcommit])
      | some db' =>
          refine Or.inr ?_
          rw [commit_eq_exec h.1 (h.2 i w hpc) (hup w hpc) hcommit]
          rfl
  | done o => exact Or.inl rfl

/-- **STEP LEMMA**: an up-to-date step keeps the tables those of a serial
    history and the other plans pending. -/
theorem good_step {switch : ι → Switch} (σ : Config ι Db (Phase Work Outcome)) (i : ι)
    (h : Good switch σ) (hup : CommitsUpToDate σ i) : Good switch (sys switch σ i) := by
  have hdb := db_step h hup
  have hregular : Regular (sys switch σ i).db := by
    rcases hdb with hsame | hserve
    · rw [hsame]
      exact h.1
    · rw [hserve]
      exact regular_serve h.1 _
  refine ⟨hregular, ?_⟩
  intro j w hj
  by_cases hji : j = i
  · subst hji
    have hstep : (sys switch σ j).pc j = (lifecycle.step (switch j).call (σ.pc j) σ.db).1 :=
      Txn.sched_pc_self σ j
    rw [hstep] at hj
    cases hpc : σ.pc j with
    | idle =>
        rw [hpc] at hj
        cases hread : lifecycle.read (switch j).call σ.db with
        | inl o =>
            rw [(Txn.step_idle_inl hread).1] at hj
            cases hj
        | inr plan =>
            have hidle := (Txn.step_idle_inr hread).1
            rw [hidle] at hj
            obtain rfl : plan = w := Phase.ready.inj hj
            have hsame : (sys switch σ j).db = σ.db := by
              show (lifecycle.step (switch j).call (σ.pc j) σ.db).2 = σ.db
              rw [hpc, hidle]
            rw [hsame]
            exact pending_of_read h.1 hread
    | ready plan =>
        rw [hpc] at hj
        cases hj
    | done o =>
        rw [hpc] at hj
        cases hj
  · have hsame : (sys switch σ i).pc j = σ.pc j := Txn.sched_pc_other σ hji
    rw [hsame] at hj
    rcases hdb with hunchanged | hserve
    · rw [hunchanged]
      exact h.2 j w hj
    · rw [hserve]
      exact pending_serve h.1 (h.2 j w hj)

omit [DecidableEq ι] in
/-- An up-to-date commit is fresh in the sense of the serial-order rule. -/
theorem fresh_step {switch : ι → Switch} (σ : Config ι Db (Phase Work Outcome)) (i : ι)
    (h : Good switch σ) (hup : CommitsUpToDate σ i) :
    lifecycle.Fresh (fun i => (switch i).call) Outcome.ok σ i := by
  intro w hpc
  show if ((switch i).call.commit σ.db w).1.ok = true then
      (switch i).call.commit σ.db w = (switch i).call.exec σ.db
    else ((switch i).call.commit σ.db w).2 = σ.db
  cases hcommit : σ.db.commit w with
  | some db' =>
      have hok : ((switch i).call.commit σ.db w).1.ok = true := by
        rw [commit_of_some hcommit]
        rfl
      rw [if_pos hok]
      exact commit_eq_exec h.1 (h.2 i w hpc) (hup w hpc) hcommit
  | none =>
      rw [commit_of_none hcommit]
      cases switch i with
      | activate id activatedBy now => exact rfl
      | rollback activatedBy key now =>
          cases hevent : findRollbackEvent σ.db key with
          | none =>
              -- the integrity error is raised again
              have hraised : Call.onConflict σ.db (Switch.rollback activatedBy key now).call
                  = .raised .integrityError := by
                simp only [Switch.call, Call.onConflict, hevent]
              rw [hraised]
              exact rfl
          | some e =>
              have hreplayed : Call.onConflict σ.db (Switch.rollback activatedBy key now).call
                  = returnRelease σ.db e.releaseId := by
                simp only [Switch.call, Call.onConflict, hevent]
              have hread : (Switch.rollback activatedBy key now).call.read σ.db
                  = .inl (returnRelease σ.db e.releaseId) := by
                simp only [Switch.call, Call.read, hevent]
              rw [hreplayed, exec_of_inl hread]
              split <;> rfl

/-- The final tables of up-to-date commits are those of the calls that report
    success, run serially in the order in which they do. -/
theorem serial_of_upToDate {switch : ι → Switch} {db : Db} (h : Regular db) {sched : List ι}
    (hup : Along (sys switch) CommitsUpToDate (opened db) sched) :
    (run (sys switch) (opened db) sched).db =
      run serve db ((lifecycle.successes (fun i => (switch i).call) Outcome.ok (opened db)
        sched).map (fun i => (switch i).call)) := by
  have hfresh := hup.imp good_step fresh_step (good_opened switch h)
  have hserial := Txn.serial_of_fresh hfresh
  have hmap : ∀ (order : List ι) (d : Db),
      run (fun d i => (lifecycle.alone (switch i).call d).2) d order
        = run serve d (order.map (fun i => (switch i).call)) := by
    intro order
    induction order with
    | nil => exact fun d => rfl
    | cons i order ih => exact fun d => ih _
  exact hserial.trans (hmap _ _)

/-! ## The condition is enough -/

theorem count_revokedBy (rows : List AuditEvent) (id : String) :
    (rows.filterMap revokedBy).count id = rows.countP (revokes id) := by
  rw [List.count_filterMap]
  refine List.countP_congr ?_
  intro e _
  rw [revokedBy, revokes]
  cases e.eventType <;> cases e.detail <;> simp

/-- No release is rolled back twice in a serial history. -/
theorem revokedBy_nodup {db : Db} (h : Logged db) :
    (db.audit.rows.filterMap revokedBy).Nodup := by
  refine List.nodup_iff_count_le_one.mpr ?_
  intro id
  rw [count_revokedBy, h.revocations]
  split <;> omega

theorem serialisable_of_upToDate {switch : ι → Switch} {db : Db} (h : Regular db)
    {sched : List ι} (hup : Along (sys switch) CommitsUpToDate (opened db) sched) :
    Serialisable switch db sched := by
  have hserial := serial_of_upToDate h hup
  refine ⟨⟨lifecycle.successes (fun i => (switch i).call) Outcome.ok (opened db) sched,
    Txn.nodup_successes _ sched, ?_, ?_, ?_⟩, ?_, ?_⟩
  · intro i
    rw [Txn.mem_successes]
    exact and_iff_right (fun hfin => hfin)
  · rw [hserial]
  · rw [hserial]
  · rw [hserial]
    exact revokedBy_nodup (regular_run h _).logged
  · intro pre i post heq id hrolled
    rw [heq, along_append] at hup
    have hgood : Good switch (run (sys switch) (opened db) pre) :=
      run_invariant_along good_step (good_opened switch h) hup.1
    obtain ⟨stk, hstk⟩ := hgood.1.stacked
    rw [run_snoc]
    rcases db_step hgood hup.2.1 with hsame | hserve
    · rw [hsame, hrolled]
      intro hs
      cases hs
    · rw [hserve, rolledBack_step hstk hrolled]
      intro hs
      cases hs

/-! ## The condition is needed -/

/-- The audit log grows at its end along every schedule. -/
theorem audit_run (switch : ι → Switch) (σ : Config ι Db (Phase Work Outcome))
    (sched : List ι) : ∃ more,
      (run (sys switch) σ sched).db.audit.rows = σ.db.audit.rows ++ more := by
  induction sched generalizing σ with
  | nil => exact ⟨[], (List.append_nil _).symm⟩
  | cons i rest ih =>
      obtain ⟨later, hlater⟩ := ih (sys switch σ i)
      obtain ⟨now, hnow⟩ : ∃ now, (sys switch σ i).db.audit.rows = σ.db.audit.rows ++ now := by
        have hstep : (sys switch σ i).db = (lifecycle.step (switch i).call (σ.pc i) σ.db).2 := rfl
        rw [hstep]
        cases hpc : σ.pc i with
        | idle =>
            refine ⟨[], ?_⟩
            rw [List.append_nil]
            cases hread : lifecycle.read (switch i).call σ.db with
            | inl o => rw [(Txn.step_idle_inl hread).1]
            | inr w => rw [(Txn.step_idle_inr hread).1]
        | done o => exact ⟨[], (List.append_nil _).symm⟩
        | ready w =>
            show ∃ now, ((switch i).call.commit σ.db w).2.audit.rows = _ ++ now
            cases hcommit : σ.db.commit w with
            | none =>
                rw [commit_of_none hcommit]
                exact ⟨[], (List.append_nil _).symm⟩
            | some db' =>
                rw [commit_of_some hcommit]
                exact ⟨_, (commit_all_rows hcommit).2⟩
      refine ⟨now ++ later, ?_⟩
      rw [run_cons, hlater, hnow, List.append_assoc]

/-- **A STALE COMMIT LEAVES A DOUBLE EVENT**: an accepted commit that is not up
    to date activates a release a second time, or rolls one back a second
    time. -/
theorem stale_commit {db : Db} {s : Switch} {w : Work} (h : Regular db) (hp : Pending db s w)
    (hstale : ¬ UpToDate db w) :
    ∃ db' id, db.commit w = some db' ∧
      (db'.audit.rows.countP (activates id) = 2 ∨ db'.audit.rows.countP (revokes id) = 2) := by
  obtain ⟨hnotfresh, hnothird, hnokey⟩ : ¬ _ ∧ ¬ _ ∧ ¬ _ := by
    rwa [UpToDate, not_or, not_or] at hstale
  have hthird : ∀ a ∈ db.releases.rows, a.status = .active →
      some a.releaseId = demotes w ∨ a.releaseId = w.event.releaseId := by
    intro a ha hs
    by_contra hno
    rw [not_or] at hno
    exact hnothird ⟨a, getActiveRow_eq_some.mpr ⟨ha, hs⟩, hno⟩
  have hfree : ∀ k, w.event.idempotencyKey = some k →
      ∀ a ∈ db.audit.rows, a.idempotencyKey ≠ some k := by
    intro k hk a ha hak
    have hnone : findRollbackEvent db k = none := by
      by_contra hrecorded
      exact hnokey ⟨k, hk, hrecorded⟩
    exact findRollbackEvent_eq_none.mp hnone a ha
      (h.sound.keyed a ha (by rw [hak]; exact Option.some_ne_none _)) hak
  obtain ⟨db', hcommit⟩ := (commit_iff_no_third hp).mpr ⟨hthird, hfree⟩
  have haudit := (commit_all_rows hcommit).2
  cases hp with
  | @activate activatedBy now r cur hok hcur hrow =>
      have hcand := (activationRefusal_eq_none.mp hok).1
      have hlaunched : launched (statusOf db r.releaseId) = true := by
        refine hrow.resolve_left ?_
        intro hget
        have hstatus : statusOf db r.releaseId = some .candidate :=
          statusOf_eq_some.mpr ⟨r, hget, hcand⟩
        -- a candidate is not the ACTIVE row, so the ACTIVE row is the one read
        have hactive : ∀ a, getActiveRow db = some a →
            some a.releaseId = demotes (activateWork r cur activatedBy now) := by
          intro a ha
          obtain ⟨hmem, hs⟩ := getActiveRow_eq_some.mp ha
          refine (hthird a hmem hs).resolve_right ?_
          rw [activateWork_event]
          exact ne_active_of_candidate hget hcand ha
        refine hnotfresh ⟨?_, fun _ => by rw [activateWork_event]; exact hstatus⟩
        cases ha : getActiveRow db with
        | some a => exact hactive a ha
        | none =>
            cases cur with
            | none => rfl
            | some c => exact absurd ha (hcur c rfl).2.2
      refine ⟨db', r.releaseId, hcommit, Or.inl ?_⟩
      rw [haudit, List.countP_append, h.logged.activations, hlaunched, activateWork_event]
      simp [activates]
  | @rollback activatedBy key now c p hc hunrevoked hsup hne hstored hplace =>
      obtain ⟨-, hdem⟩ := demotes_rollback activatedBy key now hne
      rw [hdem] at hthird hnotfresh
      have hrolled : statusOf db c.releaseId = some .rolledBack := by
        refine hplace.resolve_right ?_
        rintro ⟨above, rest, hstk, -⟩
        have hsome : getActiveRow db ≠ none := (active_ne_none hstk).mpr (by simp)
        obtain ⟨a, ha⟩ := Option.ne_none_iff_exists'.mp hsome
        obtain ⟨hmem, hs⟩ := getActiveRow_eq_some.mp ha
        have hneighbour : a.releaseId = c.releaseId ∨ a.releaseId = p.releaseId :=
          (hthird a hmem hs).imp_left Option.some.inj
        -- still on top
        obtain rfl := nothing_above hstk ha hneighbour
        exact hnotfresh ⟨hstk.head, (fun hs => by cases hs)⟩
      refine ⟨db', c.releaseId, hcommit, Or.inr ?_⟩
      rw [haudit, List.countP_append, h.logged.revocations, if_pos hrolled]
      simp [revokes, rollbackWork]

/-- Counting over the events of activations and rollbacks. -/
theorem countP_switchEvents (db : Db) {f : AuditEvent → Bool}
    (hf : ∀ e, f e = true → e.eventType = .activated ∨ e.eventType = .rolledBack) :
    (switchEvents db).countP f = db.audit.rows.countP f := by
  rw [switchEvents]
  rw [List.countP_filter]
  refine List.countP_congr ?_
  intro e _
  rw [Bool.and_eq_true, decide_eq_true_eq]
  exact ⟨fun h => h.1, fun h => ⟨h, hf e h⟩⟩

theorem upToDate_of_serialisable {switch : ι → Switch} {db : Db} (h : Regular db)
    {sched : List ι} (hserial : Serialisable switch db sched) :
    Along (sys switch) CommitsUpToDate (opened db) sched := by
  by_contra hno
  obtain ⟨pre, i, post, heq, hpre, hbreak⟩ := exists_first_break hno
  have hgood : Good switch (run (sys switch) (opened db) pre) :=
    run_invariant_along good_step (good_opened switch h) hpre
  obtain ⟨w, hpc, hstale⟩ : ∃ w, (run (sys switch) (opened db) pre).pc i = .ready w ∧
      ¬ UpToDate (run (sys switch) (opened db) pre).db w := by
    rw [CommitsUpToDate] at hbreak
    rw [not_forall] at hbreak
    obtain ⟨w, hw⟩ := hbreak
    exact ⟨w, Classical.not_imp.mp hw⟩
  obtain ⟨db', id, hcommit, htwice⟩ := stale_commit hgood.1 (hgood.2 i w hpc) hstale
  have hdb : (sys switch (run (sys switch) (opened db) pre) i).db = db' := by
    show (lifecycle.step (switch i).call ((run (sys switch) (opened db) pre).pc i) _).2 = db'
    rw [hpc]
    show ((switch i).call.commit _ w).2 = db'
    rw [commit_of_some hcommit]
  -- the double event is still there at the end …
  obtain ⟨more, hmore⟩ := audit_run switch (sys switch (run (sys switch) (opened db) pre) i) post
  have hfinal : (run (sys switch) (opened db) sched).db.audit.rows = db'.audit.rows ++ more := by
    rw [heq, run_append, run_cons, hmore, hdb]
  -- … and serial histories have none
  obtain ⟨order, -, -, -, hevents⟩ := hserial.serial
  have hlogged := (regular_run h (order.map (fun i => (switch i).call))).logged
  have hcount : ∀ f : AuditEvent → Bool,
      (∀ e, f e = true → e.eventType = .activated ∨ e.eventType = .rolledBack) →
      db'.audit.rows.countP f ≤
        (run serve db (order.map (fun i => (switch i).call))).audit.rows.countP f := by
    intro f hf
    rw [← countP_switchEvents (run serve db _) hf, hevents.countP_eq f,
      countP_switchEvents _ hf, hfinal, List.countP_append]
    omega
  rcases htwice with hact | hrev
  · have hle := hcount (activates id) (fun e he => Or.inl (of_decide_eq_true he).1)
    rw [hact, hlogged.activations] at hle
    split at hle <;> omega
  · have hle := hcount (revokes id) (fun e he => Or.inr (of_decide_eq_true he).1)
    rw [hrev, hlogged.revocations] at hle
    split at hle <;> omega

/-- **SERIALISABLE EXACTLY WHEN** every commit that is not refused is up to
    date; for any activations and rollbacks, any schedule, and any serial
    history before it. -/
theorem serialisable_iff (history : List Call) (switch : ι → Switch) (sched : List ι) :
    Serialisable switch (run serve Db.empty history) sched ↔
      Along (sys switch) CommitsUpToDate (opened (run serve Db.empty history)) sched := by
  have h := regular_run regular_empty history
  exact ⟨upToDate_of_serialisable h, serialisable_of_upToDate h⟩

/-- Two incidents, each rolled back by an operator of its own. -/
def incidents : Bool → Switch
  | true => .rollback "alice" "incident-1" 1
  | false => .rollback "bob" "incident-2" 1

/-- Both read `b` as ACTIVE, and both demote it. -/
theorem lost_rollback :
    ¬ ∀ (history : List Call) (switch : Bool → Switch) (sched : List Bool),
      Serialisable switch (run serve Db.empty history) sched := by
  intro h
  have hserial := h (released "a" ++ released "b") incidents [true, false, true, false]
  have htwice : ¬ ((run (sys incidents) (opened (run serve Db.empty
      (released "a" ++ released "b"))) [true, false, true, false]).db.audit.rows.filterMap
        revokedBy).Nodup := by decide
  exact htwice hserial.demotedOnce

end ReleaseSerial
