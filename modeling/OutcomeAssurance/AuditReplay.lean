import OutcomeAssurance.ReleaseCache
import OutcomeAssurance.ReleaseStack

/-! # The audit log tells the whole lifecycle

    `app/model_release.py` writes an audit event beside every change of a
    release.  The events alone say what the releases have become: `replay` reads
    them one by one, and never differs from the table, nor from the release the
    process serves, wherever restarts struck. -/

namespace AuditReplay

open KeyedTable Runs ReleaseModel ReleaseCommit ReleaseSteps ReleaseStack
open ReleaseCache hiding Call.names
open ReleaseQueries hiding Call.begin Call.prepare Call.step

/-! ## Reading the log -/

/-- What the log tells of one release. -/
structure Entry where
  status : ModelReleaseStatus := .candidate
  previousReleaseId : Option String := none
  gatePassed : Option Bool := none
  gateReasonCodes : List GateReason := []
  approvedBy : Option String := none
  activatedBy : Option String := none
  deriving DecidableEq, Repr

/-- What the log tells: the releases, and the one that is to serve. -/
structure Story where
  entries : String → Option Entry := fun _ => none
  active : Option String := none

def Story.add (t : Story) (releaseId : String) : Story :=
  { t with entries := fun id => if id = releaseId then some {} else t.entries id }

def Story.amend (t : Story) (releaseId : String) (change : Entry → Entry) : Story :=
  { t with
    entries := fun id => if id = releaseId then (t.entries id).map change else t.entries id }

/-- The release that has served so far serves no longer. -/
def Story.retire (t : Story) (status : ModelReleaseStatus) : Story :=
  match t.active with
  | none => t
  | some id => t.amend id fun x => { x with status := status }

def Story.promote (t : Story) (releaseId : String) (change : Entry → Entry) : Story :=
  { t.amend releaseId fun x => { change x with status := .active } with active := some releaseId }

/-- The next event. -/
def Story.hear (t : Story) (e : AuditEvent) : Story :=
  match e.eventType, e.detail with
  | .registered, _ => t.add e.releaseId
  | .gateRun, .gate passed reasonCodes =>
      t.amend e.releaseId fun x =>
        { x with gatePassed := some passed, gateReasonCodes := reasonCodes }
  | .approved, _ => t.amend e.releaseId fun x => { x with approvedBy := e.actor }
  | .activated, _ =>
      (t.retire .superseded).promote e.releaseId fun x =>
        { x with activatedBy := e.actor, previousReleaseId := t.active }
  | .rolledBack, _ =>
      (t.retire .rolledBack).promote e.releaseId fun x => { x with activatedBy := e.actor }
  | _, _ => t

/-- Retiring concerns the release that serves. -/
theorem retire_entries (t : Story) (status : ModelReleaseStatus) (id : String) :
    (t.retire status).entries id = if t.active = some id
      then (t.entries id).map fun x => { x with status := status } else t.entries id := by
  rw [Story.retire]
  cases t.active with
  | none => rfl
  | some c =>
      show (if id = c then _ else _) = _
      simp only [Option.some.injEq, eq_comm]

def replay (log : List AuditEvent) : Story := log.foldl Story.hear {}

/-! ## Reading the table -/

def entryOf (r : ModelRelease) : Entry where
  status := r.status
  previousReleaseId := r.previousReleaseId
  gatePassed := r.gatePassed
  gateReasonCodes := r.gateReasonCodes
  approvedBy := r.approvedBy
  activatedBy := r.activatedBy

/-- What the table tells. -/
def told (db : Db) : Story where
  entries id := (db.releases.get id).map entryOf
  active := (getActiveRow db).map (·.releaseId)

variable {db db' : Db} {stk : List String} {e : AuditEvent}

theorem entries_of_get {id : String} {r : ModelRelease} (h : db.releases.get id = some r) :
    (told db).entries id = some (entryOf r) := by
  show (db.releases.get id).map entryOf = _
  rw [h, Option.map_some]

theorem active_of_row {r : ModelRelease} (h : getActiveRow db = some r) :
    (told db).active = some r.releaseId := by
  show (getActiveRow db).map _ = _
  rw [h, Option.map_some]

/-- The table tells a story when it does so of each release, and of the one that
    is ACTIVE. -/
theorem told_eq {t : Story} (hentries : ∀ id, (db'.releases.get id).map entryOf = t.entries id)
    (hactive : ∀ id, statusOf db' id = some .active ↔ t.active = some id) : told db' = t := by
  have hsame : (getActiveRow db').map (·.releaseId) = t.active := by
    refine Option.ext fun id => ?_
    rw [← hactive id]
    exact statusOf_active.symm
  cases t
  exact congrArg₂ Story.mk (funext hentries) hsame

/-- A release has one row written, which keeps its status. -/
theorem told_amended {r r' : ModelRelease} (change : Entry → Entry) (hw : Wrote db db' [r'] e)
    (hget : db.releases.get r'.releaseId = some r) (hstatus : r'.status = r.status)
    (hchange : entryOf r' = change (entryOf r)) :
    told db' = (told db).amend r'.releaseId change := by
  have hkept : ∀ id, statusOf db' id = statusOf db id := hw.column_eq hget hstatus
  refine told_eq ?_ ?_
  · intro id
    show _ = if id = r'.releaseId then ((db.releases.get id).map entryOf).map change
      else (db.releases.get id).map entryOf
    rw [hw.get_one]
    by_cases hid : id = r'.releaseId
    · rw [if_pos hid, if_pos hid, hid, hget]
      exact congrArg some hchange
    · rw [if_neg hid, if_neg hid]
  · intro id
    rw [hkept id]
    exact statusOf_active

theorem told_registered {r : ModelRelease} (hw : Wrote db db' [r] e)
    (hnew : db.releases.get r.releaseId = none) (hrow : entryOf r = {}) :
    told db' = (told db).add r.releaseId := by
  refine told_eq ?_ ?_
  · intro id
    show _ = if id = r.releaseId then some {} else (db.releases.get id).map entryOf
    rw [hw.get_one]
    by_cases hid : id = r.releaseId
    · rw [if_pos hid, if_pos hid]
      exact congrArg some hrow
    · rw [if_neg hid, if_neg hid]
  · intro id
    rw [statusOf]
    rw [hw.get_one]
    by_cases hid : id = r.releaseId
    · have hcandidate : r.status = .candidate := congrArg Entry.status hrow
      have hold : statusOf db id ≠ some .active := by
        rw [statusOf]
        rw [hid, hnew]
        exact fun hs => by cases hs
      rw [if_pos hid, Option.map_some, hcandidate]
      exact iff_of_false (fun hs => by cases hs) (mt statusOf_active.mpr hold)
    · rw [if_neg hid]
      exact statusOf_active

/-- The release that was ACTIVE is retired, and another one promoted. -/
theorem told_promoted {r r' : ModelRelease} {id : String} {status : ModelReleaseStatus}
    (change : Entry → Entry) (hget : db.releases.get id = some r)
    (hnew : db'.releases.get id = some r')
    (hchange : entryOf r' = { change (entryOf r) with status := .active })
    (hother : (told db).active ≠ some id) (hstatus : status ≠ .active)
    (hretired : ∀ k, (told db).active = some k → (db'.releases.get k).map entryOf =
      ((told db).entries k).map fun x => { x with status := status })
    (hkept : ∀ k, k ≠ id → (told db).active ≠ some k →
      db'.releases.get k = db.releases.get k) :
    told db' = ((told db).retire status).promote id change := by
  have hserves : ∀ k, statusOf db k = some .active ↔ (told db).active = some k :=
    fun _ => statusOf_active
  refine told_eq ?_ ?_
  · intro k
    show _ = if k = id then (((told db).retire status).entries k).map _
      else ((told db).retire status).entries k
    rw [retire_entries]
    by_cases hk : k = id
    · rw [hk, if_pos rfl, if_neg hother, entries_of_get hget, hnew]
      exact congrArg some hchange
    · rw [if_neg hk]
      by_cases hactive : (told db).active = some k
      · rw [if_pos hactive]
        exact hretired k hactive
      · rw [if_neg hactive, hkept k hk hactive]
        rfl
  · intro k
    show _ ↔ some id = some k
    have hpromoted : r'.status = .active := congrArg Entry.status hchange
    constructor
    · intro hs
      by_contra hne
      have hk : k ≠ id := fun heq => hne (congrArg some heq.symm)
      by_cases hactive : (told db).active = some k
      · -- the release that was ACTIVE has been retired
        obtain ⟨c, hc, -⟩ := statusOf_eq_some.mp ((hserves k).mpr hactive)
        obtain ⟨x, hx, hxs⟩ := statusOf_eq_some.mp hs
        have hrow : some (entryOf x) = some { entryOf c with status := status } := by
          rw [← Option.map_some, ← hx, hretired k hactive, entries_of_get hc]
          rfl
        exact hstatus ((congrArg Entry.status (Option.some.inj hrow)).symm.trans hxs)
      · rw [statusOf_of_get (hkept k hk hactive)] at hs
        exact hactive ((hserves k).mp hs)
    · intro hk
      rw [← Option.some.inj hk]
      exact statusOf_eq_some.mpr ⟨r', hnew, hpromoted⟩

/-! ## One call at a time -/

/-- The log tells what the table tells. -/
def Replays (db : Db) : Prop := told db = replay db.audit.rows

theorem Replays.next (h : Replays db) (haudit : db'.audit.rows = db.audit.rows ++ [e])
    (htold : told db' = (told db).hear e) : Replays db' := by
  rw [Replays, htold, h, haudit, replay, replay, List.foldl_concat]

theorem hear_activateWork (t : Story) (r : ModelRelease) (cur : Option ModelRelease)
    (activatedBy : String) (now : Nat) :
    t.hear (activateWork r cur activatedBy now).event =
      (t.retire .superseded).promote r.releaseId fun x =>
        { x with activatedBy := some activatedBy, previousReleaseId := t.active } := by
  cases cur with
  | none => rfl
  | some row => rfl

/-- **EVERY CALL** leaves a log that tells what the table tells. -/
theorem replays_step (hstk : Stacked db stk) (h : Replays db) (c : Call) :
    Replays (serve db c) := by
  obtain ⟨o, hserved⟩ := served_serve db c
  generalize serve db c = db' at hserved ⊢
  cases hserved with
  | raised e => exact h
  | replayed hevent => exact h
  | registered hnew hwrote => exact h.next hwrote.audit (told_registered hwrote hnew rfl)
  | @gated _ _ r reasons _ hget _ hwrote =>
      obtain rfl := id_of_get hget
      have htold := told_amended (fun x => { x with
        gatePassed := some reasons.isEmpty, gateReasonCodes := reasons }) hwrote hget rfl rfl
      exact h.next hwrote.audit htold
  | @approved _ approvedBy _ r _ hget _ hwrote =>
      obtain rfl := id_of_get hget
      have htold := told_amended (fun x => { x with approvedBy := some approvedBy })
        hwrote hget rfl rfl
      exact h.next hwrote.audit htold
  | @activated _ activatedBy now r _ hget hok hwrote =>
      obtain rfl := id_of_get hget
      have hcandidate : r.status = .candidate := (activationRefusal_eq_none.mp hok).1
      have hnew := hwrote.get_head
      refine h.next hwrote.audit ?_
      rw [hear_activateWork]
      refine told_promoted _ hget hnew rfl ?_ (fun hs => by cases hs) ?_ ?_
      · intro hactive
        obtain ⟨x, hx, hs⟩ := statusOf_eq_some.mp (statusOf_active.mpr hactive)
        obtain rfl : r = x := Option.some.inj (hget.symm.trans hx)
        cases hcandidate.symm.trans hs
      · intro id hactive
        obtain ⟨cur, hcur, rfl⟩ := Option.map_eq_some_iff.mp hactive
        rw [hwrote.activated_demoted hcur (ne_active_of_candidate hget hcandidate hcur),
          entries_of_get (get_of_getActiveRow hcur)]
        rfl
      · exact fun id hid hactive => hwrote.activated_other hid (mt statusOf_active.mp hactive)
  | @rolledBack activatedBy key now current previous _ _ hevent hactive hprev hget hwrote =>
      obtain rfl := id_of_get hget
      obtain ⟨hne, -⟩ := hstk.below_top hactive hprev hget
      rw [if_neg hne] at hwrote
      have hserving : (told db).active = some current.releaseId := active_of_row hactive
      have hnew := hwrote.get_head
      have htold : told db' = ((told db).retire .rolledBack).promote previous.releaseId
          fun x => { x with activatedBy := some activatedBy } := by
        refine told_promoted _ hget hnew rfl ?_ (fun hs => by cases hs) ?_ ?_
        · rw [hserving]
          exact fun heq => hne (Option.some.inj heq).symm
        · intro id hid
          obtain rfl : current.releaseId = id := Option.some.inj (hserving.symm.trans hid)
          rw [hwrote.rolledBack_revoked hne, entries_of_get (get_of_getActiveRow hactive)]
          rfl
        · intro id hid hidle
          refine hwrote.rolledBack_other hid fun heq => hidle ?_
          rw [hserving, heq]
      exact h.next hwrote.audit htold

/-! ## A process with restarts -/

/-- A planned commit is the one its call makes on its own. -/
theorem read_of_planned {c : Call} {w : Work} (h : Planned db c w) : c.read db = .inr w := by
  cases h with
  | register id model checkpoint config => rfl
  | gate hget hreasons => simp only [Call.read, hget, hreasons]
  | approve hget hgate => simp only [Call.read, hget, hgate, ne_eq, not_true_eq_false, if_false]
  | activate hget hok => simp only [Call.read, hget, hok]
  | rollback hevent hactive hprev hget => simp only [Call.read, hevent, hactive, hprev, hget]

theorem serve_of_commit {c : Call} {w : Work} (h : Planned db c w)
    (hcommit : db.commit w = some db') : serve db c = db' := by
  rw [serve, exec_of_inr (read_of_planned h), commit_of_some hcommit]

/-- The tables are those of a serial history. -/
def Serial (db : Db) : Prop := ∃ calls, db = run serve Db.empty calls

theorem Serial.snoc (h : Serial db) (c : Call) : Serial (serve db c) := by
  obtain ⟨calls, rfl⟩ := h
  exact ⟨calls ++ [c], (run_snoc _ _ _).symm⟩

theorem reach_db (db : Db) (cache : ActiveModelInfo) (c : Call) (pc : Pc) :
    (Process.reach db cache c pc).db = db := by
  cases pc <;> rfl

/-- A query leaves the tables, a commit makes them those of one more call. -/
theorem serial_tick {cache : ActiveModelInfo} {c : Call} {pc : Pc} (hserial : Serial db)
    (hfits : Fits db c pc) : Serial (Process.step ⟨db, cache, some (c, pc)⟩ .tick).db := by
  show Serial (Process.reach _ _ _ _).db
  rw [reach_db]
  by_cases hready : ∃ w, pc = .ready w
  · obtain ⟨w, rfl⟩ := hready
    cases hcommit : db.commit w with
    | some db' =>
        rw [step_ready_some hcommit, ← serve_of_commit hfits hcommit]
        exact hserial.snoc c
    | none =>
        rw [step_ready_none hcommit]
        exact hserial
  · rw [(fits_query hfits fun w hw => hready ⟨w, hw⟩).1]
    exact hserial

theorem serial_step (s : Process) (a : Action) (h : Consistent s ∧ Serial s.db) :
    Consistent (s.step a) ∧ Serial (s.step a).db := by
  refine ⟨consistent_step s a h.1, ?_⟩
  obtain ⟨db, cache, current⟩ := s
  obtain ⟨hconsistent, hserial⟩ := h
  cases a with
  | restart => exact hserial
  | tick =>
      cases current with
      | none => exact hserial
      | some cp => exact serial_tick hserial hconsistent.1
  | begin c =>
      cases current with
      | none => exact hserial
      | some cp => exact hserial

/-- Serial histories leave a log that tells what the table tells. -/
theorem Serial.replays (h : Serial db) : Replays db := by
  obtain ⟨calls, rfl⟩ := h
  have hstep : ∀ db c, ((∃ stk, Stacked db stk) ∧ Replays db) →
      (∃ stk, Stacked (serve db c) stk) ∧ Replays (serve db c) := by
    rintro db c ⟨⟨stk, hstk⟩, hreplays⟩
    exact ⟨⟨_, stacked_step hstk c⟩, replays_step hstk hreplays c⟩
  have hstart : (∃ stk, Stacked Db.empty stk) ∧ Replays Db.empty := ⟨⟨[], stacked_empty⟩, rfl⟩
  exact (run_invariant hstep hstart calls).2

/-- The release that the cache names is the ACTIVE one, or the bootstrap. -/
theorem expected_releaseId (db : Db) :
    (expected db).releaseId = (told db).active.getD bootstrap.releaseId := by
  show _ = ((getActiveRow db).map _).getD _
  rw [expected]
  cases getActiveRow db <;> rfl

/-- **THE LOG IS ENOUGH**: after any calls and restarts of a process, wherever
    the restarts struck, reading the audit log from the start gives the status,
    the gate's verdict, the approval, the activation and the predecessor of
    every release; and when no call is in progress, the release that the process
    serves. -/
theorem log_replays (actions : List Action) :
    let s := run Process.step (Process.boot Db.empty) actions
    told s.db = replay s.db.audit.rows ∧
      (s.current = none → s.cache.releaseId =
        (replay s.db.audit.rows).active.getD bootstrap.releaseId) := by
  intro s
  have hstart : Consistent (Process.boot Db.empty) ∧ Serial (Process.boot Db.empty).db :=
    ⟨consistent_boot Db.empty, [], rfl⟩
  obtain ⟨hconsistent, hserial⟩ : Consistent s ∧ Serial s.db :=
    run_invariant serial_step hstart actions
  have hreplays : told s.db = replay s.db.audit.rows := hserial.replays
  refine ⟨hreplays, fun hidle => ?_⟩
  have hcache : s.cache = expected s.db := by
    rw [Consistent] at hconsistent
    rw [hidle] at hconsistent
    exact hconsistent
  rw [hcache, expected_releaseId, hreplays]

end AuditReplay
