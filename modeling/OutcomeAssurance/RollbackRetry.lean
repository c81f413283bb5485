import OutcomeAssurance.ReleaseLifecycle
import OutcomeAssurance.ReleaseQueries

/-! # Retrying a rollback with one idempotency key

    Any number of lifecycle calls, each in its own session, interleaved query
    by query.  Once a rollback with key `k` has committed, the other calls with
    key `k` should return what it returned.  They do, unless one of them looked
    for the event before that commit and for the ACTIVE row after it, and finds
    there no release to roll back (`retrySafe_iff`). -/

namespace RollbackRetry

open KeyedTable Interleaving Runs ReleaseModel ReleaseCommit ReleaseSteps ReleaseQueries
open ReleaseLifecycle

variable {ι : Type} [DecidableEq ι]

/-- One query or commit of one session. -/
def sys (call : ι → Call) : Config ι Db Pc → ι → Config ι Db Pc :=
  fire (fun i => Call.step (call i))

/-- Every session before its first query. -/
def opened (db : Db) : Config ι Db Pc := ⟨db, fun _ => .start⟩

/-- The idempotency key of a rollback. -/
def rollbackKey : Call → Option String
  | .rollbackActiveRelease _ idempotencyKey _ => some idempotencyKey
  | _ => none

/-- The release whose commit is the next step of session `i`, if that commit
    goes through. -/
def committing (σ : Config ι Db Pc) (i : ι) : Option String :=
  match σ.pc i with
  | .ready w => (σ.db.commit w).map (fun _ => w.result.releaseId)
  | _ => none

/-- The next step of session `i` commits a rollback with key `k` to `r`. -/
def CommitsRollback (call : ι → Call) (k r : String) (σ : Config ι Db Pc) (i : ι) : Prop :=
  rollbackKey (call i) = some k ∧ committing σ i = some r

/-- What retries with key `k` are promised along a schedule: after the commit of
    a rollback to `r`, whoever finishes returns `r`, the audit log has one event
    with the key, and no other session with the key writes a release. -/
def RetrySafe (call : ι → Call) (k : String) (σ : Config ι Db Pc) (sched : List ι) : Prop :=
  ∀ pre i post r, sched = pre ++ i :: post →
    CommitsRollback call k r (run (sys call) σ pre) i →
    (∀ j o, rollbackKey (call j) = some k → (run (sys call) σ sched).pc j = .finished o →
      (∀ o', (run (sys call) σ pre).pc j ≠ .finished o') → o = .returned r) ∧
    ((run (sys call) σ sched).db.audit.rows.filter
      (fun e => e.eventType = .rolledBack ∧ e.idempotencyKey = some k)).length = 1 ∧
    (∀ pre' j post', sched = pre' ++ j :: post' → rollbackKey (call j) = some k → j ≠ i →
      (sys call (run (sys call) σ pre') j).db.releases = (run (sys call) σ pre').db.releases)

/-- The next step is the ACTIVE-row lookup of a rollback. -/
def atActiveLookup : Pc → Bool
  | .noEvent => true
  | _ => false

/-- A session with key `k` that looks the ACTIVE row up after the key has been
    recorded finds one with a previous release. -/
def FindsPrevious (call : ι → Call) (k : String) (σ : Config ι Db Pc) (i : ι) : Prop :=
  rollbackKey (call i) = some k → (∃ e, findRollbackEvent σ.db k = some e) →
    atActiveLookup (σ.pc i) = true →
    ∃ current previousId, getActiveRow σ.db = some current ∧
      current.previousReleaseId = some previousId

/-! ## What any interleaving keeps -/

def Has (db : Db) (id : String) : Prop := ∃ r, db.releases.get id = some r

/-- Rows stay, and the audit log grows at its end. -/
structure Grows (db db' : Db) : Prop where
  rows : ∀ id, Has db id → Has db' id
  audit : db.audit.rows ⊆ db'.audit.rows

theorem Grows.refl (db : Db) : Grows db db := ⟨fun _ h => h, List.Subset.refl _⟩

theorem Grows.trans {a b c : Db} (h : Grows a b) (h' : Grows b c) : Grows a c :=
  ⟨fun id hid => h'.rows id (h.rows id hid), List.Subset.trans h.audit h'.audit⟩

/-- A recorded event stays the one its key finds. -/
theorem Grows.event {db db' : Db} (h : Grows db db') {k : String} {e : AuditEvent}
    (he : findRollbackEvent db k = some e) : findRollbackEvent db' k = some e := by
  obtain ⟨hmem, htype, hkey⟩ := findRollbackEvent_eq_some.mp he
  exact findRollbackEvent_eq_some.mpr ⟨h.audit hmem, htype, hkey⟩

/-- The ids the tables mention are ids of stored releases. -/
structure Linked (db : Db) : Prop where
  keyed : ∀ e ∈ db.audit.rows, e.idempotencyKey ≠ none → e.eventType = .rolledBack
  event : ∀ e ∈ db.audit.rows, e.eventType = .rolledBack → Has db e.releaseId
  previous : ∀ r ∈ db.releases.rows, ∀ p, r.previousReleaseId = some p → Has db p

/-- A unit of work a call may commit: it mentions stored releases only, and
    records the call's own key. -/
structure Sane (db : Db) (c : Call) (w : Work) : Prop where
  inserted : ∀ r ∈ w.inserts, r.previousReleaseId = none
  changed : ∀ u ∈ w.flushes, ∀ p, u.2.previousReleaseId = some p → Has db p
  event : w.event.eventType = .rolledBack → Has db w.event.releaseId
  key : w.event.idempotencyKey = rollbackKey c
  rollback : rollbackKey c ≠ none →
    w.event.eventType = .rolledBack ∧ w.result.releaseId = w.event.releaseId

/-- What the point a session has reached says about the tables, for as long as
    they only grow. -/
def Knows (db : Db) (c : Call) : Pc → Prop
  | .start => True
  | .loaded r => Has db r.releaseId ∧ rollbackKey c = none ∧
      ∀ p, r.previousReleaseId = some p → Has db p
  | .noEvent => rollbackKey c ≠ none
  | .active current previousId => rollbackKey c ≠ none ∧ Has db current.releaseId ∧
      Has db previousId ∧ current.previousReleaseId = some previousId
  | .ready w => Sane db c w
  | .conflicted => rollbackKey c ≠ none
  | .found id => ∃ k e, rollbackKey c = some k ∧ findRollbackEvent db k = some e ∧
      e.releaseId = id
  | .committed id => ∀ k, rollbackKey c = some k →
      ∃ e, findRollbackEvent db k = some e ∧ e.releaseId = id
  | .finished _ => True

theorem Knows.grows {db db' : Db} {c : Call} {pc : Pc} (h : Knows db c pc)
    (hg : Grows db db') : Knows db' c pc := by
  cases pc with
  | start => exact trivial
  | loaded r => exact ⟨hg.rows _ h.1, h.2.1, fun p hp => hg.rows p (h.2.2 p hp)⟩
  | noEvent => exact h
  | active current previousId =>
      exact ⟨h.1, hg.rows _ h.2.1, hg.rows _ h.2.2.1, h.2.2.2⟩
  | ready w =>
      exact ⟨h.inserted, fun u hu p hp => hg.rows p (h.changed u hu p hp),
        fun ht => hg.rows _ (h.event ht), h.key, h.rollback⟩
  | conflicted => exact h
  | found id =>
      obtain ⟨k, e, hk, he, hid⟩ := h
      exact ⟨k, e, hk, hg.event he, hid⟩
  | committed id =>
      intro k hk
      obtain ⟨e, he, hid⟩ := h k hk
      exact ⟨e, hg.event he, hid⟩
  | finished o => exact trivial

/-- A commit lets the tables grow. -/
theorem grows_of_commit {db db' : Db} {w : Work} (h : db.commit w = some db') :
    Grows db db' := by
  obtain ⟨hrows, haudit⟩ := commit_all_rows h
  refine ⟨?_, ?_⟩
  · rintro id ⟨r, hr⟩
    have hmem : effect w r ∈ db'.releases.rows := by
      rw [hrows]
      exact List.mem_map.mpr ⟨r, List.mem_append_left _ (Table.mem_of_get hr), rfl⟩
    refine ⟨effect w r, Table.get_eq_some.mpr ⟨hmem, ?_⟩⟩
    rw [key_release, effect_releaseId]
    exact id_of_get hr
  · rw [haudit]
    exact List.subset_append_left _ _

/-- A sane commit keeps the tables linked. -/
theorem linked_of_commit {db db' : Db} {c : Call} {w : Work} (hl : Linked db)
    (hs : Sane db c w) (h : db.commit w = some db') : Linked db' := by
  have hg := grows_of_commit h
  obtain ⟨hrows, haudit⟩ := commit_all_rows h
  have hmem : ∀ e, e ∈ db'.audit.rows ↔ e ∈ db.audit.rows ∨ e = w.event := by
    intro e
    rw [haudit, List.mem_append, List.mem_singleton]
  refine ⟨?_, ?_, ?_⟩
  · intro e he hkey
    rcases (hmem e).mp he with hold | rfl
    · exact hl.keyed e hold hkey
    · rw [hs.key] at hkey
      exact (hs.rollback hkey).1
  · intro e he ht
    rcases (hmem e).mp he with hold | rfl
    · exact hg.rows _ (hl.event e hold ht)
    · exact hg.rows _ (hs.event ht)
  · intro r hr p hp
    rw [hrows] at hr
    obtain ⟨r₀, hr₀, rfl⟩ := List.mem_map.mp hr
    rcases effect_previous w r₀ with hsame | ⟨u, hu, hchanged⟩
    · rw [hsame] at hp
      rcases List.mem_append.mp hr₀ with hold | hnew
      · exact hg.rows p (hl.previous r₀ hold p hp)
      · cases (hs.inserted r₀ hnew).symm.trans hp
    · rw [hchanged] at hp
      exact hg.rows p (hs.changed u hu p hp)

/-! ## One query or commit -/

theorem has_of_mem {db : Db} {r : ModelRelease} (h : r ∈ db.releases.rows) :
    Has db r.releaseId := ⟨r, Table.get_key h⟩

theorem sane_register (db : Db) (id model checkpoint config : String) :
    Sane db (.registerCandidate id model checkpoint config)
      (registerWork id model checkpoint config) := by
  refine ⟨?_, ?_, (fun hs => by cases hs), rfl, fun h => absurd rfl h⟩
  · intro r hr
    obtain rfl := List.mem_singleton.mp hr
    rfl
  · intro u hu
    exact absurd hu List.not_mem_nil

/-- One changed row that keeps its pointer, and no rollback event. -/
theorem sane_one {db : Db} {c : Call} {w : Work} {r r' : ModelRelease}
    (hprev : ∀ p, r.previousReleaseId = some p → Has db p)
    (hins : w.inserts = []) (hfl : w.flushes = [(r, r')])
    (hsame : r'.previousReleaseId = r.previousReleaseId)
    (htype : w.event.eventType ≠ .rolledBack) (hkey : w.event.idempotencyKey = rollbackKey c)
    (hc : rollbackKey c = none) : Sane db c w := by
  refine ⟨?_, ?_, fun h => absurd h htype, hkey, fun h => absurd hc h⟩
  · rw [hins]
    exact fun r hr => absurd hr List.not_mem_nil
  · rw [hfl]
    intro u hu p hp
    obtain rfl := List.mem_singleton.mp hu
    exact hprev p (hsame.symm.trans hp)

theorem sane_activate {db : Db} (hl : Linked db) {r : ModelRelease} {id activatedBy : String}
    {now : Nat} (hprev : ∀ p, r.previousReleaseId = some p → Has db p) :
    Sane db (.activateRelease id activatedBy now)
      (activateWork r (getActiveRow db) activatedBy now) := by
  cases hc : getActiveRow db with
  | none =>
      refine ⟨fun r hr => absurd hr List.not_mem_nil, ?_, fun h => (by cases h), rfl,
        fun h => absurd rfl h⟩
      intro u hu p hp
      obtain rfl := List.mem_singleton.mp hu
      cases hp
  | some cur =>
      have hcur := (getActiveRow_eq_some.mp hc).1
      obtain ⟨x, y, hfl, hx, hxid, hy⟩ := activateWork_flushes r cur activatedBy now
      refine ⟨fun r hr => absurd hr List.not_mem_nil, ?_, fun h => (by cases h), rfl,
        fun h => absurd rfl h⟩
      rw [hfl]
      intro u hu p hp
      rcases List.mem_cons.mp hu with rfl | hu
      · -- the demoted row keeps its pointer
        rw [demoted_previous] at hp
        rcases hx with rfl | rfl
        · exact hl.previous x hcur p hp
        · exact hprev p hp
      · -- the promoted row points to the demoted one
        obtain rfl := List.mem_singleton.mp hu
        rw [promoted_previous, Option.map_some, hxid] at hp
        rw [← Option.some.inj hp]
        exact has_of_mem hcur

theorem sane_rollback {db : Db} (hl : Linked db) {current previous : ModelRelease}
    {activatedBy key : String} {now : Nat}
    (hcur : current.previousReleaseId = some previous.releaseId)
    (hhas : Has db previous.releaseId)
    (hprev : previous = current ∨ previous ∈ db.releases.rows) :
    Sane db (.rollbackActiveRelease activatedBy key now)
      (rollbackWork current previous activatedBy key now) := by
  have hcurrent : ∀ p, current.previousReleaseId = some p → Has db p := by
    intro p hp
    rw [← Option.some.inj (hcur.symm.trans hp)]
    exact hhas
  refine ⟨fun r hr => absurd hr List.not_mem_nil, ?_, fun _ => hhas, rfl,
    fun _ => ⟨rfl, result_of_rollback⟩⟩
  intro u hu p hp
  rcases List.mem_cons.mp hu with rfl | hu
  · rw [revoked_previous] at hp
    exact hcurrent p hp
  · obtain rfl := List.mem_singleton.mp hu
    rw [restored_previous] at hp
    split at hp
    · rw [revoked_previous] at hp
      exact hcurrent p hp
    · rcases hprev with rfl | hmem
      · exact hcurrent p hp
      · exact hl.previous previous hmem p hp

theorem knows_load {db : Db} {c : Call} {id : String} (hl : Linked db)
    (hkey : rollbackKey c = none) : Knows db c (load db id) := by
  rw [load]
  cases hget : db.releases.get id with
  | none => exact trivial
  | some r =>
      have hmem := Table.mem_of_get hget
      exact ⟨has_of_mem hmem, hkey, hl.previous r hmem⟩

theorem knows_begin {db : Db} (hl : Linked db) (c : Call) : Knows db c (Call.begin db c) := by
  cases c with
  | registerCandidate id model checkpoint config =>
      exact sane_register db id model checkpoint config
  | runReleaseGate | approveRelease | activateRelease => exact knows_load hl rfl
  | rollbackActiveRelease activatedBy key now =>
      simp only [Call.begin]
      cases hevent : findRollbackEvent db key with
      | none => intro hs; cases hs
      | some e => exact ⟨key, e, rfl, hevent, rfl⟩

/-- What is prepared from a loaded row is sane. -/
theorem knows_prepare {db : Db} {c : Call} {r : ModelRelease} (hl : Linked db)
    (h : Knows db c (.loaded r)) : Knows db c (Call.prepare db r c) := by
  obtain ⟨hr, hkey, hprev⟩ := h
  cases c with
  | registerCandidate _ _ _ _ => exact ⟨hr, hkey, hprev⟩
  | rollbackActiveRelease _ _ _ => cases hkey
  | runReleaseGate id backend =>
      simp only [Call.prepare]
      cases gateReasons backend gateSyntheticPrompts with
      | none => exact trivial
      | some reasons => exact sane_one hprev rfl rfl rfl (fun hs => by cases hs) rfl rfl
  | approveRelease id approvedBy now =>
      simp only [Call.prepare]
      split
      · exact trivial
      · exact sane_one hprev rfl rfl rfl (fun hs => by cases hs) rfl rfl
  | activateRelease id activatedBy now =>
      simp only [Call.prepare]
      cases activationRefusal r with
      | some e => exact trivial
      | none => exact sane_activate hl hprev

theorem knows_findActive {db : Db} {c : Call} (hl : Linked db) (h : Knows db c .noEvent) :
    Knows db c (findActive db) := by
  rw [findActive]
  cases hactive : getActiveRow db with
  | none => exact trivial
  | some current =>
      have hmem := (getActiveRow_eq_some.mp hactive).1
      cases hprev : current.previousReleaseId with
      | none => simp only [hprev]; exact trivial
      | some previousId =>
          simp only [hprev]
          exact ⟨h, has_of_mem hmem, hl.previous current hmem _ hprev, hprev⟩

theorem knows_findPrevious {db : Db} {c : Call} {current : ModelRelease} {previousId : String}
    (hl : Linked db) (h : Knows db c (.active current previousId)) :
    Knows db c (Call.findPrevious db current previousId c) := by
  obtain ⟨hkey, hcur, hhas, hprev⟩ := h
  cases c with
  | rollbackActiveRelease activatedBy key now =>
      simp only [Call.findPrevious]
      split
      · exact trivial
      · next previous hheld =>
          split at hheld
          · next heq =>
              obtain rfl : current = previous := Option.some.inj hheld
              subst heq
              exact sane_rollback hl hprev hhas (Or.inl rfl)
          · obtain rfl := id_of_get hheld
            exact sane_rollback hl hprev hhas (Or.inr (Table.mem_of_get hheld))
  | registerCandidate | runReleaseGate | approveRelease | activateRelease => exact absurd rfl hkey

theorem knows_reconcile {db : Db} {c : Call} (h : Knows db c .conflicted) :
    Knows db c (Call.reconcile db c) := by
  cases c with
  | rollbackActiveRelease activatedBy key now =>
      simp only [Call.reconcile]
      cases hevent : findRollbackEvent db key with
      | none => exact trivial
      | some e => exact ⟨key, e, rfl, hevent, rfl⟩
  | registerCandidate | runReleaseGate | approveRelease | activateRelease => exact absurd rfl h

/-- A query leaves the tables, and what it finds is linked. -/
theorem knows_query {db : Db} {c : Call} {pc : Pc} (hl : Linked db) (h : Knows db c pc)
    (hpc : ∀ w, pc ≠ .ready w) :
    (Call.step c pc db).2 = db ∧ Knows db c (Call.step c pc db).1 := by
  cases pc with
  | ready w => exact absurd rfl (hpc w)
  | start => exact ⟨rfl, knows_begin hl c⟩
  | loaded r => exact ⟨rfl, knows_prepare hl h⟩
  | noEvent => exact ⟨rfl, knows_findActive hl h⟩
  | active current previousId => exact ⟨rfl, knows_findPrevious hl h⟩
  | conflicted => exact ⟨rfl, knows_reconcile h⟩
  | found | committed | finished => exact ⟨rfl, trivial⟩

/-- What a commit that goes through leaves its session knowing. -/
theorem knows_commit {db db' : Db} {c : Call} {w : Work} (h : Sane db c w)
    (hcommit : db.commit w = some db') : Knows db' c (Call.afterCommit w c) := by
  have hevent : ∀ k, rollbackKey c = some k →
      ∃ e, findRollbackEvent db' k = some e ∧ e.releaseId = w.result.releaseId := by
    intro k hk
    obtain ⟨htype, hresult⟩ := h.rollback (by rw [hk]; intro hs; cases hs)
    refine ⟨w.event, findRollbackEvent_eq_some.mpr ⟨?_, htype, h.key.trans hk⟩, hresult.symm⟩
    rw [(commit_all_rows hcommit).2]
    exact List.mem_append_right _ List.mem_cons_self
  cases c with
  | registerCandidate | runReleaseGate | approveRelease => exact trivial
  | activateRelease _ _ _ => exact hevent
  | rollbackActiveRelease _ _ _ => exact hevent

theorem knows_conflict {db : Db} {c : Call} : Knows db c (Call.afterConflict c) := by
  cases c with
  | rollbackActiveRelease _ _ _ => intro hs; cases hs
  | registerCandidate | runReleaseGate | approveRelease | activateRelease => exact trivial

/-- **ONE STEP** lets the tables grow, and keeps them linked and the session
    informed. -/
theorem step_linked {db : Db} {c : Call} {pc : Pc} (hl : Linked db) (h : Knows db c pc) :
    Grows db (Call.step c pc db).2 ∧ Linked (Call.step c pc db).2 ∧
      Knows (Call.step c pc db).2 c (Call.step c pc db).1 := by
  by_cases hready : ∃ w, pc = .ready w
  · obtain ⟨w, rfl⟩ := hready
    cases hcommit : db.commit w with
    | some db' =>
        rw [step_ready_some hcommit]
        exact ⟨grows_of_commit hcommit, linked_of_commit hl h hcommit, knows_commit h hcommit⟩
    | none =>
        rw [step_ready_none hcommit]
        exact ⟨Grows.refl db, hl, knows_conflict⟩
  · obtain ⟨hdb, hnext⟩ := knows_query hl h (fun w hw => hready ⟨w, hw⟩)
    rw [hdb]
    exact ⟨Grows.refl db, hl, hnext⟩

theorem linked_empty : Linked Db.empty where
  keyed _ he := absurd he List.not_mem_nil
  event _ he := absurd he List.not_mem_nil
  previous _ hr := absurd hr List.not_mem_nil

/-- A call with nothing in between keeps the tables linked. -/
theorem linked_serve {db : Db} (hl : Linked db) (c : Call) : Linked (serve db c) := by
  have hsteps : ∀ n pc d, Linked d → Knows d c pc → Linked (Call.steps c n pc d).2 := by
    intro n
    induction n with
    | zero => exact fun pc d hd _ => hd
    | succ n ih =>
        intro pc d hd hk
        obtain ⟨-, hd', hk'⟩ := step_linked hd hk
        exact ih _ _ hd' hk'
  have hrun := hsteps 6 .start db hl trivial
  rw [alone_eq_exec] at hrun
  exact hrun

/-- The tables after any serial history are linked. -/
theorem linked_history (calls : List Call) : Linked (run serve Db.empty calls) :=
  run_invariant (I := Linked) (fun _ c h => linked_serve h c) linked_empty calls

/-! ## Interleavings -/

/-- Linked tables, and sessions that know what they have read. -/
def Informed (call : ι → Call) (σ : Config ι Db Pc) : Prop :=
  Linked σ.db ∧ ∀ i, Knows σ.db (call i) (σ.pc i)

theorem informed_step {call : ι → Call} (σ : Config ι Db Pc) (i : ι) (h : Informed call σ) :
    Informed call (sys call σ i) := by
  obtain ⟨hg, hl, hk⟩ := step_linked h.1 (h.2 i)
  refine ⟨hl, ?_⟩
  intro j
  by_cases hj : j = i
  · subst hj
    show Knows _ (call j) ((fire _ σ j).pc j)
    rw [fire_pc_self]
    exact hk
  · show Knows _ (call j) ((fire _ σ i).pc j)
    rw [fire_pc_other σ hj]
    exact (h.2 j).grows hg

theorem informed_run {call : ι → Call} {σ : Config ι Db Pc} (h : Informed call σ)
    (sched : List ι) : Informed call (run (sys call) σ sched) :=
  run_invariant informed_step h sched

omit [DecidableEq ι] in
theorem informed_opened (call : ι → Call) {db : Db} (h : Linked db) :
    Informed call (opened db) :=
  ⟨h, fun _ => trivial⟩

theorem grows_run {call : ι → Call} {σ : Config ι Db Pc} (h : Informed call σ)
    (sched : List ι) : Grows σ.db (run (sys call) σ sched).db := by
  induction sched generalizing σ with
  | nil => exact Grows.refl _
  | cons i rest ih =>
      exact (step_linked h.1 (h.2 i)).1.trans (ih (informed_step σ i h))

/-- A session that has ended stays as it ended. -/
theorem finished_run {call : ι → Call} {σ : Config ι Db Pc} {j : ι} {o : Outcome}
    (h : σ.pc j = .finished o) (sched : List ι) :
    (run (sys call) σ sched).pc j = .finished o := by
  refine run_invariant (I := fun τ : Config ι Db Pc => τ.pc j = .finished o) ?_ h sched
  intro τ i hτ
  by_cases hj : j = i
  · subst hj
    show (fire _ τ j).pc j = _
    rw [fire_pc_self, hτ]
    rfl
  · show (fire _ τ i).pc j = _
    rw [fire_pc_other τ hj]
    exact hτ

omit [DecidableEq ι] in
theorem committing_eq_some {σ : Config ι Db Pc} {i : ι} {r : String} :
    committing σ i = some r ↔
      ∃ w db', σ.pc i = .ready w ∧ σ.db.commit w = some db' ∧ w.result.releaseId = r := by
  rw [committing]
  cases hpc : σ.pc i with
  | ready w =>
      simp only [Option.map_eq_some_iff]
      constructor
      · rintro ⟨db', hcommit, hr⟩
        exact ⟨w, db', rfl, hcommit, hr⟩
      · rintro ⟨w', db', hw, hcommit, hr⟩
        obtain rfl : w = w' := Pc.ready.inj hw
        exact ⟨db', hcommit, hr⟩
  | start => simp
  | loaded release => simp
  | noEvent => simp
  | active current previousId => simp
  | conflicted => simp
  | found id => simp
  | committed id => simp
  | finished o => simp

/-- The commit of a rollback finds its key free and records it. -/
theorem records_of_commits {call : ι → Call} {k r : String} {σ : Config ι Db Pc} {i : ι}
    (hi : Informed call σ) (h : CommitsRollback call k r σ i) :
    findRollbackEvent σ.db k = none ∧
      (∃ e, findRollbackEvent (sys call σ i).db k = some e ∧ e.releaseId = r) ∧
      (sys call σ i).pc i = .committed r := by
  obtain ⟨hkey, hcommitting⟩ := h
  obtain ⟨w, db', hpc, hcommit, rfl⟩ := committing_eq_some.mp hcommitting
  have hsane : Sane σ.db (call i) w := by
    have hk := hi.2 i
    rw [hpc] at hk
    exact hk
  have hstep : Call.step (call i) (σ.pc i) σ.db = (Call.afterCommit w (call i), db') := by
    rw [hpc]
    exact step_ready_some hcommit
  have hdb : (sys call σ i).db = db' := congrArg Prod.snd hstep
  have hpc' : (sys call σ i).pc i = Call.afterCommit w (call i) := by
    show (fire _ σ i).pc i = _
    rw [fire_pc_self, hstep]
  have hafter : Call.afterCommit w (call i) = .committed w.result.releaseId := by
    cases hc : call i with
    | rollbackActiveRelease _ _ _ => rfl
    | activateRelease _ _ _ => rfl
    | registerCandidate _ _ _ _ => rw [hc] at hkey; cases hkey
    | runReleaseGate _ _ => rw [hc] at hkey; cases hkey
    | approveRelease _ _ _ => rw [hc] at hkey; cases hkey
  refine ⟨?_, ?_, hpc'.trans hafter⟩
  · refine findRollbackEvent_eq_none.mpr ?_
    intro e he _
    exact key_free_of_commit hcommit (hsane.key.trans hkey) e he
  · have hknows := knows_commit hsane hcommit
    rw [hafter] at hknows
    rw [hdb]
    exact hknows k hkey

/-! ## After the commit -/

/-- Where a session with the key may stand after the commit of a rollback to
    `r`. -/
def Headed (r : String) : Pc → Prop
  | .finished o => o = .returned r
  | .found id => id = r
  | .committed id => id = r
  | _ => True

/-- **A SESSION WITH A RECORDED KEY HEADS FOR ITS RELEASE**, step by step, when
    its ACTIVE-row lookup finds a release to roll back. -/
theorem headed_step {db : Db} {c : Call} {pc : Pc} {k r : String} {e : AuditEvent}
    (hl : Linked db) (hknows : Knows db c pc) (hc : rollbackKey c = some k)
    (hevent : findRollbackEvent db k = some e) (hr : e.releaseId = r)
    (hlookup : atActiveLookup pc = true → ∃ current previousId,
      getActiveRow db = some current ∧ current.previousReleaseId = some previousId)
    (h : Headed r pc) : Headed r (Call.step c pc db).1 := by
  obtain ⟨activatedBy, now, rfl⟩ : ∃ activatedBy now,
      c = .rollbackActiveRelease activatedBy k now := by
    cases c with
    | rollbackActiveRelease activatedBy key now =>
        obtain rfl : key = k := Option.some.inj hc
        exact ⟨activatedBy, now, rfl⟩
    | registerCandidate | runReleaseGate | approveRelease | activateRelease => cases hc
  have hhas : returnRelease db r = .returned r := by
    obtain ⟨hmem, htype, -⟩ := findRollbackEvent_eq_some.mp hevent
    obtain ⟨x, hx⟩ := hl.event e hmem htype
    rw [hr] at hx
    rw [returnRelease]
    rw [hx]
    exact congrArg Outcome.returned (id_of_get hx)
  cases pc with
  | start =>
      simp only [Call.step, Call.begin, hevent]
      exact hr
  | loaded release => exact trivial
  | noEvent =>
      obtain ⟨current, previousId, hactive, hprev⟩ := hlookup rfl
      simp only [Call.step, findActive, hactive, hprev]
      exact trivial
  | active current previousId =>
      obtain ⟨-, -, ⟨x, hx⟩, -⟩ := hknows
      simp only [Call.step, Call.findPrevious]
      by_cases hself : previousId = current.releaseId
      · rw [if_pos hself]
        exact trivial
      · rw [if_neg hself, hx]
        exact trivial
  | ready w =>
      -- the key is taken: the commit is refused
      cases hcommit : db.commit w with
      | some db' =>
          have hsane : Sane db _ w := hknows
          obtain ⟨hmem, -, hkey⟩ := findRollbackEvent_eq_some.mp hevent
          exact absurd hkey (key_free_of_commit hcommit hsane.key e hmem)
      | none =>
          rw [step_ready_none hcommit]
          exact trivial
  | conflicted =>
      simp only [Call.step, Call.reconcile, hevent]
      exact hr
  | found id =>
      obtain rfl : id = r := h
      exact hhas
  | committed id =>
      obtain rfl : id = r := h
      rfl
  | finished o => exact h

/-- **EVERY OTHER SESSION RETURNS WHAT WAS COMMITTED** when the lookups of the
    sessions with the key find a release to roll back. -/
theorem returns_of_findsPrevious {call : ι → Call} {k r : String} {σ : Config ι Db Pc} {i : ι}
    {post : List ι} (hi : Informed call σ) (hcommits : CommitsRollback call k r σ i)
    (hguard : Along (sys call) (FindsPrevious call k) (sys call σ i) post) {j : ι} {o : Outcome}
    (hj : rollbackKey (call j) = some k) (hend : (run (sys call) σ (i :: post)).pc j = .finished o)
    (hopen : ∀ o', σ.pc j ≠ .finished o') : o = .returned r := by
  obtain ⟨hfree, ⟨e, hevent, hr⟩, hpc⟩ := records_of_commits hi hcommits
  have hstart : Headed r ((sys call σ i).pc j) := by
    by_cases hji : j = i
    · subst hji
      rw [hpc]
      rfl
    · have hsame : (sys call σ i).pc j = σ.pc j := fire_pc_other σ hji
      have hknows := hi.2 j
      rw [hsame]
      cases hp : σ.pc j with
      | finished o' => exact absurd hp (hopen o')
      | found id =>
          -- it would have found an event with a free key
          rw [hp] at hknows
          obtain ⟨k', e', hk', he', -⟩ := hknows
          obtain rfl : k = k' := Option.some.inj (hj.symm.trans hk')
          cases hfree.symm.trans he'
      | committed id =>
          rw [hp] at hknows
          obtain ⟨e', he', -⟩ := hknows k hj
          cases hfree.symm.trans he'
      | start | loaded | noEvent | active | ready | conflicted => exact trivial
  have hinv := run_invariant_along
    (I := fun τ : Config ι Db Pc => Informed call τ ∧ findRollbackEvent τ.db k = some e ∧
      Headed r (τ.pc j)) ?_ ⟨informed_step σ i hi, hevent, hstart⟩ hguard
  · have hlast := hinv.2.2
    rw [run_cons] at hend
    rw [hend] at hlast
    exact hlast
  · rintro τ i' ⟨hτ, he, hh⟩ hg
    have hgrows := (step_linked hτ.1 (hτ.2 i')).1
    refine ⟨informed_step τ i' hτ, hgrows.event he, ?_⟩
    by_cases hji : j = i'
    · subst hji
      show Headed r ((fire _ τ j).pc j)
      rw [fire_pc_self]
      exact headed_step hτ.1 (hτ.2 j) hj he hr (hg hj ⟨e, he⟩) hh
    · show Headed r ((fire _ τ i').pc j)
      rw [fire_pc_other τ hji]
      exact hh

/-! ## One event, one writer -/

/-- A recorded key stands in exactly one event. -/
theorem one_event {db : Db} {k : String} {e : AuditEvent} (h : findRollbackEvent db k = some e) :
    (db.audit.rows.filter
      (fun e => e.eventType = .rolledBack ∧ e.idempotencyKey = some k)).length = 1 := by
  obtain ⟨hmem, htype, hkey⟩ := findRollbackEvent_eq_some.mp h
  have hin : e ∈ db.audit.rows.filter
      (fun e => e.eventType = .rolledBack ∧ e.idempotencyKey = some k) := by
    rw [List.mem_filter]
    exact ⟨hmem, by simp [htype, hkey]⟩
  have hpair : (db.audit.rows.filter
      (fun e => e.eventType = .rolledBack ∧ e.idempotencyKey = some k)).Pairwise
      (fun a b => ¬ Clash a b) := db.audit.unclashed.filter _
  have hall : ∀ x ∈ db.audit.rows.filter
      (fun e => e.eventType = .rolledBack ∧ e.idempotencyKey = some k),
      x.idempotencyKey = some k := by
    intro x hx
    have hx' := (List.mem_filter.mp hx).2
    simp only [decide_eq_true_eq] at hx'
    exact hx'.2
  -- two elements of the filtered list would clash
  generalize db.audit.rows.filter
    (fun e => e.eventType = .rolledBack ∧ e.idempotencyKey = some k) = l at *
  rcases l with _ | ⟨a, _ | ⟨b, rest⟩⟩
  · cases hin
  · rfl
  · have ha := hall a List.mem_cons_self
    have hb := hall b (List.mem_cons_of_mem _ List.mem_cons_self)
    refine absurd ⟨?_, ha.trans hb.symm⟩ ((List.pairwise_cons.mp hpair).1 b List.mem_cons_self)
    rw [ha]
    intro hs
    cases hs

/-- A step that writes a release is a commit; that of a session with key `k`
    finds the key free and records it. -/
theorem writes_releases {call : ι → Call} {k : String} {σ : Config ι Db Pc} {j : ι}
    (hi : Informed call σ) (hj : rollbackKey (call j) = some k)
    (h : (sys call σ j).db.releases ≠ σ.db.releases) :
    ∃ r, CommitsRollback call k r σ j := by
  by_cases hready : ∃ w, σ.pc j = .ready w
  · obtain ⟨w, hpc⟩ := hready
    cases hcommit : σ.db.commit w with
    | some db' => exact ⟨_, hj, committing_eq_some.mpr ⟨w, db', hpc, hcommit, rfl⟩⟩
    | none =>
        refine absurd ?_ h
        show (Call.step (call j) (σ.pc j) σ.db).2.releases = _
        rw [hpc, step_ready_none hcommit]
  · refine absurd ?_ h
    show (Call.step (call j) (σ.pc j) σ.db).2.releases = _
    rw [(knows_query hi.1 (hi.2 j) (fun w hw => hready ⟨w, hw⟩)).1]

/-- A recorded key stays recorded along a schedule. -/
theorem recorded_run {call : ι → Call} {k r : String} {σ : Config ι Db Pc} {i : ι}
    (hi : Informed call σ) (h : CommitsRollback call k r σ i) (post : List ι) :
    ∃ e, findRollbackEvent (run (sys call) σ (i :: post)).db k = some e := by
  obtain ⟨-, ⟨e, he, -⟩, -⟩ := records_of_commits hi h
  exact ⟨e, (grows_run (informed_step σ i hi) post).event he⟩

/-- **ONE COMMIT PER KEY**: two positions of a schedule at which sessions commit
    a rollback with the same key are one position. -/
theorem one_commit {call : ι → Call} {k r r' : String} {σ : Config ι Db Pc}
    (hi : Informed call σ) {pre post pre' post' : List ι} {i j : ι}
    (heq : pre ++ i :: post = pre' ++ j :: post')
    (h : CommitsRollback call k r (run (sys call) σ pre) i)
    (h' : CommitsRollback call k r' (run (sys call) σ pre') j) : i = j := by
  -- the later of two commits would find the key recorded
  have hlater : ∀ {a : ι} {mid : List ι} {τ : Config ι Db Pc} {x : String},
      Informed call τ → CommitsRollback call k x τ a →
      findRollbackEvent (run (sys call) τ (a :: mid)).db k ≠ none := by
    intro a mid τ x hτ hx hnone
    obtain ⟨e, he⟩ := recorded_run hτ hx mid
    cases hnone.symm.trans he
  have hfree := (records_of_commits (informed_run hi pre) h).1
  have hfree' := (records_of_commits (informed_run hi pre') h').1
  rcases List.append_eq_append_iff.mp heq with ⟨mid, hpre, hrest⟩ | ⟨mid, hpre, hrest⟩
  · cases mid with
    | nil => exact (List.cons.inj hrest).1
    | cons a mid =>
        obtain rfl : i = a := (List.cons.inj hrest).1
        rw [hpre, run_append] at hfree'
        exact absurd hfree' (hlater (informed_run hi pre) h)
  · cases mid with
    | nil => exact (List.cons.inj hrest).1.symm
    | cons a mid =>
        obtain rfl : j = a := (List.cons.inj hrest).1
        rw [hpre, run_append] at hfree
        exact absurd hfree (hlater (informed_run hi pre') h')

/-! ## The exact condition -/

theorem retrySafe_of_findsPrevious {call : ι → Call} {k : String} {σ : Config ι Db Pc}
    (hi : Informed call σ) {sched : List ι}
    (hguard : Along (sys call) (FindsPrevious call k) σ sched) :
    RetrySafe call k σ sched := by
  intro pre i post r heq hcommits
  have hpre := informed_run hi pre
  refine ⟨?_, ?_, ?_⟩
  · intro j o hj hend hopen
    rw [heq, along_append] at hguard
    rw [heq, run_append] at hend
    exact returns_of_findsPrevious hpre hcommits hguard.2.2 hj hend hopen
  · obtain ⟨e, he⟩ := recorded_run hpre hcommits post
    rw [heq, run_append]
    exact one_event he
  · intro pre' j post' heq' hj hne
    by_contra hwrites
    obtain ⟨r', h'⟩ := writes_releases (informed_run hi pre') hj hwrites
    exact hne (one_commit hi (heq'.symm.trans heq) h' hcommits)

/-- The ACTIVE-row lookup comes right after an event lookup that found nothing. -/
theorem of_atActiveLookup {db : Db} {c : Call} {pc : Pc}
    (h : atActiveLookup (Call.step c pc db).1 = true) :
    ∃ k, rollbackKey c = some k ∧ findRollbackEvent db k = none := by
  have hload : ∀ id, atActiveLookup (load db id) = false := by
    intro id
    rw [load]
    cases db.releases.get id <;> rfl
  cases pc with
  | start =>
      change atActiveLookup (Call.begin db c) = true at h
      cases c with
      | rollbackActiveRelease activatedBy key now =>
          simp only [Call.begin] at h
          cases hevent : findRollbackEvent db key with
          | none => exact ⟨key, rfl, hevent⟩
          | some e =>
              rw [hevent] at h
              cases h
      | registerCandidate _ _ _ _ => cases h
      | runReleaseGate id _ => cases (hload id).symm.trans h
      | approveRelease id _ _ => cases (hload id).symm.trans h
      | activateRelease id _ _ => cases (hload id).symm.trans h
  | loaded release =>
      change atActiveLookup (Call.prepare db release c) = true at h
      cases c with
      | registerCandidate _ _ _ _ => cases h
      | rollbackActiveRelease _ _ _ => cases h
      | runReleaseGate _ backend =>
          simp only [Call.prepare] at h
          split at h <;> cases h
      | approveRelease _ _ _ =>
          simp only [Call.prepare] at h
          split at h <;> cases h
      | activateRelease _ _ _ =>
          simp only [Call.prepare] at h
          split at h <;> cases h
  | noEvent =>
      change atActiveLookup (findActive db) = true at h
      rw [findActive] at h
      split at h
      · cases h
      · split at h <;> cases h
  | active current previousId =>
      change atActiveLookup (Call.findPrevious db current previousId c) = true at h
      cases c with
      | rollbackActiveRelease _ _ _ =>
          simp only [Call.findPrevious] at h
          split at h <;> cases h
      | registerCandidate | runReleaseGate | approveRelease | activateRelease => cases h
  | ready w =>
      cases hcommit : db.commit w with
      | some db' =>
          rw [step_ready_some hcommit] at h
          cases c <;> cases h
      | none =>
          rw [step_ready_none hcommit] at h
          cases c <;> cases h
  | conflicted =>
      change atActiveLookup (Call.reconcile db c) = true at h
      cases c with
      | rollbackActiveRelease _ key _ =>
          simp only [Call.reconcile] at h
          split at h <;> cases h
      | registerCandidate | runReleaseGate | approveRelease | activateRelease => cases h
  | found | committed | finished => cases h

/-- With the key recorded, no session with the key waits for its ACTIVE-row
    lookup: it has found the event. -/
theorem not_atActiveLookup {call : ι → Call} {k : String} {db : Db} (hl : Linked db)
    (h : findRollbackEvent db k ≠ none) (sched : List ι) {j : ι}
    (hj : rollbackKey (call j) = some k) :
    atActiveLookup ((run (sys call) (opened db) sched).pc j) = false := by
  obtain ⟨e, he⟩ := Option.ne_none_iff_exists'.mp h
  have hstep : ∀ (τ : Config ι Db Pc) (i : ι),
      (Informed call τ ∧ findRollbackEvent τ.db k = some e ∧ atActiveLookup (τ.pc j) = false) →
      Informed call (sys call τ i) ∧ findRollbackEvent (sys call τ i).db k = some e ∧
        atActiveLookup ((sys call τ i).pc j) = false := by
    rintro τ i ⟨hτ, he, hpc⟩
    have hgrows := (step_linked hτ.1 (hτ.2 i)).1
    refine ⟨informed_step τ i hτ, hgrows.event he, ?_⟩
    by_cases hji : j = i
    · subst hji
      show atActiveLookup ((fire _ τ j).pc j) = false
      rw [fire_pc_self, Bool.eq_false_iff]
      intro hlookup
      obtain ⟨k', hk', hnone⟩ := of_atActiveLookup hlookup
      obtain rfl : k = k' := Option.some.inj (hj.symm.trans hk')
      cases hnone.symm.trans he
    · show atActiveLookup ((fire _ τ i).pc j) = false
      rw [fire_pc_other τ hji]
      exact hpc
  exact (run_invariant hstep ⟨informed_opened call hl, he, rfl⟩ sched).2.2

/-- A step that records a key is a commit of a rollback with that key. -/
theorem commits_of_records {call : ι → Call} {k : String} {σ : Config ι Db Pc} {i : ι}
    {e : AuditEvent} (hi : Informed call σ) (hnone : findRollbackEvent σ.db k = none)
    (he : findRollbackEvent (sys call σ i).db k = some e) :
    ∃ r, CommitsRollback call k r σ i := by
  change findRollbackEvent (Call.step (call i) (σ.pc i) σ.db).2 k = some e at he
  by_cases hready : ∃ w, σ.pc i = .ready w
  · obtain ⟨w, hpc⟩ := hready
    rw [hpc] at he
    have hsane : Sane σ.db (call i) w := by
      have hk := hi.2 i
      rw [hpc] at hk
      exact hk
    cases hcommit : σ.db.commit w with
    | none =>
        rw [step_ready_none hcommit] at he
        cases hnone.symm.trans he
    | some db' =>
        rw [step_ready_some hcommit] at he
        obtain ⟨hmem, htype, hkey⟩ := findRollbackEvent_eq_some.mp he
        rw [(commit_all_rows hcommit).2, List.mem_append, List.mem_singleton] at hmem
        rcases hmem with hold | rfl
        · exact absurd hkey (findRollbackEvent_eq_none.mp hnone e hold htype)
        · exact ⟨_, hsane.key.symm.trans hkey,
            committing_eq_some.mpr ⟨w, db', hpc, hcommit, rfl⟩⟩
  · rw [(knows_query hi.1 (hi.2 i) (fun w hw => hready ⟨w, hw⟩)).1] at he
    cases hnone.symm.trans he

/-- An ACTIVE-row lookup that finds nothing to roll back ends its call. -/
theorem findActive_raises {db : Db}
    (h : ¬ ∃ current previousId, getActiveRow db = some current ∧
      current.previousReleaseId = some previousId) :
    ∃ e, findActive db = .finished (.raised e) := by
  rw [findActive]
  cases hactive : getActiveRow db with
  | none => exact ⟨_, rfl⟩
  | some current =>
      cases hprev : current.previousReleaseId with
      | none => exact ⟨_, by simp only [hprev]; rfl⟩
      | some previousId => exact absurd ⟨current, previousId, hactive, hprev⟩ h

theorem findsPrevious_of_retrySafe {call : ι → Call} {k : String} {db : Db} (hl : Linked db)
    {sched : List ι} (h : RetrySafe call k (opened db) sched) :
    Along (sys call) (FindsPrevious call k) (opened db) sched := by
  refine along_of_forall_at ?_
  rintro pre j post heq hj ⟨e, he⟩ hlookup
  by_contra hno
  have hopened := informed_opened call hl
  -- the call ends with an error …
  have hpc : (run (sys call) (opened db) pre).pc j = .noEvent := by
    cases hp : (run (sys call) (opened db) pre).pc j with
    | noEvent => rfl
    | start => rw [hp] at hlookup; cases hlookup
    | loaded release => rw [hp] at hlookup; cases hlookup
    | active current previousId => rw [hp] at hlookup; cases hlookup
    | ready w => rw [hp] at hlookup; cases hlookup
    | conflicted => rw [hp] at hlookup; cases hlookup
    | found id => rw [hp] at hlookup; cases hlookup
    | committed id => rw [hp] at hlookup; cases hlookup
    | finished o => rw [hp] at hlookup; cases hlookup
  obtain ⟨err, herr⟩ := findActive_raises hno
  have hend : (run (sys call) (opened db) sched).pc j = .finished (.raised err) := by
    rw [heq, run_append, run_cons]
    refine finished_run ?_ post
    show (fire _ _ j).pc j = _
    rw [fire_pc_self, hpc]
    exact herr
  -- … although the key was recorded by a commit of this schedule
  have habsent : ¬ findRollbackEvent (opened db : Config ι Db Pc).db k ≠ none := by
    intro hrecorded
    have hnot : atActiveLookup ((run (sys call) (opened db) pre).pc j) = false :=
      not_atActiveLookup hl hrecorded pre hj
    rw [hpc] at hnot
    cases hnot
  have hpresent : findRollbackEvent (run (sys call) (opened db) pre).db k ≠ none := by
    rw [he]
    intro hs
    cases hs
  obtain ⟨pre₁, i, post₁, hpre, hbefore, hafter⟩ :=
    exists_turn (Q := fun τ : Config ι Db Pc => findRollbackEvent τ.db k ≠ none)
      habsent hpresent
  obtain ⟨e', he'⟩ := Option.ne_none_iff_exists'.mp hafter
  obtain ⟨r, hcommits⟩ := commits_of_records (informed_run hopened pre₁) (not_not.mp hbefore) he'
  have hsplit : sched = pre₁ ++ i :: (post₁ ++ j :: post) := by
    rw [heq, hpre, List.append_assoc]
    rfl
  have hreturned := (h pre₁ i (post₁ ++ j :: post) r hsplit hcommits).1 j _ hj hend ?_
  · cases hreturned
  · intro o' ho'
    have hstays : (run (sys call) _ (i :: post₁)).pc j = .finished o' := finished_run ho' _
    rw [← run_append, ← hpre, hpc] at hstays
    cases hstays

/-- **RETRIES ARE SAFE EXACTLY WHEN** no session with the key looks the ACTIVE
    row up after the key has been recorded and finds nothing to roll back; for
    any sessions, any schedule, and any serial history before it. -/
theorem retrySafe_iff (history : List Call) (call : ι → Call) (k : String) (sched : List ι) :
    RetrySafe call k (opened (run serve Db.empty history)) sched ↔
      Along (sys call) (FindsPrevious call k) (opened (run serve Db.empty history)) sched := by
  have hl := linked_history history
  exact ⟨findsPrevious_of_retrySafe hl, retrySafe_of_findsPrevious (informed_opened call hl)⟩

/-- Two retries of one rollback. -/
def retries : Bool → Call
  | true => .rollbackActiveRelease "alice" "incident" 1
  | false => .rollbackActiveRelease "bob" "incident" 1

/-- With two releases on the stack, the second commits between the first's
    event lookup and its ACTIVE-row lookup. -/
theorem retry_loses_to_winner :
    ¬ ∀ (history : List Call) (call : Bool → Call) (k : String) (sched : List Bool),
      RetrySafe call k (opened (run serve Db.empty history)) sched := by
  intro h
  have hsafe := h (released "a" ++ released "b") retries "incident"
    [true, false, false, false, false, true] [true, false, false, false] false [true] "a" rfl
    ⟨rfl, by decide⟩
  have hpc : (run (sys retries) (opened (run serve Db.empty (released "a" ++ released "b")))
      [true, false, false, false]).pc true = .noEvent := by decide
  have hreturned := hsafe.1 true (.raised (.noPreviousRelease "a")) rfl (by decide)
    (fun o' ho' => by cases hpc.symm.trans ho')
  cases hreturned

end RollbackRetry
