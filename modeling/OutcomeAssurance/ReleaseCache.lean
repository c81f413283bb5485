import OutcomeAssurance.ReleaseQueries

/-! # The process-local cache of the ACTIVE release

    One process executes the lifecycle calls query by query, with
    `_ACTIVE_CACHE` beside the tables, and may be restarted before any of its
    steps.  `cache_mirrors_db`: whenever no call is in progress, the cache is
    the ACTIVE row, or the bootstrap value. -/

namespace ReleaseCache

open KeyedTable Interleaving Runs ReleaseModel ReleaseCommit ReleaseSteps ReleaseQueries

/-- `ActiveModelInfo`. -/
structure ActiveModelInfo where
  releaseId : String
  modelName : String
  checkpointId : String
  deriving DecidableEq, Repr

/-- The initial `_ACTIVE_CACHE`; the checkpoint id is the first twelve digits
    of the SHA-256 of `deterministic-fake-model-v1`. -/
def bootstrap : ActiveModelInfo where
  releaseId := "RELEASE-BOOTSTRAP"
  modelName := "deterministic-fake-model"
  checkpointId := "b87baf01b6ef"

def infoOf (r : ModelRelease) : ActiveModelInfo :=
  ⟨r.releaseId, r.modelName, r.checkpointId⟩

/-- `_sync_cache` of a release whose columns the commit has expired: they are
    read again from its row. -/
def syncCache (db : Db) (releaseId : String) (cache : ActiveModelInfo) : ActiveModelInfo :=
  match db.releases.get releaseId with
  | some r => infoOf r
  | none => cache

/-- `hydrate_active_cache_from_db`. -/
def hydrateActiveCacheFromDb (db : Db) (cache : ActiveModelInfo) : ActiveModelInfo :=
  match getActiveRow db with
  | some r => infoOf r
  | none => cache

/-- The tables, the cache, and the call in progress. -/
structure Process where
  db : Db
  cache : ActiveModelInfo
  current : Option (Call × Pc)

/-- A process that has just started. -/
def Process.boot (db : Db) : Process :=
  ⟨db, hydrateActiveCacheFromDb db bootstrap, none⟩

/-- The cache after a step taken from this point of a call. -/
def cacheAfter (db : Db) (cache : ActiveModelInfo) : Pc → ActiveModelInfo
  | .committed releaseId => syncCache db releaseId cache
  | _ => cache

/-- The process whose call has reached this point. -/
def Process.reach (db : Db) (cache : ActiveModelInfo) (c : Call) : Pc → Process
  | .finished _ => ⟨db, cache, none⟩
  | pc => ⟨db, cache, some (c, pc)⟩

inductive Action where
  | begin (c : Call)
  | tick
  | restart

/-- One action of the process.  A call in progress keeps the next one waiting. -/
def Process.step (s : Process) : Action → Process
  | .begin c =>
      match s.current with
      | none => { s with current := some (c, .start) }
      | some _ => s
  | .tick =>
      match s.current with
      | none => s
      | some (c, pc) =>
          Process.reach (Call.step c pc s.db).2 (cacheAfter s.db s.cache pc) c
            (Call.step c pc s.db).1
  | .restart => Process.boot s.db

/-- What `get_active_model_info` should return. -/
def expected (db : Db) : ActiveModelInfo :=
  match getActiveRow db with
  | some r => infoOf r
  | none => bootstrap

/-- When no call is in progress, the cache is what the tables say. -/
def Mirrors (s : Process) : Prop := s.current = none → s.cache = expected s.db

/-! ## What a call in progress knows -/

/-- The call is given this release. -/
def Call.names : Call → Option String
  | .runReleaseGate releaseId _ => some releaseId
  | .approveRelease releaseId _ _ => some releaseId
  | .activateRelease releaseId _ _ => some releaseId
  | _ => none

/-- What the point a call has reached says about the tables, as long as nobody
    else writes them. -/
def Fits (db : Db) (c : Call) : Pc → Prop
  | .loaded r => ∃ id, Call.names c = some id ∧ db.releases.get id = some r
  | .noEvent => ∃ activatedBy key now, c = .rollbackActiveRelease activatedBy key now ∧
      findRollbackEvent db key = none
  | .active current previousId => (∃ activatedBy key now,
      c = .rollbackActiveRelease activatedBy key now ∧ findRollbackEvent db key = none) ∧
      getActiveRow db = some current ∧ current.previousReleaseId = some previousId
  | .ready w => Planned db c w
  | .committed releaseId => (getActiveRow db).map (·.releaseId) = some releaseId
  | _ => True

theorem fits_load {db : Db} {c : Call} {id : String} (hid : Call.names c = some id) :
    Fits db c (load db id) := by
  rw [load]
  cases hget : db.releases.get id with
  | none => exact trivial
  | some r => exact ⟨id, hid, hget⟩

theorem fits_begin (db : Db) (c : Call) : Fits db c (Call.begin db c) := by
  cases c with
  | registerCandidate id model checkpoint config => exact .register id model checkpoint config
  | runReleaseGate | approveRelease | activateRelease => exact fits_load rfl
  | rollbackActiveRelease activatedBy key now =>
      simp only [Call.begin]
      cases hevent : findRollbackEvent db key with
      | none => exact ⟨activatedBy, key, now, rfl, hevent⟩
      | some e => exact trivial

/-- What is prepared from a loaded row is planned. -/
theorem fits_prepare {db : Db} {c : Call} {r : ModelRelease} (h : Fits db c (.loaded r)) :
    Fits db c (Call.prepare db r c) := by
  obtain ⟨id, hid, hget⟩ := h
  obtain rfl := id_of_get hget
  cases c with
  | registerCandidate _ _ _ _ => cases hid
  | rollbackActiveRelease _ _ _ => cases hid
  | runReleaseGate id backend =>
      obtain rfl : id = r.releaseId := Option.some.inj hid
      simp only [Call.prepare]
      cases hreasons : gateReasons backend gateSyntheticPrompts with
      | none => exact trivial
      | some reasons => exact .gate hget hreasons
  | approveRelease id approvedBy now =>
      obtain rfl : id = r.releaseId := Option.some.inj hid
      simp only [Call.prepare]
      split
      · exact trivial
      · next hgate => exact .approve hget (not_not.mp hgate)
  | activateRelease id activatedBy now =>
      obtain rfl : id = r.releaseId := Option.some.inj hid
      simp only [Call.prepare]
      cases hok : activationRefusal r with
      | none => exact .activate hget hok
      | some e => exact trivial

theorem fits_findActive {db : Db} {c : Call} (h : Fits db c .noEvent) :
    Fits db c (findActive db) := by
  rw [findActive]
  cases hactive : getActiveRow db with
  | none => exact trivial
  | some current =>
      cases hprev : current.previousReleaseId with
      | none => simp only [hprev]; exact trivial
      | some previousId => simp only [hprev]; exact ⟨h, hactive, hprev⟩

theorem fits_findPrevious {db : Db} {c : Call} {current : ModelRelease} {previousId : String}
    (h : Fits db c (.active current previousId)) :
    Fits db c (Call.findPrevious db current previousId c) := by
  obtain ⟨⟨activatedBy, key, now, rfl, hevent⟩, hactive, hprev⟩ := h
  -- a row that points to itself is not loaded a second time
  have hget : (if previousId = current.releaseId then some current
      else db.releases.get previousId) = db.releases.get previousId := by
    split
    · next heq => rw [heq, get_of_getActiveRow hactive]
    · rfl
  simp only [Call.findPrevious, hget]
  cases hp : db.releases.get previousId with
  | none => exact trivial
  | some previous =>
      obtain rfl := id_of_get hp
      exact .rollback hevent hactive hprev hp

theorem fits_reconcile (db : Db) (c : Call) : Fits db c (Call.reconcile db c) := by
  cases c with
  | rollbackActiveRelease activatedBy key now =>
      simp only [Call.reconcile]
      cases findRollbackEvent db key <;> exact trivial
  | registerCandidate | runReleaseGate | approveRelease | activateRelease => exact trivial

/-- A query leaves the tables and adds what it has found. -/
theorem fits_query {db : Db} {c : Call} {pc : Pc} (h : Fits db c pc)
    (hpc : ∀ w, pc ≠ .ready w) :
    (Call.step c pc db).2 = db ∧ Fits db c (Call.step c pc db).1 := by
  cases pc with
  | ready w => exact absurd rfl (hpc w)
  | start => exact ⟨rfl, fits_begin db c⟩
  | loaded r => exact ⟨rfl, fits_prepare h⟩
  | noEvent => exact ⟨rfl, fits_findActive h⟩
  | active current previousId => exact ⟨rfl, fits_findPrevious h⟩
  | conflicted => exact ⟨rfl, fits_reconcile db c⟩
  | found | committed | finished => exact ⟨rfl, trivial⟩

/-! ## What a commit does to the ACTIVE row -/

/-- Rows that keep their status and served columns leave the expected value. -/
theorem expected_congr {db db' : Db}
    (h : ∀ id, (db'.releases.get id).map (fun r => (r.status, infoOf r))
      = (db.releases.get id).map (fun r => (r.status, infoOf r))) :
    expected db' = expected db := by
  have hof : ∀ {a b : Db}, (∀ id, (b.releases.get id).map (fun r => (r.status, infoOf r))
      = (a.releases.get id).map (fun r => (r.status, infoOf r))) →
      ∀ r, getActiveRow a = some r → ∃ r', getActiveRow b = some r' ∧ infoOf r' = infoOf r := by
    intro a b hab r hr
    have hcol := hab r.releaseId
    rw [get_of_getActiveRow hr, Option.map_some] at hcol
    obtain ⟨r', hr', hpair⟩ := Option.map_eq_some_iff.mp hcol
    obtain ⟨hstatus, hinfo⟩ := Prod.mk.inj hpair
    exact ⟨r', getActiveRow_eq_some.mpr ⟨Table.mem_of_get hr',
      hstatus.trans (status_of_getActiveRow hr)⟩, hinfo⟩
  rw [expected, expected]
  cases hr : getActiveRow db with
  | some r =>
      obtain ⟨r', hr', hinfo⟩ := hof h r hr
      rw [hr']
      exact hinfo
  | none =>
      cases hr' : getActiveRow db' with
      | none => rfl
      | some r' =>
          obtain ⟨r, hr'', -⟩ := hof (fun id => (h id).symm) r' hr'
          cases hr.symm.trans hr''

/-- Registering a candidate leaves the ACTIVE row. -/
theorem expected_of_registered {db db' : Db} {r : ModelRelease} {e : AuditEvent}
    (hnew : db.releases.get r.releaseId = none) (hcand : r.status = .candidate)
    (hw : Wrote db db' [r] e) : expected db' = expected db := by
  have hactive : ∀ x, getActiveRow db' = some x ↔ getActiveRow db = some x := by
    intro x
    rw [getActiveRow_eq_some, getActiveRow_eq_some]
    constructor
    · rintro ⟨hx, hs⟩
      have hself : db'.releases.get x.releaseId = some x := Table.get_key hx
      have hget := hw.get_one x.releaseId
      rw [hself] at hget
      split at hget
      · rw [Option.some.inj hget, hcand] at hs
        cases hs
      · exact ⟨Table.mem_of_get hget.symm, hs⟩
    · rintro ⟨hx, hs⟩
      have hget := hw.get_one x.releaseId
      have hne : x.releaseId ≠ r.releaseId := by
        intro heq
        rw [← heq] at hnew
        cases hnew.symm.trans (Table.get_key hx)
      rw [if_neg hne] at hget
      exact ⟨Table.mem_of_get (hget.trans (Table.get_key hx)), hs⟩
  have heq : getActiveRow db' = getActiveRow db := by
    apply Option.ext
    exact hactive
  rw [expected, expected]
  rw [heq]

/-- **WHAT A COMMIT LEAVES TO DO**: either the ACTIVE row is the release whose
    cache entry is still to be written, or the call is over and the ACTIVE row
    serves what it served. -/
theorem commit_fits {db db' : Db} {c : Call} {w : Work} (hplan : Planned db c w)
    (hcommit : db.commit w = some db') :
    (∃ id, Call.afterCommit w c = .committed id ∧
        (getActiveRow db').map (·.releaseId) = some id) ∨
      (∃ o, Call.afterCommit w c = .finished o ∧ expected db' = expected db) := by
  cases hplan with
  | register id model checkpoint config =>
      obtain ⟨hnew, hwrote⟩ := wrote_of_register hcommit
      exact Or.inr ⟨_, rfl, expected_of_registered hnew rfl hwrote⟩
  | gate hget hreasons =>
      have hwrote : Wrote db db' [(gateWork _ _).result] _ :=
        wrote_of_one hget rfl rfl rfl hcommit
      exact Or.inr ⟨_, rfl, expected_congr (hwrote.column_eq hget rfl)⟩
  | approve hget hgate =>
      have hwrote : Wrote db db' [(approveWork _ _ _).result] _ :=
        wrote_of_one hget rfl rfl rfl hcommit
      exact Or.inr ⟨_, rfl, expected_congr (hwrote.column_eq hget rfl)⟩
  | @activate activatedBy now r hget hok =>
      have hrow := (wrote_of_activate hget hok hcommit).get_head
      refine Or.inl ⟨r.releaseId, congrArg Pc.committed result_of_activate, ?_⟩
      exact statusOf_active.mp (statusOf_eq_some.mpr ⟨_, hrow, rfl⟩)
  | @rollback activatedBy key now current previous hevent hactive hprev hget =>
      have hrow := (wrote_of_rollback hactive hget hcommit).get_head
      refine Or.inl ⟨previous.releaseId, congrArg Pc.committed result_of_rollback, ?_⟩
      have hid : (restored (if previous.releaseId = current.releaseId then revoked current now
          else previous) activatedBy now).releaseId = previous.releaseId := by
        rw [restored_releaseId]
        split
        · next heq => rw [revoked_releaseId, heq]
        · rfl
      rw [hid] at hrow
      exact statusOf_active.mp (statusOf_eq_some.mpr ⟨_, hrow, rfl⟩)

/-! ## The process -/

/-- The invariant of the process: a call in progress knows the tables, and the
    cache agrees with them unless it is about to be synchronised. -/
def Consistent (s : Process) : Prop :=
  match s.current with
  | none => s.cache = expected s.db
  | some (c, pc) => Fits s.db c pc ∧ ((∀ id, pc ≠ .committed id) → s.cache = expected s.db)

theorem consistent_boot (db : Db) : Consistent (Process.boot db) := by
  show hydrateActiveCacheFromDb db bootstrap = expected db
  rfl

/-- The cache after `_sync_cache` of the ACTIVE row. -/
theorem syncCache_active {db : Db} {id : String} {cache : ActiveModelInfo}
    (h : (getActiveRow db).map (·.releaseId) = some id) :
    syncCache db id cache = expected db := by
  obtain ⟨r, hr, rfl⟩ := Option.map_eq_some_iff.mp h
  rw [syncCache, expected]
  rw [get_of_getActiveRow hr, hr]

theorem consistent_reach {db : Db} {cache : ActiveModelInfo} {c : Call} {pc : Pc}
    (hfits : Fits db c pc) (hcache : (∀ id, pc ≠ .committed id) → cache = expected db) :
    Consistent (Process.reach db cache c pc) := by
  cases pc with
  | finished o => exact hcache (fun id hs => by cases hs)
  | start | loaded | noEvent | active | ready | conflicted | found | committed =>
      exact ⟨hfits, hcache⟩

/-- The cache a step leaves agrees with the tables the step has seen. -/
theorem cacheAfter_eq {db : Db} {cache : ActiveModelInfo} {c : Call} {pc : Pc}
    (hfits : Fits db c pc) (hcache : (∀ id, pc ≠ .committed id) → cache = expected db) :
    cacheAfter db cache pc = expected db := by
  cases pc with
  | committed id => exact syncCache_active hfits
  | start => exact hcache (fun id hs => by cases hs)
  | loaded r => exact hcache (fun id hs => by cases hs)
  | noEvent => exact hcache (fun id hs => by cases hs)
  | active current previousId => exact hcache (fun id hs => by cases hs)
  | ready w => exact hcache (fun id hs => by cases hs)
  | conflicted => exact hcache (fun id hs => by cases hs)
  | found id => exact hcache (fun id hs => by cases hs)
  | finished o => exact hcache (fun id hs => by cases hs)

/-- A query or commit of the call in progress keeps the process consistent. -/
theorem consistent_tick {db : Db} {cache : ActiveModelInfo} {c : Call} {pc : Pc}
    (h : Consistent ⟨db, cache, some (c, pc)⟩) :
    Consistent (Process.step ⟨db, cache, some (c, pc)⟩ .tick) := by
  obtain ⟨hfits, hcache⟩ := h
  have hsync := cacheAfter_eq hfits hcache
  show Consistent (Process.reach (Call.step c pc db).2 (cacheAfter db cache pc) c
    (Call.step c pc db).1)
  rw [hsync]
  by_cases hready : ∃ w, pc = .ready w
  · obtain ⟨w, rfl⟩ := hready
    cases hcommit : db.commit w with
    | some db' =>
        rw [step_ready_some hcommit]
        rcases commit_fits hfits hcommit with ⟨id, hpc, hactive⟩ | ⟨o, hpc, hsame⟩
        · rw [hpc]
          exact consistent_reach hactive (fun hne => absurd rfl (hne id))
        · rw [hpc]
          exact hsame.symm
    | none =>
        rw [step_ready_none hcommit]
        refine consistent_reach ?_ (fun _ => rfl)
        cases c <;> exact trivial
  · obtain ⟨hdb, hnext⟩ := fits_query hfits (fun w hw => hready ⟨w, hw⟩)
    rw [hdb]
    exact consistent_reach hnext (fun _ => rfl)

/-- Every action keeps the process consistent. -/
theorem consistent_step (s : Process) (a : Action) (h : Consistent s) :
    Consistent (s.step a) := by
  obtain ⟨db, cache, current⟩ := s
  cases a with
  | restart => exact consistent_boot db
  | tick =>
      cases current with
      | none => exact h
      | some cp => exact consistent_tick h
  | begin c =>
      cases current with
      | none => exact ⟨trivial, fun _ => h⟩
      | some cp => exact h

/-- **THE CACHE MIRRORS THE TABLES** whenever no call is in progress, whatever
    calls and restarts came before and wherever the restarts struck. -/
theorem cache_mirrors_db (db : Db) (actions : List Action) :
    Mirrors (run Process.step (Process.boot db) actions) := by
  have h := run_invariant consistent_step (consistent_boot db) actions
  intro hidle
  rw [Consistent] at h
  rw [hidle] at h
  exact h

end ReleaseCache
