import OutcomeAssurance.DecisionDurability
import OutcomeAssurance.Interleaving

/-! # Concurrent runs of one case

    Any number of create, run and replay requests for one case.  A replay loads
    the case row when it starts; when it persists, its session still has that
    row, whatever has been committed since, and takes the next version from it.
    No stored version is ever compared. -/

namespace ReplayRace

open KeyedTable Interleaving Runs CaseModel PyRuntime Investigation Pipeline
open CaseStore CaseKeys CaseOwnership CaseIsolation CaseApi DecisionDurability

variable {R : Type} {api : Api R} {s s' : Store R} {caseId : String}

/-! ## One request in two steps -/

/-- The requests that run a case. -/
inductive CaseRequest where
  | create | run | replay
  deriving DecidableEq, Repr

/-- The rewrite of the case table by a loaded row. -/
def asLoaded (row r : CaseRow) : CaseRow := if r.caseId = row.caseId then row else r

theorem asLoaded_caseId (row r : CaseRow) : (asLoaded row r).caseId = r.caseId := by
  rw [asLoaded]
  split
  · next h => exact h.symm
  · rfl

theorem asLoaded_clash (row a b : CaseRow) (h : Clash (asLoaded row a) (asLoaded row b)) :
    Clash a b := by
  have hids : (asLoaded row a).caseId = (asLoaded row b).caseId := h
  rw [asLoaded_caseId, asLoaded_caseId] at hids
  exact hids

/-- The stored rows as a session finds them: a case row that it has loaded comes
    from its identity map. -/
def sessionView (s : Store R) : Option CaseRow → Store R
  | none => s
  | some row => { s with cases := s.cases.rewrite (asLoaded row) (asLoaded_clash row) }

/-- What a request reads before it runs the pipeline: only a replay loads the
    case row. -/
def readStep (api : Api R) (caseId : String) (s : Store R) :
    CaseRequest → Response ⊕ Option CaseRow
  | .create | .run =>
      if caseId ∉ api.registry.listAvailableCaseIds then .inl (.caseFixtureNotFound caseId)
      else .inr none
  | .replay =>
      match s.getCase caseId with
      | none => .inl (.caseNotFound caseId)
      | some row => .inr (some row)

/-- `run_case_pipeline` and `persist_case_run` in the session, with the row that
    is committed; what raises leaves the store as it was. -/
def persistStep (api : Api R) (caseId : String) (loaded : Option CaseRow) (s : Store R) :
    Response × Store R :=
  match api.registry.loadCaseFixture caseId with
  | none => (.serverError, s)
  | some f =>
      match f.job.persist api.runtime (sessionView s loaded) with
      | none => (.serverError, s)
      | some s' =>
          match s'.getCase f.case.caseId with
          | none => (.serverError, s')
          | some row => (.case row, s')

def request (api : Api R) (caseId : String) :
    Txn CaseRequest (Store R) (Option CaseRow) Response where
  read req s := readStep api caseId s req
  commit _ loaded s := persistStep api caseId loaded s

/-- The request has committed a run. -/
def committed : Response → Bool
  | .case _ => true
  | _ => false

/-! ## What a session finds -/

theorem caseIds_sessionView (s : Store R) (loaded : Option CaseRow) :
    caseIds (sessionView s loaded) = caseIds s := by
  cases loaded with
  | none => rfl
  | some row =>
      show (s.cases.rows.map (asLoaded row)).map CaseRow.caseId = s.cases.rows.map CaseRow.caseId
      rw [List.map_map]
      exact List.map_congr_left fun r _ => asLoaded_caseId row r

theorem getCase_sessionView (s : Store R) (row : CaseRow) (caseId : String) :
    (sessionView s (some row)).getCase caseId = (s.getCase caseId).map (asLoaded row) :=
  Table.get_of_map (asLoaded_caseId row) rfl caseId

/-- A row that was read before is still what the session finds. -/
theorem getCase_loaded {row : CaseRow} (hrow : row.caseId = caseId) (hstored : caseId ∈ caseIds s) :
    (sessionView s (some row)).getCase caseId = some row := by
  obtain ⟨stored, hget⟩ := Option.ne_none_iff_exists'.mp fun hnone =>
    getCase_eq_none.mp hnone hstored
  have hkey : stored.caseId = caseId := Table.key_of_get hget
  rw [getCase_sessionView, hget, Option.map_some, asLoaded, if_pos (hkey.trans hrow.symm)]

/-- A row that is still the stored one changes nothing. -/
theorem sessionView_fresh {row : CaseRow} (h : s.getCase caseId = some row) :
    sessionView s (some row) = s := by
  have hrows : s.cases.rows.map (asLoaded row) = s.cases.rows := by
    refine (List.map_congr_left fun r hr => ?_).trans (List.map_id _)
    rw [asLoaded]
    split
    · next hid => exact Table.eq_of_clash (Table.mem_of_get h) hr hid.symm
    · rfl
  have hcases : s.cases.rewrite (asLoaded row) (asLoaded_clash row) = s.cases := Table.ext hrows
  show { s with cases := _ } = s
  rw [hcases]

/-- Only the case row is taken from memory. -/
theorem stocked_sessionView (hs : Stocked api s) (loaded : Option CaseRow) :
    Stocked api (sessionView s loaded) := by
  have hids := caseIds_sessionView s loaded
  cases loaded with
  | none => exact hs
  | some row =>
      have howned := hs.owned
      refine ⟨?_, fun c hc => hs.filed c (hids ▸ hc)⟩
      constructor
      · exact hids.symm ▸ howned.evidence
      · exact hids.symm ▸ howned.claims
      · exact hids.symm ▸ howned.authorityRecords
      · exact hids.symm ▸ howned.reviewTasks
      · exact hids.symm ▸ howned.outcomes
      · exact hids.symm ▸ howned.traceEvents
      · exact hids.symm ▸ howned.agentRuns
      · exact hids.symm ▸ howned.agentSteps
      · exact hids.symm ▸ howned.agentHandoffs
      · exact hids.symm ▸ howned.guardrailReports
      · exact howned.stepRuns
      · exact howned.handoffRuns

/-! ## What a persist step does -/

/-- The stored `state_version` of the case; 0 before its first run. -/
def storedVersion (s : Store R) (caseId : String) : Nat :=
  ((s.getCase caseId).map CaseRow.stateVersion).getD 0

theorem next_version (s : Store R) (caseId : String) :
    (s.replaceExistingCase caseId).2 = storedVersion s caseId + 1 := by
  rw [Store.replaceExistingCase, storedVersion]
  cases s.getCase caseId <;> rfl

/-- The step has committed a row, with the version after the one its session
    found. -/
structure Commits (api : Api R) (caseId : String) (loaded : Option CaseRow) (s : Store R)
    (row : CaseRow) (s' : Store R) : Prop where
  result : persistStep api caseId loaded s = (.case row, s')
  stocked : Stocked api s'
  stored : s'.getCase caseId = some row
  version : row.stateVersion = storedVersion (sessionView s loaded) caseId + 1

theorem commits_of_persist (hs : Stocked api s) {loaded : Option CaseRow} {f : Fixture}
    (hload : api.registry.loadCaseFixture caseId = some f)
    (hpersist : f.job.persist api.runtime (sessionView s loaded) = some s') :
    ∃ row, Commits api caseId loaded s row s' := by
  have hview := stocked_sessionView hs loaded
  obtain ⟨a, -, hcase, hpersisted, -⟩ := persisted_of_persist hview.owned hpersist
  have hnamed : f.case.caseId = caseId := (api.registry.loaded hload).1
  have hid : a.case.caseId = caseId := by
    rw [hcase]
    exact hnamed
  have hrow : s'.getCase caseId
      = some (caseRow a (storedVersion (sessionView s loaded) caseId + 1)) := by
    have hinsert := hpersisted.cases
    rw [hid, next_version] at hinsert
    rw [Store.getCase, Table.get_of_insert hinsert]
    exact if_pos hid.symm
  have hstocked := stocked_run hview caseId
  rw [runAndPersist_snd, hload] at hstocked
  simp only [CaseIsolation.step, hpersist, Option.getD_some] at hstocked
  refine ⟨_, ?_, hstocked, hrow, rfl⟩
  rw [persistStep, hload]
  simp only [hpersist, hnamed, hrow]

/-- A persist step commits, or leaves the store as it was. -/
theorem persistStep_cases (hs : Stocked api s) (caseId : String) (loaded : Option CaseRow) :
    persistStep api caseId loaded s = (.serverError, s) ∨
      ∃ row s', Commits api caseId loaded s row s' := by
  cases hload : api.registry.loadCaseFixture caseId with
  | none =>
      left
      rw [persistStep, hload]
  | some f =>
      cases hpersist : f.job.persist api.runtime (sessionView s loaded) with
      | none =>
          left
          rw [persistStep, hload]
          simp only [hpersist]
      | some s' =>
          obtain ⟨row, hcommits⟩ := commits_of_persist hs hload hpersist
          exact Or.inr ⟨row, s', hcommits⟩

/-- Once the case is stored, every persist step commits. -/
theorem commits_of_stored (hs : Stocked api s) (hstored : caseId ∈ caseIds s)
    (loaded : Option CaseRow) : ∃ row s', Commits api caseId loaded s row s' := by
  have hview := stocked_sessionView hs loaded
  rw [← caseIds_sessionView s loaded] at hstored
  obtain ⟨f, hload, -⟩ := hview.filed caseId hstored
  obtain ⟨s', hpersist⟩ := rerun_persists hview hstored hload
  obtain ⟨row, hcommits⟩ := commits_of_persist hs hload hpersist
  exact ⟨row, s', hcommits⟩

theorem Commits.storedVersion_eq {loaded : Option CaseRow} {row : CaseRow}
    (h : Commits api caseId loaded s row s') : storedVersion s' caseId = row.stateVersion := by
  rw [storedVersion, h.stored, Option.map_some, Option.getD_some]

/-- The request with nothing in between is the endpoint. -/
theorem request_alone (api : Api R) (caseId : String) (req : CaseRequest) (s : Store R) :
    (request api caseId).alone req s =
      if req = .replay then api.replayCase s caseId else api.runFixture s caseId := by
  have hpersist : ∀ loaded, sessionView s loaded = s →
      persistStep api caseId loaded s = api.runAndPersist s caseId := by
    intro loaded hview
    simp only [persistStep, hview]
    rfl
  have hfixture : ∀ req, readStep api caseId s req
        = (if caseId ∉ api.registry.listAvailableCaseIds then .inl (.caseFixtureNotFound caseId)
          else .inr none) →
      (request api caseId).alone req s = api.runFixture s caseId := by
    intro req hread
    rw [Api.runFixture]
    by_cases havailable : caseId ∈ api.registry.listAvailableCaseIds
    · rw [if_neg (not_not.mpr havailable)] at hread ⊢
      rw [(Txn.step_idle_inr (M := request api caseId) hread).2]
      exact hpersist none rfl
    · rw [if_pos havailable] at hread ⊢
      exact (Txn.step_idle_inl (M := request api caseId) hread).2
  cases req with
  | create => exact hfixture .create rfl
  | run => exact hfixture .run rfl
  | replay =>
      rw [if_pos rfl, Api.replayCase]
      have hread : (request api caseId).read .replay s = readStep api caseId s .replay := rfl
      rw [readStep] at hread
      cases hget : s.getCase caseId with
      | none =>
          rw [hget] at hread
          exact (Txn.step_idle_inl (M := request api caseId) hread).2
      | some row =>
          rw [hget] at hread
          rw [(Txn.step_idle_inr (M := request api caseId) hread).2]
          exact hpersist (some row) (sessionView_fresh hget)

/-! ## All requests together -/

section Race

variable {ι : Type} [DecidableEq ι]

/-- One read or persist step of one request. -/
def sys (api : Api R) (caseId : String) (req : ι → CaseRequest) :
    Config ι (Store R) (Phase (Option CaseRow) Response) → ι →
      Config ι (Store R) (Phase (Option CaseRow) Response) :=
  (request api caseId).sched req

/-- Every request before its read, in a store that the given calls have led to. -/
def opened (api : Api R) (history : List Call) :
    Config ι (Store R) (Phase (Option CaseRow) Response) :=
  ⟨after api history, fun _ => .idle⟩

/-- What is asked of a schedule: no persist step with a stale row commits, each
    commit raises the stored version by one, and no two commit the same. -/
structure StaleRejected (api : Api R) (caseId : String) (history : List Call)
    (req : ι → CaseRequest) (sched : List ι) : Prop where
  rejected : ∀ pre i post row, sched = pre ++ i :: post →
    (run (sys api caseId req) (opened api history) pre).pc i = .ready (some row) →
    row.stateVersion
      ≠ storedVersion (run (sys api caseId req) (opened api history) pre).db caseId →
    ¬ Succeeded committed ((run (sys api caseId req) (opened api history) (pre ++ [i])).pc i)
  increments : ∀ pre i post, sched = pre ++ i :: post →
    ¬ Finished ((run (sys api caseId req) (opened api history) pre).pc i) →
    Succeeded committed ((run (sys api caseId req) (opened api history) (pre ++ [i])).pc i) →
    storedVersion (run (sys api caseId req) (opened api history) (pre ++ [i])).db caseId
      = storedVersion (run (sys api caseId req) (opened api history) pre).db caseId + 1
  distinct : ∀ i j row row',
    (run (sys api caseId req) (opened api history) sched).pc i = .done (.case row) →
    (run (sys api caseId req) (opened api history) sched).pc j = .done (.case row') →
    row.stateVersion = row'.stateVersion → i = j

/-- If the next step of the request persists with a loaded row, that row is of
    the stored version. -/
def PersistsFresh (caseId : String) (σ : Config ι (Store R) (Phase (Option CaseRow) Response))
    (i : ι) : Prop :=
  ∀ row, σ.pc i = .ready (some row) → row.stateVersion = storedVersion σ.db caseId

/-! ## What any interleaving keeps -/

/-- The store is a reachable one, and what a request has loaded is a row of the
    case, which is still stored. -/
structure Kept (api : Api R) (caseId : String)
    (σ : Config ι (Store R) (Phase (Option CaseRow) Response)) : Prop where
  stocked : Stocked api σ.db
  loaded : ∀ i row, σ.pc i = .ready (some row) → row.caseId = caseId ∧ caseId ∈ caseIds σ.db

/-- What one step of one request does. -/
inductive Moved (api : Api R) (caseId : String) (req : ι → CaseRequest)
    (σ : Config ι (Store R) (Phase (Option CaseRow) Response)) (i : ι) : Prop where
  | read (idle : σ.pc i = .idle) (same : (sys api caseId req σ i).db = σ.db)
      (none : ¬ Succeeded committed ((sys api caseId req σ i).pc i))
      (loads : ∀ row, (sys api caseId req σ i).pc i = .ready (some row) →
        σ.db.getCase caseId = some row)
  | failed (loaded : Option CaseRow) (ready : σ.pc i = .ready loaded)
      (same : (sys api caseId req σ i).db = σ.db)
      (result : (sys api caseId req σ i).pc i = .done .serverError)
  | commits (loaded : Option CaseRow) (row : CaseRow) (ready : σ.pc i = .ready loaded)
      (does : Commits api caseId loaded σ.db row (sys api caseId req σ i).db)
      (result : (sys api caseId req σ i).pc i = .done (.case row))
  | settled (r : Response) (done : σ.pc i = .done r) (same : (sys api caseId req σ i).db = σ.db)
      (result : (sys api caseId req σ i).pc i = .done r)

variable {req : ι → CaseRequest} {σ : Config ι (Store R) (Phase (Option CaseRow) Response)}

theorem sys_pc_other {i j : ι} (h : j ≠ i) : (sys api caseId req σ i).pc j = σ.pc j :=
  Txn.sched_pc_other σ h

/-- A read settles the result without committing, or loads at most the stored
    row. -/
theorem readStep_cases (api : Api R) (caseId : String) (s : Store R) (req : CaseRequest) :
    (∃ r, readStep api caseId s req = .inl r ∧ committed r = false) ∨
      ∃ loaded, readStep api caseId s req = .inr loaded ∧
        ∀ row, loaded = some row → s.getCase caseId = some row := by
  have hfixture : ∀ req, readStep api caseId s req
        = (if caseId ∉ api.registry.listAvailableCaseIds then .inl (.caseFixtureNotFound caseId)
          else .inr none) →
      (∃ r, readStep api caseId s req = .inl r ∧ committed r = false) ∨
        ∃ loaded, readStep api caseId s req = .inr loaded ∧
          ∀ row, loaded = some row → s.getCase caseId = some row := by
    intro req hread
    rw [hread]
    split
    · exact Or.inl ⟨_, rfl, rfl⟩
    · exact Or.inr ⟨none, rfl, fun row hrow => by cases hrow⟩
  cases req with
  | create => exact hfixture .create rfl
  | run => exact hfixture .run rfl
  | replay =>
      rw [readStep]
      cases hget : s.getCase caseId with
      | none => exact Or.inl ⟨_, rfl, rfl⟩
      | some row => exact Or.inr ⟨some row, rfl, fun row' hrow => hrow⟩

theorem moved (req : ι → CaseRequest) (h : Kept api caseId σ) (i : ι) :
    Moved api caseId req σ i := by
  have hself : (sys api caseId req σ i).pc i
      = ((request api caseId).step (req i) (σ.pc i) σ.db).1 := Txn.sched_pc_self σ i
  have hdb : (sys api caseId req σ i).db
      = ((request api caseId).step (req i) (σ.pc i) σ.db).2 := rfl
  cases hpc : σ.pc i with
  | idle =>
      rw [hpc] at hself hdb
      rcases readStep_cases api caseId σ.db (req i) with ⟨r, hread, hr⟩ | ⟨loaded, hread, hrow⟩
      · rw [(Txn.step_idle_inl (M := request api caseId) hread).1] at hself hdb
        refine .read hpc hdb ?_ ?_
        · rw [hself]
          exact fun hsucc => Bool.noConfusion (hr.symm.trans hsucc)
        · intro row hready
          rw [hself] at hready
          cases hready
      · rw [(Txn.step_idle_inr (M := request api caseId) hread).1] at hself hdb
        refine .read hpc hdb ?_ ?_
        · rw [hself]
          exact id
        · intro row hready
          rw [hself] at hready
          cases hready
          exact hrow row rfl
  | ready loaded =>
      rw [hpc] at hself hdb
      have hself : (sys api caseId req σ i).pc i
          = .done (persistStep api caseId loaded σ.db).1 := hself
      have hdb : (sys api caseId req σ i).db = (persistStep api caseId loaded σ.db).2 := hdb
      rcases persistStep_cases h.stocked caseId loaded with hfailed | ⟨row, s', hcommits⟩
      · rw [hfailed] at hself hdb
        exact .failed loaded hpc hdb hself
      · rw [hcommits.result] at hself hdb
        exact .commits loaded row hpc (hdb ▸ hcommits) hself
  | done r =>
      rw [hpc] at hself hdb
      exact .settled r hpc hdb hself

theorem mem_caseIds_of_get {row : CaseRow} (h : s.getCase caseId = some row) :
    caseId ∈ caseIds s := by
  by_contra hnot
  rw [getCase_eq_none.mpr hnot] at h
  cases h

/-- The other requests keep what they have loaded. -/
theorem kept_of_step (h : Kept api caseId σ) {i : ι}
    (hstocked : Stocked api (sys api caseId req σ i).db)
    (hmono : caseId ∈ caseIds σ.db → caseId ∈ caseIds (sys api caseId req σ i).db)
    (hself : ∀ row, (sys api caseId req σ i).pc i = .ready (some row) →
      row.caseId = caseId ∧ caseId ∈ caseIds (sys api caseId req σ i).db) :
    Kept api caseId (sys api caseId req σ i) := by
  refine ⟨hstocked, fun j row hready => ?_⟩
  by_cases hji : j = i
  · subst hji
    exact hself row hready
  · rw [sys_pc_other hji] at hready
    obtain ⟨hrow, hstored⟩ := h.loaded j row hready
    exact ⟨hrow, hmono hstored⟩

/-- **EACH STEP** keeps the store reachable and the case stored. -/
theorem kept_step (h : Kept api caseId σ) (i : ι) : Kept api caseId (sys api caseId req σ i) := by
  cases moved req h i with
  | read idle same none loads =>
      refine kept_of_step h (same ▸ h.stocked) (fun hstored => same ▸ hstored) fun row hready => ?_
      have hget := loads row hready
      exact ⟨Table.key_of_get hget, same ▸ mem_caseIds_of_get hget⟩
  | failed loaded ready same result =>
      refine kept_of_step h (same ▸ h.stocked) (fun hstored => same ▸ hstored) fun row hready => ?_
      rw [result] at hready
      cases hready
  | commits loaded row ready does result =>
      refine kept_of_step h does.stocked (fun _ => mem_caseIds_of_get does.stored)
        fun row' hready => ?_
      rw [result] at hready
      cases hready
  | settled r done same result =>
      refine kept_of_step h (same ▸ h.stocked) (fun hstored => same ▸ hstored) fun row hready => ?_
      rw [result] at hready
      cases hready

omit [DecidableEq ι] in
theorem kept_opened (api : Api R) (caseId : String) (history : List Call) :
    Kept api caseId (opened api history : Config ι (Store R) (Phase (Option CaseRow) Response)) :=
  ⟨stocked_after api history, fun i row hready => by cases hready⟩

theorem kept_run (api : Api R) (caseId : String) (history : List Call) (req : ι → CaseRequest)
    (sched : List ι) : Kept api caseId (run (sys api caseId req) (opened api history) sched) := by
  have hstep : ∀ σ i, Kept api caseId σ → Kept api caseId (sys api caseId req σ i) :=
    fun _ i h => kept_step h i
  exact run_invariant hstep (kept_opened api caseId history) sched

/-! ## Versions -/

omit [DecidableEq ι] in
/-- A persist step that is fresh commits the version after the stored one. -/
theorem version_of_fresh (h : Kept api caseId σ) {i : ι} (hfresh : PersistsFresh caseId σ i)
    {loaded : Option CaseRow} (hready : σ.pc i = .ready loaded) :
    storedVersion (sessionView σ.db loaded) caseId = storedVersion σ.db caseId := by
  cases loaded with
  | none => rfl
  | some row =>
      obtain ⟨hrow, hstored⟩ := h.loaded i row hready
      rw [storedVersion, getCase_loaded hrow hstored, Option.map_some, Option.getD_some]
      exact hfresh row hready

/-- The versions committed so far are different, and none is after the stored
    one. -/
structure Versioned (api : Api R) (caseId : String)
    (σ : Config ι (Store R) (Phase (Option CaseRow) Response)) : Prop where
  kept : Kept api caseId σ
  below : ∀ i row, σ.pc i = .done (.case row) → row.stateVersion ≤ storedVersion σ.db caseId
  distinct : ∀ i j row row', σ.pc i = .done (.case row) → σ.pc j = .done (.case row') →
    row.stateVersion = row'.stateVersion → i = j

/-- A step that commits nothing leaves the versions as they are. -/
theorem versioned_of_idle (h : Versioned api caseId σ) {i : ι}
    (hsame : (sys api caseId req σ i).db = σ.db)
    (hnone : ∀ row, (sys api caseId req σ i).pc i = .done (.case row) →
      σ.pc i = .done (.case row)) : Versioned api caseId (sys api caseId req σ i) := by
  have hback : ∀ j row, (sys api caseId req σ i).pc j = .done (.case row) →
      σ.pc j = .done (.case row) := by
    intro j row hdone
    by_cases hji : j = i
    · subst hji
      exact hnone row hdone
    · rwa [sys_pc_other hji] at hdone
  refine ⟨kept_step h.kept i, fun j row hj => ?_, fun j k row row' hj hk => ?_⟩
  · rw [hsame]
    exact h.below j row (hback j row hj)
  · exact h.distinct j k row row' (hback j row hj) (hback k row' hk)

/-- **A FRESH STEP** commits a version that nobody has committed before. -/
theorem versioned_step (h : Versioned api caseId σ) (i : ι)
    (hfresh : PersistsFresh caseId σ i) : Versioned api caseId (sys api caseId req σ i) := by
  cases moved req h.kept i with
  | read idle same none loads =>
      refine versioned_of_idle h same fun row hdone => ?_
      rw [hdone] at none
      exact absurd rfl none
  | failed loaded ready same result =>
      refine versioned_of_idle h same fun row hdone => ?_
      rw [result] at hdone
      cases hdone
  | commits loaded row ready does result =>
      have hversion : row.stateVersion = storedVersion σ.db caseId + 1 := by
        rw [does.version, version_of_fresh h.kept hfresh ready]
      have hnew : ∀ j row', j ≠ i → (sys api caseId req σ i).pc j = .done (.case row') →
          row'.stateVersion < row.stateVersion := by
        intro j row' hji hdone
        rw [sys_pc_other hji] at hdone
        have := h.below j row' hdone
        omega
      have hself : ∀ row', (sys api caseId req σ i).pc i = .done (.case row') → row' = row := by
        intro row' hdone
        rw [result] at hdone
        cases hdone
        rfl
      refine ⟨kept_step h.kept i, fun j row' hdone => ?_, fun j k rowj rowk hj hk heq => ?_⟩
      · rw [does.storedVersion_eq]
        by_cases hji : j = i
        · subst hji
          rw [hself row' hdone]
        · exact (hnew j row' hji hdone).le
      · by_cases hji : j = i
        · subst hji
          by_contra hkj
          have hlt := hnew k rowk (Ne.symm hkj) hk
          rw [← heq, hself rowj hj] at hlt
          exact lt_irrefl _ hlt
        · by_cases hki : k = i
          · subst hki
            have hlt := hnew j rowj hji hj
            rw [heq, hself rowk hk] at hlt
            exact absurd hlt (lt_irrefl _)
          · rw [sys_pc_other hji] at hj
            rw [sys_pc_other hki] at hk
            exact h.distinct j k rowj rowk hj hk heq
  | settled r done same result =>
      refine versioned_of_idle h same fun row hdone => ?_
      rw [done, ← result]
      exact hdone

omit [DecidableEq ι] in
theorem versioned_opened (api : Api R) (caseId : String) (history : List Call) :
    Versioned api caseId
      (opened api history : Config ι (Store R) (Phase (Option CaseRow) Response)) := by
  refine ⟨kept_opened api caseId history, fun i row hdone => ?_, fun i j row row' hi => ?_⟩
  · cases hdone
  · cases hi

/-! ## When stale writers are rejected -/

theorem rejected_of_fresh {history : List Call} {sched : List ι}
    (h : Along (sys api caseId req) (PersistsFresh caseId) (opened api history) sched) :
    StaleRejected api caseId history req sched := by
  refine ⟨fun pre i post row heq hready hne => ?_, fun pre i post heq hnot hsucc => ?_, ?_⟩
  · rw [heq] at h
    exact absurd (h.at row hready) hne
  · rw [heq] at h
    have hkept := kept_run api caseId history req pre
    rw [run_snoc] at hsucc ⊢
    cases moved req hkept i with
    | read idle same none loads => exact absurd hsucc none
    | failed loaded ready same result =>
        rw [result] at hsucc
        cases hsucc
    | commits loaded row ready does result =>
        rw [does.storedVersion_eq, does.version, version_of_fresh hkept h.at ready]
    | settled r done same result =>
        rw [done] at hnot
        exact absurd trivial hnot
  · have hstep : ∀ σ i, Versioned api caseId σ → PersistsFresh caseId σ i →
        Versioned api caseId (sys api caseId req σ i) := fun _ i hv hf => versioned_step hv i hf
    exact (run_invariant_along hstep (versioned_opened api caseId history) h).distinct

/-- A stale persist step is not rejected. -/
theorem fresh_of_rejected {history : List Call} {sched : List ι}
    (h : StaleRejected api caseId history req sched) :
    Along (sys api caseId req) (PersistsFresh caseId) (opened api history) sched := by
  refine along_of_forall_at fun pre i post heq row hready => ?_
  by_contra hne
  have hkept := kept_run api caseId history req pre
  obtain ⟨row', s', hcommits⟩ := commits_of_stored hkept.stocked (hkept.loaded i row hready).2
    (some row)
  refine h.rejected pre i post row heq hready hne ?_
  have hresult : (run (sys api caseId req) (opened api history) (pre ++ [i])).pc i
      = .done (.case row') := by
    rw [run_snoc, show (sys api caseId req _ i).pc i = _ from Txn.sched_pc_self _ i, hready]
    show Phase.done (persistStep api caseId (some row) _).1 = _
    rw [hcommits.result]
  rw [hresult]
  exact rfl

/-- **STALE WRITERS ARE REJECTED EXACTLY WHEN** there are none: no other run of
    the case is committed between the read of a replay and its persist step. -/
theorem staleRejected_iff (api : Api R) (caseId : String) (history : List Call)
    (req : ι → CaseRequest) (sched : List ι) :
    StaleRejected api caseId history req sched ↔
      Along (sys api caseId req) (PersistsFresh caseId) (opened api history) sched :=
  ⟨fresh_of_rejected, rejected_of_fresh⟩

/-- A replay that starts loads the stored row. -/
theorem replay_loads {i : ι} {row : CaseRow} (hidle : σ.pc i = .idle) (hreq : req i = .replay)
    (hget : σ.db.getCase caseId = some row) :
    (sys api caseId req σ i).pc i = .ready (some row) ∧ (sys api caseId req σ i).db = σ.db := by
  have hread : (request api caseId).read (req i) σ.db = .inr (some row) := by
    show readStep api caseId σ.db (req i) = _
    rw [hreq, readStep, hget]
  have hstep := (Txn.step_idle_inr hread).1
  rw [← hidle] at hstep
  refine ⟨?_, congrArg Prod.snd hstep⟩
  rw [show (sys api caseId req σ i).pc i = _ from Txn.sched_pc_self σ i, hstep]

end Race

/-! ## Two replays -/

/-- Two replays that both load the row before either persists: both commit. -/
theorem both_replays_commit (api : Api R) {caseId : String} {history : List Call}
    (hstored : caseId ∈ caseIds (after api history)) :
    ¬ StaleRejected api caseId history (fun _ : Bool => .replay) [true, false, true, false] := by
  intro h
  let req : Bool → CaseRequest := fun _ => .replay
  let σ₀ : Config Bool (Store R) (Phase (Option CaseRow) Response) := opened api history
  let σ₁ := sys api caseId req σ₀ true
  let σ₂ := sys api caseId req σ₁ false
  let σ₃ := sys api caseId req σ₂ true
  obtain ⟨row, hget⟩ := Option.ne_none_iff_exists'.mp fun hnone =>
    getCase_eq_none.mp hnone hstored
  -- both read, the first persists, the second is to persist
  have hfirst : σ₁.pc true = .ready (some row) ∧ σ₁.db = σ₀.db := replay_loads rfl rfl hget
  have hsecond : σ₂.pc false = .ready (some row) ∧ σ₂.db = σ₁.db :=
    replay_loads (sys_pc_other (by decide)) rfl (by rw [hfirst.2]; exact hget)
  have hpc : σ₂.pc true = .ready (some row) := (sys_pc_other (by decide)).trans hfirst.1
  have hwaiting : σ₃.pc false = .ready (some row) := (sys_pc_other (by decide)).trans hsecond.1
  have hkept : Kept api caseId σ₂ := kept_run api caseId history req [true, false]
  obtain ⟨hrow, hstored₂⟩ := hkept.loaded true row hpc
  obtain ⟨row', s', hcommits⟩ := commits_of_stored hkept.stocked hstored₂ (some row)
  have hdb : σ₃.db = s' := by
    show ((request api caseId).step (req true) (σ₂.pc true) σ₂.db).2 = s'
    rw [hpc]
    exact congrArg Prod.snd hcommits.result
  have hfresh : row.stateVersion = storedVersion σ₃.db caseId :=
    (fresh_of_rejected h).2.2.2.1 row hwaiting
  rw [hdb, hcommits.storedVersion_eq, hcommits.version, storedVersion,
    getCase_loaded hrow hstored₂, Option.map_some, Option.getD_some] at hfresh
  omega

/-- The shipped hero case is created, and then replayed twice at once. -/
theorem hero_replayed_twice :
    ¬ StaleRejected demoApi "CASE-RET-001" [demoCall (.createCase "CASE-RET-001")]
      (fun _ : Bool => .replay) [true, false, true, false] := by
  have hload : demoApi.registry.loadCaseFixture "CASE-RET-001" = some shipped.hero := rfl
  obtain ⟨a, -, hcase, hpersisted⟩ := demo_created hload
  refine both_replays_commit demoApi ?_
  have hmem := mem_caseIds_persisted hpersisted
  rwa [hcase] at hmem

end ReplayRace
