import OutcomeAssurance.CaseQueries
import OutcomeAssurance.ReplayRace

/-! # The case API, statement by statement

    Requests that are served at once share the database, which takes a `SELECT`
    by itself, and what a session writes, from its first write to its commit,
    as one transaction.  So a request can be overtaken between two reads, between
    its reads and its commit, and before the row that it has committed is read
    back for the response.  What a run writes it also dates, so an answer can
    tell two runs apart that write the same.  Left out: lock time-outs. -/

namespace CaseSessions

open KeyedTable CaseModel PyRuntime Investigation Pipeline CaseStore CaseClock CaseIsolation
open CaseApi CaseKeys CaseOwnership CaseQueries ReviewModel ReplayRace RedactedDisplay
open TraceStorage Interleaving
open ChainVerifier hiding Call

variable {R : Type}

/-! ## Requests -/

inductive Incoming where
  | call (c : Call)
  | ask (q : Query)

/-- What the clock shows while the request runs a case. -/
def Incoming.readings : Incoming → Readings
  | .call c => c.readings
  | .ask _ => default

/-- The points a request can have reached. -/
inductive Point (R : Type) where
  | arrived
  /-- The pipeline has run; a replay holds the case row it has loaded. -/
  | persisting (caseId : String) (loaded : Option CaseRow)
  /-- The review is decided in memory. -/
  | deciding (req : DecisionRequest) (u : Change)
  /-- Committed, and the row expired. -/
  | persisted (caseId : String)
  | decided (reviewId : String)
  /-- The case row is loaded, its children are not. -/
  | selecting (q : Query)
  /-- The runs are loaded, the steps of the last of them are not. -/
  | listing (shown : List ShownAgentRun) (runs : List LoadedRun)
  /-- With the `created_at` of the row in the response. -/
  | responded (r : Response) (createdAt : Option Instant := none)
  | shown (a : Answer R)

/-! ## Calls -/

/-- A call up to its commit: authentication, and the rows it reads first. -/
def accept (api : Api R) (s : Store R) (call : Call) : Point R :=
  match requireAuth api.tokens call.authorization with
  | .error e => .responded (.unauthorized e)
  | .ok principal =>
      match call.request with
      | .createCase caseId | .runAndPersistCase caseId =>
          if caseId ∈ api.registry.listAvailableCaseIds then .persisting caseId none
          else .responded (.caseFixtureNotFound caseId)
      | .replayCase caseId =>
          match s.getCase caseId with
          | none => .responded (.caseNotFound caseId)
          | some row => .persisting caseId (some row)
      | .postReviewDecision reviewId body =>
          match (decisionRequest principal reviewId body call.now).read s.reviewTasks with
          | .inl r => .responded (.decision r)
          | .inr u => .deciding (decisionRequest principal reviewId body call.now) u

/-- `persist_case_run`, in the session that may hold the case row. -/
def persist (api : Api R) (db : Database R) (caseId : String) (loaded : Option CaseRow)
    (t : Readings) : Point R × Database R :=
  match api.registry.loadCaseFixture caseId with
  | none => (.responded .serverError, db)
  | some f =>
      match f.job.persist api.runtime (sessionView db.tables loaded) with
      | none => (.responded .serverError, db)
      | some s' => (.persisted f.case.caseId, ⟨s', api.stamp db.clock caseId t⟩)

/-- `db.commit()` of a decision. -/
def commit (db : Database R) (req : DecisionRequest) (u : Change) : Point R × Database R :=
  -- a row that did not change is not written
  if u.2 = u.1 then (.decided u.1.reviewId, db)
  else
    match db.tables.reviewTasks.get u.1.reviewId with
    | none => (.responded (.decision (.staleData req.reviewId)), db)
    | some _ =>
        (.decided u.1.reviewId,
          { db with tables :=
            { db.tables with reviewTasks := commitReview db.tables.reviewTasks u } })

/-- `_case_to_dict` of the expired row. -/
def readBackCase (s : Store R) (caseId : String) : Response :=
  match s.getCase caseId with
  | none => .serverError
  | some row => .case row

/-- `_review_to_dict` of the expired row. -/
def readBackReview (s : Store R) (reviewId : String) : Response :=
  match s.reviewTasks.get reviewId with
  | none => .serverError
  | some r => .decision (.decided r)

/-- The response with the `created_at` of its row. -/
def respond (db : Database R) (r : Response) : Point R := .responded r (r.createdAt db.clock)

/-! ## Questions -/

/-- The case whose children an endpoint selects once it has the case row. -/
def selects : Query → Option String
  | .getCaseEvidence caseId | .getCaseClaims caseId | .getCaseAuthority caseId
  | .getCaseTrace caseId | .verifyCaseTrace caseId | .getCaseAgentRuns caseId
  | .getCaseGuardrailReport caseId => some caseId
  | _ => none

/-- The first statement of a reading endpoint. -/
def ask (api : Api R) (db : Database R) (q : Query) : Point R :=
  match selects q with
  | none => .shown (answer api db q)
  | some caseId =>
      match db.tables.getCase caseId with
      | none => .shown (.caseNotFound caseId)
      | some _ => .selecting q

/-- The second one. -/
def select (api : Api R) (db : Database R) : Query → Point R
  | .getCaseEvidence caseId =>
      .shown (.evidence (shownEvidence (rowsOf db.tables.evidence Evidence.caseId caseId)))
  | .getCaseClaims caseId =>
      .shown (.claims ((rowsOf db.tables.claims Claim.caseId caseId).map .of))
  | .getCaseAuthority caseId =>
      .shown (.authority
        ((rowsOf db.tables.authorityRecords AuthorityRecord.caseId caseId).map .of))
  | .getCaseTrace caseId =>
      .shown (.trace ((bySequence (rowsOf db.tables.traceEvents TraceEvent.caseId caseId)).map
        (.of db.clock)))
  | .verifyCaseTrace caseId =>
      .shown (.verification (TraceStorage.verifyCaseTrace api.runtime caseId
        (bySequence (rowsOf db.tables.traceEvents TraceEvent.caseId caseId))))
  -- the steps are loaded run by run
  | .getCaseAgentRuns caseId =>
      .listing [] (byStart ((rowsOf db.tables.agentRuns AgentRun.caseId caseId).map
        (.of db.clock)))
  | .getCaseGuardrailReport caseId =>
      .shown (match latestReport db.clock
          (rowsOf db.tables.guardrailReports GuardrailReport.caseId caseId) with
        | none => .guardrailReportNotFound caseId
        | some report => .guardrails report)
  | q => .shown (answer api db q)

/-! ## Sessions -/

/-- The next statement of a session. -/
def step (api : Api R) : Incoming → Point R → Database R → Point R × Database R
  | .call c, .arrived, db => (accept api db.tables c, db)
  | .ask q, .arrived, db => (ask api db q, db)
  | i, .persisting caseId loaded, db => persist api db caseId loaded i.readings
  | _, .deciding req u, db => commit db req u
  | _, .persisted caseId, db => (respond db (readBackCase db.tables caseId), db)
  | _, .decided reviewId, db => (respond db (readBackReview db.tables reviewId), db)
  | _, .selecting q, db => (select api db q, db)
  | _, .listing shown [], db => (.shown (.agentRuns shown), db)
  | _, .listing shown (r :: runs), db =>
      (.listing (shown ++ [.of db.clock db.tables.agentSteps.rows r]) runs, db)
  | _, .responded r createdAt, db => (.responded r createdAt, db)
  | _, .shown a, db => (.shown a, db)

section Sessions

variable {ι : Type} [DecidableEq ι]

/-- One statement of one of the sessions. -/
def sys (api : Api R) (incoming : ι → Incoming) :
    Config ι (Database R) (Point R) → ι → Config ι (Database R) (Point R) :=
  fire fun i => step api (incoming i)

/-- Every request before its first statement, on a database with empty tables. -/
def opened : Config ι (Database R) (Point R) := ⟨Database.empty, fun _ => .arrived⟩

end Sessions

/-! ## A session that is not overtaken -/

/-- What a session comes to by `n` statements of its own. -/
def alone (api : Api R) (incoming : Incoming) :
    Nat → Point R → Database R → Point R × Database R
  | 0, p, db => (p, db)
  | n + 1, p, db => alone api incoming n (step api incoming p db).1 (step api incoming p db).2

variable {api : Api R} {s : Store R} {db : Database R}

theorem alone_responded (incoming : Incoming) (r : Response) (createdAt : Option Instant)
    (n : Nat) :
    alone api incoming n (.responded r createdAt) db = (.responded r createdAt, db) := by
  induction n with
  | zero => rfl
  | succ n ih =>
      cases incoming with
      | call c => exact ih
      | ask q => exact ih

/-- A decision that is to be committed has loaded its review. -/
theorem read_inr {req : DecisionRequest} {reviews : Table ReviewTask} {u : Change}
    (h : req.read reviews = .inr u) :
    reviews.get req.reviewId = some u.1 ∧ req.principal.role = u.1.assignedRole ∧
      req.decide u.1 = .ok u.2 := by
  rw [DecisionRequest.read] at h
  cases hget : reviews.get req.reviewId with
  | none =>
      rw [hget] at h
      cases h
  | some loaded =>
      simp only [hget] at h
      split at h
      · cases h
      · next hrole =>
          cases hdecide : req.decide loaded with
          | error e =>
              rw [hdecide] at h
              cases h
          | ok changed =>
              rw [hdecide] at h
              obtain rfl := Sum.inr.inj h
              exact ⟨rfl, not_not.mp hrole, hdecide⟩

/-- A decision that is refused shows no review. -/
theorem read_inl {req : DecisionRequest} {reviews : Table ReviewTask} {r : DecisionResponse}
    (h : req.read reviews = .inl r) (clock : Clock) :
    (Response.decision r).createdAt clock = none := by
  rw [DecisionRequest.read] at h
  cases hget : reviews.get req.reviewId with
  | none =>
      rw [hget] at h
      obtain rfl := Sum.inl.inj h
      rfl
  | some loaded =>
      simp only [hget] at h
      split at h
      · obtain rfl := Sum.inl.inj h
        rfl
      · cases hdecide : req.decide loaded with
        | error e =>
            rw [hdecide] at h
            obtain rfl := Sum.inl.inj h
            rfl
        | ok changed =>
            rw [hdecide] at h
            cases h

/-- The row of a case is there once a run of it is persisted. -/
theorem getCase_of_persist {f : Fixture} {s' : Store R}
    (h : f.job.persist api.runtime s = some s') : ∃ row, s'.getCase f.case.caseId = some row := by
  obtain ⟨a, hrun, hpersist⟩ := persist_eq api.runtime f.job
  obtain ⟨hshaped, hcase⟩ := shaped_of_run hrun
  have hpersisted := (persisted_iff hshaped).mp ((hpersist s).symm.trans h)
  have hcase : a.case.caseId = f.case.caseId := congrArg Case.caseId hcase
  refine Option.ne_none_iff_exists'.mp fun hnone => getCase_eq_none.mp hnone ?_
  exact hcase ▸ mem_caseIds_persisted hpersisted

/-- What a session comes to with a response, when the tables are these. -/
def answered (api : Api R) (db : Database R) (t : Readings) (result : Response × Store R) :
    Point R × Database R :=
  let after : Database R := ⟨result.2, api.clockAfter db.clock t result.1⟩
  (respond after result.1, after)

/-- A run without an interruption is `runAndPersist`. -/
theorem persist_alone (incoming : Incoming) (caseId : String) {loaded : Option CaseRow}
    (hview : sessionView db.tables loaded = db.tables) :
    alone api incoming 2 (.persisting caseId loaded) db =
      answered api db incoming.readings (api.runAndPersist db.tables caseId) := by
  have hpersist : alone api incoming 2 (.persisting caseId loaded) db =
      alone api incoming 1 (persist api db caseId loaded incoming.readings).1
        (persist api db caseId loaded incoming.readings).2 := by
    cases incoming <;> rfl
  rw [hpersist, persist, Api.runAndPersist, hview]
  cases hload : api.registry.loadCaseFixture caseId with
  | none => exact alone_responded _ _ _ 1
  | some f =>
      dsimp only
      cases hrun : f.job.persist api.runtime db.tables with
      | none => exact alone_responded _ _ _ 1
      | some s' =>
          have hread : ∀ after : Database R, alone api incoming 1 (.persisted f.case.caseId) after =
              (respond after (readBackCase after.tables f.case.caseId), after) := by
            intro after
            cases incoming <;> rfl
          obtain ⟨row, hrow⟩ := getCase_of_persist hrun
          have hname : row.caseId = caseId :=
            (Table.key_of_get hrow).trans (api.registry.loaded hload).1
          dsimp only
          rw [hread, readBackCase]
          simp only [hrow, answered, Api.clockAfter, hname]

/-- A decision without an interruption writes what it has decided. -/
theorem commit_alone (incoming : Incoming) {req : DecisionRequest} {u : Change}
    (h : req.read db.tables.reviewTasks = .inr u) :
    alone api incoming 2 (.deciding req u) db =
      answered api db incoming.readings (.decision (decision.alone req db.tables.reviewTasks).1,
        { db.tables with reviewTasks := (decision.alone req db.tables.reviewTasks).2 }) := by
  obtain ⟨hget, hrole, hok⟩ := read_inr h
  have hkey : u.1.reviewId = req.reviewId := Table.key_of_get hget
  obtain ⟨hstored, halone⟩ := alone_of_ok hget hrole hok
  have hcommit : alone api incoming 2 (.deciding req u) db =
      alone api incoming 1 (commit db req u).1 (commit db req u).2 := by
    cases incoming <;> rfl
  have hread : ∀ after : Database R, alone api incoming 1 (.decided u.1.reviewId) after =
      (respond after (readBackReview after.tables u.1.reviewId), after) := by
    intro after
    cases incoming <;> rfl
  rw [halone, hcommit, commit, hkey, hget]
  split
  · next hsame =>
      -- nothing is written, and the row that is read back is the loaded one
      have hreviews : commitReview db.tables.reviewTasks (u.1, u.2) = db.tables.reviewTasks := by
        refine Table.ext ((List.map_congr_left fun r _ => ?_).trans (List.map_id _))
        rw [hsame]
        exact rewriteReview_unchanged u.1 r
      dsimp only
      rw [← hkey, hread, readBackReview, hkey, hget, hreviews, hsame]
      rfl
  · dsimp only
    rw [← hkey, hread, readBackReview]
    have hafter : (commitReview db.tables.reviewTasks u).get u.1.reviewId = some u.2 := by
      rw [hkey]
      exact hstored
    simp only [hafter]
    rfl

/-- **A CALL ALONE** is answered as `Api.serve` answers it. -/
theorem call_alone (api : Api R) (db : Database R) (c : Call) :
    alone api (.call c) 3 .arrived db =
      (.responded (api.serve db c).1.1 (api.serve db c).1.2, (api.serve db c).2) := by
  have hserve : (.responded (api.serve db c).1.1 (api.serve db c).1.2, (api.serve db c).2) =
      answered api db c.readings (api.handle db.tables c) := rfl
  have hstep : alone api (.call c) 3 .arrived db =
      alone api (.call c) 2 (accept api db.tables c) db := rfl
  -- a run of a listed fixture: one statement looks it up, the next persists it
  have hfixture : ∀ caseId, alone api (.call c) 2
      (if caseId ∈ api.registry.listAvailableCaseIds then .persisting caseId none
        else .responded (.caseFixtureNotFound caseId)) db =
      answered api db c.readings (api.runFixture db.tables caseId) := by
    intro caseId
    rw [Api.runFixture]
    by_cases hlisted : caseId ∈ api.registry.listAvailableCaseIds
    · rw [if_pos hlisted, if_neg (not_not.mpr hlisted)]
      exact persist_alone _ caseId rfl
    · rw [if_neg hlisted, if_pos hlisted]
      exact alone_responded _ _ _ _
  rw [hserve, hstep, accept, Api.handle]
  cases requireAuth api.tokens c.authorization with
  | error e => exact alone_responded _ _ _ _
  | ok principal =>
      cases c.request with
      | createCase caseId => exact hfixture caseId
      | runAndPersistCase caseId => exact hfixture caseId
      | replayCase caseId =>
          dsimp only
          rw [Api.replayCase]
          cases hget : db.tables.getCase caseId with
          | none => exact alone_responded _ _ _ _
          | some row => exact persist_alone _ caseId (sessionView_fresh hget)
      | postReviewDecision reviewId body =>
          dsimp only
          rw [Api.postReviewDecision]
          generalize decisionRequest principal reviewId body c.now = req
          cases hread : req.read db.tables.reviewTasks with
          | inl r =>
              rw [(Txn.step_idle_inl (M := decision) hread).2]
              have hshown : answered api db c.readings (.decision r, db.tables) =
                  (.responded (.decision r) none, db) := by
                rw [← read_inl hread db.clock]
                rfl
              rw [hshown]
              exact alone_responded _ _ _ _
          | inr u => exact commit_alone _ hread

theorem listing_alone (q : Query) (listed : List ShownAgentRun) (runs : List LoadedRun) :
    alone api (.ask q) (runs.length + 1) (.listing listed runs) db =
      (.shown (.agentRuns (listed ++ runs.map (.of db.clock db.tables.agentSteps.rows))), db) := by
  induction runs generalizing listed with
  | nil =>
      rw [List.map_nil, List.append_nil]
      rfl
  | cons r runs ih =>
      show alone api (.ask q) (runs.length + 1) (.listing (listed ++ [_]) runs) db = _
      rw [ih, List.append_assoc]
      rfl

/-- What the second statement shows is the answer, if the case is there. -/
theorem select_shown {q : Query} {caseId : String} (hq : selects q = some caseId) {row : CaseRow}
    (hget : db.tables.getCase caseId = some row) :
    select api db q = .shown (answer api db q) ∨
      ∃ runs, select api db q = .listing [] runs ∧
        answer api db q = .agentRuns (runs.map (.of db.clock db.tables.agentSteps.rows)) := by
  cases q with
  | getCaseAgentRuns c =>
      obtain rfl := Option.some.inj hq
      refine Or.inr ⟨_, rfl, ?_⟩
      simp only [answer, ifStored, hget]
  | getCaseGuardrailReport c =>
      obtain rfl := Option.some.inj hq
      left
      cases hreport : latestReport db.clock
          (rowsOf db.tables.guardrailReports GuardrailReport.caseId c) with
      | none => simp only [select, answer, ifStored, hget, hreport]
      | some report => simp only [select, answer, ifStored, hget, hreport]
  | getCaseEvidence c | getCaseClaims c | getCaseAuthority c | getCaseTrace c
  | verifyCaseTrace c =>
      obtain rfl := Option.some.inj hq
      left
      simp only [select, answer, ifStored, hget]
  | caseDemo | listCaseFixtures | listAgentDefinitions | getCase c | listReviews
  | getReview c => cases hq

theorem answer_of_none {q : Query} {caseId : String} (hq : selects q = some caseId)
    (hget : db.tables.getCase caseId = none) : answer api db q = .caseNotFound caseId := by
  cases q with
  | getCaseEvidence c | getCaseClaims c | getCaseAuthority c | getCaseTrace c
  | verifyCaseTrace c | getCaseAgentRuns c | getCaseGuardrailReport c =>
      obtain rfl := Option.some.inj hq
      simp only [answer, ifStored, hget]
  | caseDemo | listCaseFixtures | listAgentDefinitions | getCase c | listReviews
  | getReview c => cases hq

/-- **A QUESTION ALONE** is answered as `answer` answers it. -/
theorem question_alone (api : Api R) (db : Database R) (q : Query) :
    ∃ n, alone api (.ask q) n .arrived db = (.shown (answer api db q), db) := by
  have hstep : ∀ n, alone api (.ask q) (n + 1) .arrived db =
      alone api (.ask q) n (ask api db q) db := fun _ => rfl
  cases hq : selects q with
  | none =>
      refine ⟨1, ?_⟩
      rw [hstep, ask, hq]
      rfl
  | some caseId =>
      cases hget : db.tables.getCase caseId with
      | none =>
          refine ⟨1, ?_⟩
          simp only [hstep, ask, hq, hget]
          rw [answer_of_none hq hget]
          rfl
      | some row =>
          have hselect : ∀ n, alone api (.ask q) (n + 2) .arrived db =
              alone api (.ask q) n (select api db q) db := by
            intro n
            rw [hstep, ask, hq]
            simp only [hget]
            rfl
          -- two statements, and one for each agent run where they are listed
          rcases select_shown hq hget with hshown | ⟨runs, hlisting, hanswer⟩
          · refine ⟨2, ?_⟩
            rw [hselect, hshown]
            rfl
          · refine ⟨runs.length + 1 + 2, ?_⟩
            rw [hselect, hlisting, listing_alone, hanswer, List.nil_append]

end CaseSessions
