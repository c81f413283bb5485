import OutcomeAssurance.CaseClock
import OutcomeAssurance.CaseIsolation

/-! # The case and review endpoints

    The writing endpoints of `app/api.py` over the case store: create, run and
    replay a case, decide a review.  Cases come from the fixture directory
    (`app/services/fixtures.py`), callers from the bearer token they send
    (`app/auth.py`). -/

namespace CaseApi

open KeyedTable PyDict PyText PyRuntime CaseModel CaseStore CaseClock CaseIsolation
open Pipeline ReviewModel

/-! ## Fixtures -/

structure Fixture where
  case : Case
  sources : List Source

/-- The fixture directory: the hero case, and one file in `cases/` for each
    other case, under its id. -/
structure Registry where
  hero : Fixture
  extra : Dict String Fixture
  heroNamed : hero.case.caseId = "CASE-RET-001"
  extraNamed : ∀ p ∈ extra.items, p.2.case.caseId = p.1
  heroDistinct : (hero.sources.map Source.sourceId).Nodup
  extraDistinct : ∀ p ∈ extra.items, (p.2.sources.map Source.sourceId).Nodup

/-- `list_available_case_ids`. -/
def Registry.listAvailableCaseIds (g : Registry) : List String :=
  "CASE-RET-001" :: (g.extra.items.map Prod.fst).mergeSort fun a b => a ≤ b

/-- `load_case_fixture`; there is no result where it raises `UnknownCaseError`. -/
def Registry.loadCaseFixture (g : Registry) (caseId : String) : Option Fixture :=
  if caseId = "CASE-RET-001" then some g.hero else g.extra.get caseId

theorem Registry.loaded (g : Registry) {caseId : String} {f : Fixture}
    (h : g.loadCaseFixture caseId = some f) :
    f.case.caseId = caseId ∧ (f.sources.map Source.sourceId).Nodup := by
  rw [loadCaseFixture] at h
  split at h
  · next hid =>
      obtain rfl := Option.some.inj h
      exact ⟨g.heroNamed.trans hid.symm, g.heroDistinct⟩
  · have hmem := Dict.mem_items.mpr h
    exact ⟨g.extraNamed _ hmem, g.extraDistinct _ hmem⟩

/-- The ids on offer are those that load. -/
theorem Registry.available_iff (g : Registry) {caseId : String} :
    caseId ∈ g.listAvailableCaseIds ↔ ∃ f, g.loadCaseFixture caseId = some f := by
  rw [listAvailableCaseIds, loadCaseFixture, List.mem_cons, List.mem_mergeSort]
  by_cases hid : caseId = "CASE-RET-001"
  · rw [if_pos hid]
    exact ⟨fun _ => ⟨g.hero, rfl⟩, fun _ => Or.inl hid⟩
  · rw [if_neg hid, or_iff_right hid, List.mem_map]
    constructor
    · rintro ⟨p, hp, rfl⟩
      exact ⟨p.2, Dict.mem_items.mp hp⟩
    · rintro ⟨f, hf⟩
      exact ⟨(caseId, f), Dict.mem_items.mpr hf, rfl⟩

/-- The directory as it is shipped. -/
def shipped : Registry where
  hero := ⟨Fixtures.hero, [Fixtures.kogan, Fixtures.accc]⟩
  extra := ⟨[
    ("CASE-RET-002",
      ⟨Fixtures.majorFaultCase, [Fixtures.kogan, Fixtures.accc, Fixtures.faultMajor]⟩),
    ("CASE-RET-003",
      ⟨Fixtures.minorFaultCase, [Fixtures.kogan, Fixtures.accc, Fixtures.faultMinor]⟩),
    ("CASE-RET-004", ⟨Fixtures.unverifiedSellerCase, [Fixtures.kogan, Fixtures.accc]⟩)],
    by decide⟩
  heroNamed := rfl
  extraNamed := by decide
  heroDistinct := by decide
  extraDistinct := by decide

/-! ## Callers -/

inductive AuthError where
  | missingBearerToken
  | invalidToken
  deriving DecidableEq, Repr

/-- `error_code` and `message`. -/
def AuthError.error : AuthError → String × String
  | .missingBearerToken =>
      ("MISSING_BEARER_TOKEN", "Authorization: Bearer <token> is required")
  | .invalidToken => ("INVALID_TOKEN", "Unrecognised bearer token")

def bearer : String := "Bearer "

/-- `require_auth`, with the token map of the process. -/
def requireAuth (tokens : Dict String Principal) (authorization : Option String) :
    Except AuthError Principal :=
  match authorization with
  | none => .error .missingBearerToken
  | some header =>
      if bearer.toList <+: header.toList then
        match tokens.get (strip (String.ofList (header.toList.drop bearer.length))) with
        | some principal => .ok principal
        | none => .error .invalidToken
      else .error .missingBearerToken

/-- The token map when `API_TOKENS` is unset. -/
def defaultTokens : Dict String Principal :=
  ⟨[("dev-local-demo-token", ⟨"demo-reviewer", "retail-operations"⟩)], by decide⟩

/-! ## Requests -/

/-- `ReviewDecisionRequest`. -/
structure ReviewDecisionRequest where
  decision : String
  notes : Option String := none
  idempotencyKey : String
  deriving DecidableEq, Repr

inductive Request where
  /-- `POST /api/cases`. -/
  | createCase (caseId : String := "CASE-RET-001")
  /-- `POST /api/cases/{case_id}/run`. -/
  | runAndPersistCase (caseId : String)
  /-- `POST /api/cases/{case_id}/replay`. -/
  | replayCase (caseId : String)
  /-- `POST /api/reviews/{review_id}/decision`. -/
  | postReviewDecision (reviewId : String) (body : ReviewDecisionRequest)
  deriving DecidableEq, Repr

/-- A request with its `Authorization` header, the time of its arrival, and what
    the clock shows while it runs a case. -/
structure Call where
  authorization : Option String
  request : Request
  now : Nat := 0
  readings : Readings := default

inductive Response where
  | unauthorized (e : AuthError)
  | caseFixtureNotFound (caseId : String)
  | caseNotFound (caseId : String)
  | case (row : CaseRow)
  | decision (r : DecisionResponse)
  /-- An exception that no handler maps to an error response. -/
  | serverError
  deriving DecidableEq, Repr

/-- `error_code` and `message` of the error body. -/
def Response.error : Response → Option (String × String)
  | .unauthorized e => some e.error
  | .caseFixtureNotFound id =>
      some ("CASE_FIXTURE_NOT_FOUND", s!"No runnable fixture for case_id {id}")
  | .caseNotFound id => some ("CASE_NOT_FOUND", s!"No case with id {id}")
  | .case _ => none
  | .decision r => r.error
  | .serverError => none

/-! ## The endpoints -/

/-- A deployment. -/
structure Api (R : Type) where
  runtime : Runtime R
  registry : Registry
  tokens : Dict String Principal

variable {R : Type}

def Fixture.job (f : Fixture) : Job := ⟨f.case, f.sources, {}⟩

/-- `run_case_pipeline(case_id=...)`, `persist_case_run`, and the row as it is
    read back. -/
def Api.runAndPersist (api : Api R) (s : Store R) (caseId : String) : Response × Store R :=
  match api.registry.loadCaseFixture caseId with
  -- neither `UnknownCaseError` nor `IntegrityError` has a handler
  | none => (.serverError, s)
  | some f =>
      match f.job.persist api.runtime s with
      | none => (.serverError, s)
      | some s' =>
          match s'.getCase f.case.caseId with
          | none => (.serverError, s')
          | some row => (.case row, s')

/-- `create_case` and `run_and_persist_case`. -/
def Api.runFixture (api : Api R) (s : Store R) (caseId : String) : Response × Store R :=
  if caseId ∉ api.registry.listAvailableCaseIds then (.caseFixtureNotFound caseId, s)
  else api.runAndPersist s caseId

/-- `replay_case`. -/
def Api.replayCase (api : Api R) (s : Store R) (caseId : String) : Response × Store R :=
  match s.getCase caseId with
  | none => (.caseNotFound caseId, s)
  | some _ => api.runAndPersist s caseId

/-- `post_review_decision`. -/
def Api.postReviewDecision (_ : Api R) (s : Store R) (req : DecisionRequest) :
    Response × Store R :=
  let (r, reviews) := decision.alone req s.reviewTasks
  (.decision r, { s with reviewTasks := reviews })

/-- The decision request of a call, for the principal its token names. -/
def decisionRequest (principal : Principal) (reviewId : String) (body : ReviewDecisionRequest)
    (now : Nat) : DecisionRequest where
  reviewId := reviewId
  principal := principal
  decision := body.decision
  notes := body.notes
  idempotencyKey := body.idempotencyKey
  now := now

/-- One call, from its authentication to its response. -/
def Api.handle (api : Api R) (s : Store R) (call : Call) : Response × Store R :=
  -- authentication is a dependency of every endpoint here, so it comes first
  match requireAuth api.tokens call.authorization with
  | .error e => (.unauthorized e, s)
  | .ok principal =>
      match call.request with
      | .createCase caseId => api.runFixture s caseId
      | .runAndPersistCase caseId => api.runFixture s caseId
      | .replayCase caseId => api.replayCase s caseId
      | .postReviewDecision reviewId body =>
          api.postReviewDecision s (decisionRequest principal reviewId body call.now)

/-- The store after a call. -/
def Api.step (api : Api R) (s : Store R) (call : Call) : Store R := (api.handle s call).2

/-! ## The endpoints, with the clock -/

/-- What persisting a run of a case leaves in the clock columns. -/
def Api.stamp (api : Api R) (clock : Clock) (caseId : String) (t : Readings) : Clock :=
  match api.registry.loadCaseFixture caseId with
  | none => clock
  | some f =>
      match runCasePipeline api.runtime f.case f.sources {} with
      | .error _ => clock
      | .ok a => clock.stamp a t

/-- `created_at` of the row that a response shows. -/
def Response.createdAt (clock : Clock) : Response → Option Instant
  | .case row => some (clock .caseCreatedAt row.caseId)
  | .decision (.decided review) => some (clock .reviewCreatedAt review.reviewId)
  | _ => none

/-- The clock columns after a call; one that is answered with a case has
    persisted a run of it. -/
def Api.clockAfter (api : Api R) (clock : Clock) (t : Readings) : Response → Clock
  | .case row => api.stamp clock row.caseId t
  | _ => clock

/-- One call, with the `created_at` of its response. -/
def Api.serve (api : Api R) (db : Database R) (call : Call) :
    (Response × Option Instant) × Database R :=
  let (response, tables) := api.handle db.tables call
  let clock := api.clockAfter db.clock call.readings response
  ((response, response.createdAt clock), ⟨tables, clock⟩)

theorem serve_of_handle {api : Api R} {db : Database R} {call : Call} {response : Response}
    {tables : Store R} (h : api.handle db.tables call = (response, tables)) :
    let clock := api.clockAfter db.clock call.readings response
    api.serve db call = ((response, response.createdAt clock), ⟨tables, clock⟩) := by
  rw [Api.serve, h]

/-! ## What a call does -/

/-- The case that a call runs, once it is authenticated and the case is there. -/
def Api.runs (api : Api R) (s : Store R) (call : Call) : Option String :=
  match requireAuth api.tokens call.authorization with
  | .error _ => none
  | .ok _ =>
      match call.request with
      | .createCase caseId | .runAndPersistCase caseId =>
          if caseId ∈ api.registry.listAvailableCaseIds then some caseId else none
      | .replayCase caseId => if (s.getCase caseId).isSome then some caseId else none
      | .postReviewDecision _ _ => none

/-- The call decides a review: the response shows the decided row. -/
def Accepts (api : Api R) (s : Store R) (call : Call) (row : ReviewTask) : Prop :=
  (api.handle s call).1 = .decision (.decided row)

/-- What a call does, by what it is. -/
inductive Effect (api : Api R) (s : Store R) (call : Call) : Prop where
  | refused (idle : api.runs s call = none) (unchanged : api.step s call = s)
      (unaccepted : ∀ row, ¬ Accepts api s call row)
  | ran (caseId : String) (runs : api.runs s call = some caseId)
      (result : api.handle s call = api.runAndPersist s caseId)
  | decided (idle : api.runs s call = none) (req : DecisionRequest) (loaded changed : ReviewTask)
      (found : s.reviewTasks.get req.reviewId = some loaded)
      (ok : req.decide loaded = .ok changed)
      (stored : (commitReview s.reviewTasks (loaded, changed)).get req.reviewId = some changed)
      (result : api.handle s call = (.decision (.decided changed),
        { s with reviewTasks := commitReview s.reviewTasks (loaded, changed) }))

theorem effect_runFixture {api : Api R} {s : Store R} {call : Call} {caseId : String}
    (hhandle : api.handle s call = api.runFixture s caseId)
    (hruns : api.runs s call =
      if caseId ∈ api.registry.listAvailableCaseIds then some caseId else none) :
    Effect api s call := by
  rw [Api.runFixture] at hhandle
  by_cases havailable : caseId ∈ api.registry.listAvailableCaseIds
  · rw [if_neg (not_not.mpr havailable)] at hhandle
    exact .ran caseId (hruns.trans (if_pos havailable)) hhandle
  · rw [if_pos havailable] at hhandle
    refine .refused (hruns.trans (if_neg havailable)) (congrArg Prod.snd hhandle) ?_
    intro row hrow
    cases (congrArg Prod.fst hhandle).symm.trans hrow

theorem effect_replayCase {api : Api R} {s : Store R} {call : Call} {caseId : String}
    (hhandle : api.handle s call = api.replayCase s caseId)
    (hruns : api.runs s call = if (s.getCase caseId).isSome then some caseId else none) :
    Effect api s call := by
  rw [Api.replayCase] at hhandle
  cases hget : s.getCase caseId with
  | some row =>
      rw [hget] at hhandle hruns
      exact .ran caseId hruns hhandle
  | none =>
      rw [hget] at hhandle hruns
      refine .refused hruns (congrArg Prod.snd hhandle) ?_
      intro row hrow
      cases (congrArg Prod.fst hhandle).symm.trans hrow

theorem effect_postReviewDecision {api : Api R} {s : Store R} {call : Call}
    {req : DecisionRequest} (hhandle : api.handle s call = api.postReviewDecision s req)
    (hruns : api.runs s call = none) : Effect api s call := by
  rw [Api.postReviewDecision] at hhandle
  rcases decision_alone req s.reviewTasks with ⟨r, halone, hfail⟩ |
    ⟨loaded, changed, hfound, hok, hstored, halone⟩
  · rw [halone] at hhandle
    refine .refused hruns (congrArg Prod.snd hhandle) ?_
    intro row hrow
    obtain rfl : r = .decided row :=
      Response.decision.inj ((congrArg Prod.fst hhandle).symm.trans hrow)
    cases hfail
  · rw [halone] at hhandle
    exact .decided hruns req loaded changed hfound hok hstored hhandle

/-- **EVERY CALL** is refused, runs a case, or decides a review. -/
theorem effect (api : Api R) (s : Store R) (call : Call) : Effect api s call := by
  cases hauth : requireAuth api.tokens call.authorization with
  | error e =>
      have hhandle : api.handle s call = (.unauthorized e, s) := by rw [Api.handle, hauth]
      refine .refused (by rw [Api.runs, hauth]) (congrArg Prod.snd hhandle) ?_
      intro row hrow
      cases (congrArg Prod.fst hhandle).symm.trans hrow
  | ok principal =>
      cases hrequest : call.request with
      | createCase caseId =>
          exact effect_runFixture (by rw [Api.handle, hauth, hrequest])
            (by rw [Api.runs, hauth, hrequest])
      | runAndPersistCase caseId =>
          exact effect_runFixture (by rw [Api.handle, hauth, hrequest])
            (by rw [Api.runs, hauth, hrequest])
      | replayCase caseId =>
          exact effect_replayCase (by rw [Api.handle, hauth, hrequest])
            (by rw [Api.runs, hauth, hrequest])
      | postReviewDecision reviewId body =>
          exact effect_postReviewDecision (by rw [Api.handle, hauth, hrequest])
            (by rw [Api.runs, hauth, hrequest])

/-- Running a case persists its fixture's run, or changes nothing. -/
theorem runAndPersist_snd (api : Api R) (s : Store R) (caseId : String) :
    (api.runAndPersist s caseId).2 =
      match api.registry.loadCaseFixture caseId with
      | none => s
      | some f => CaseIsolation.step api.runtime s f.job := by
  rw [Api.runAndPersist]
  cases api.registry.loadCaseFixture caseId with
  | none => rfl
  | some f =>
      show (match f.job.persist api.runtime s with
        | none => (Response.serverError, s)
        | some s' => _).2 = (f.job.persist api.runtime s).getD s
      cases f.job.persist api.runtime s with
      | none => rfl
      | some s' =>
          show (match s'.getCase f.case.caseId with
            | none => (Response.serverError, s')
            | some row => (.case row, s')).2 = s'
          cases s'.getCase f.case.caseId <;> rfl

theorem runAndPersist_unaccepted (api : Api R) (s : Store R) (caseId : String) (row : ReviewTask) :
    (api.runAndPersist s caseId).1 ≠ .decision (.decided row) := by
  rw [Api.runAndPersist]
  intro h
  split at h
  · cases h
  · split at h
    · cases h
    · split at h <;> cases h

end CaseApi
