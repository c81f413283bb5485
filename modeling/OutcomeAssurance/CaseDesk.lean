import OutcomeAssurance.CaseQueries

/-! # The case desk — what the case API is for

    A desk has one file for each case that was run: how often it was run, its
    review, and what the clock showed when it was run last.  Whatever else is
    shown of the case is what the pipeline makes of its fixture.  A run moves
    the file to the end, opens a new review and dates everything anew; a
    decision writes the review.  No source is evidence in two files. -/

namespace CaseDesk

open CaseModel PyDict PyRuntime Investigation Pipeline CaseStore CaseClock CaseIsolation
open CaseApi CaseQueries ReviewModel RedactedDisplay

/-! ## Files -/

structure File where
  version : Nat
  review : Option ReviewTask
  readings : Readings

/-- The files, under the ids of their cases, the case run last at the end. -/
abbrev Desk := Dict String File

variable {R : Type}

/-- What the pipeline makes of the fixture of a case. -/
def artifactsOf (api : Api R) (caseId : String) : Option (CaseArtifacts R) :=
  match api.registry.loadCaseFixture caseId with
  | none => none
  | some f => (runCasePipeline api.runtime f.case f.sources {}).toOption

/-- How often the case was run. -/
def versionOf (d : Desk) (caseId : String) : Nat :=
  match d.get caseId with
  | none => 0
  | some file => file.version

/-- When everything of the case was dated. -/
def readingsOf (d : Desk) (caseId : String) : Readings :=
  match d.get caseId with
  | none => default
  | some file => file.readings

/-- What the files hold, in their order. -/
def content {β : Type} (api : Api R) (d : Desk) (f : CaseArtifacts R → File → List β) : List β :=
  d.items.flatMap fun p =>
    match artifactsOf api p.1 with
    | none => []
    | some a => f a p.2

/-- The sources that are evidence in the files of other cases. -/
def sourcesElsewhere (api : Api R) (d : Desk) (caseId : String) : List String :=
  content api (d.pop caseId) fun a _ => a.evidence.map Evidence.sourceId

/-- The review on file under an id. -/
def reviewOf (d : Desk) (reviewId : String) : Option ReviewTask :=
  (d.values.filterMap File.review).find? fun r => r.reviewId = reviewId

/-! ## Calls -/

/-- A case is run. -/
def runCase (api : Api R) (d : Desk) (caseId : String) (t : Readings) : Response × Desk :=
  match artifactsOf api caseId with
  | none => (.serverError, d)
  | some a =>
      if ∃ e ∈ a.evidence, e.sourceId ∈ sourcesElsewhere api d caseId then (.serverError, d)
      else
        let version := versionOf d caseId + 1
        (.case (caseRow a version), (d.pop caseId).set caseId ⟨version, a.review, t⟩)

/-- A review is decided. -/
def decide (d : Desk) (req : DecisionRequest) : DecisionResponse × Desk :=
  match reviewOf d req.reviewId with
  | none => (.reviewNotFound req.reviewId, d)
  | some review =>
      if req.principal.role ≠ review.assignedRole then
        (.roleNotPermitted req.principal.role review.assignedRole, d)
      else
        match req.decide review with
        | .error e => (.reviewAlreadyDecided e, d)
        | .ok changed =>
            (.decided changed, d.set review.caseId
              ⟨versionOf d review.caseId, some changed, readingsOf d review.caseId⟩)

/-- One call, from its authentication to its response. -/
def handle (api : Api R) (d : Desk) (call : Call) : Response × Desk :=
  match requireAuth api.tokens call.authorization with
  | .error e => (.unauthorized e, d)
  | .ok principal =>
      match call.request with
      | .createCase caseId | .runAndPersistCase caseId =>
          if caseId ∈ api.registry.listAvailableCaseIds then runCase api d caseId call.readings
          else (.caseFixtureNotFound caseId, d)
      | .replayCase caseId =>
          if d.has caseId then runCase api d caseId call.readings
          else (.caseNotFound caseId, d)
      | .postReviewDecision reviewId body =>
          let (r, d') := decide d (decisionRequest principal reviewId body call.now)
          (.decision r, d')

/-- When what a response shows was created. -/
def createdAt (d : Desk) : Response → Option Instant
  | .case row => some ((readingsOf d row.caseId).columns .caseCreatedAt row.caseId)
  | .decision (.decided review) =>
      some ((readingsOf d review.caseId).columns .reviewCreatedAt review.reviewId)
  | _ => none

/-- One call, with the date of what its response shows. -/
def serve (api : Api R) (d : Desk) (call : Call) : (Response × Option Instant) × Desk :=
  let (response, d') := handle api d call
  ((response, createdAt d' response), d')

/-! ## What a call does to the files -/

/-- A call leaves the files alone and shows no row, runs a case, or decides a
    review. -/
inductive Filing (api : Api R) (d : Desk) (call : Call) : Prop where
  | kept (response : Response) (unshown : ∀ clock, response.createdAt clock = none)
      (result : handle api d call = (response, d))
  | ran (c : String) (a : CaseArtifacts R) (version : Nat) (artifacts : artifactsOf api c = some a)
      (request : call.request = .createCase c ∨ call.request = .runAndPersistCase c ∨
        call.request = .replayCase c)
      (result : handle api d call =
        (.case (caseRow a version), (d.pop c).set c ⟨version, a.review, call.readings⟩))
  | decided (principal : Principal) (reviewId : String) (body : ReviewDecisionRequest)
      (loaded changed : ReviewTask)
      (auth : requireAuth api.tokens call.authorization = .ok principal)
      (request : call.request = .postReviewDecision reviewId body)
      (found : reviewOf d reviewId = some loaded)
      (role : principal.role = loaded.assignedRole)
      (ok : (decisionRequest principal reviewId body call.now).decide loaded = .ok changed)
      (result : handle api d call = (.decision (.decided changed), d.set loaded.caseId
        ⟨versionOf d loaded.caseId, some changed, readingsOf d loaded.caseId⟩))

variable {api : Api R} {d : Desk} {call : Call} {c : String}

/-- A call that runs a case, if it gets so far. -/
theorem filing_run {P : Prop} [Decidable P] {response : Response}
    (hrequest : call.request = .createCase c ∨ call.request = .runAndPersistCase c ∨
      call.request = .replayCase c)
    (hunshown : ∀ clock, response.createdAt clock = none)
    (h : handle api d call = if P then runCase api d c call.readings else (response, d)) :
    Filing api d call := by
  split at h
  · rw [runCase] at h
    cases ha : artifactsOf api c with
    | none =>
        rw [ha] at h
        exact .kept _ (fun _ => rfl) h
    | some a =>
        rw [ha] at h
        dsimp only at h
        split at h
        · exact .kept _ (fun _ => rfl) h
        · exact .ran c a _ ha hrequest h
  · exact .kept _ hunshown h

/-- A decision is refused, or written to the file of its review. -/
theorem decide_cases (d : Desk) (req : DecisionRequest) :
    (∃ response, (∀ row, response ≠ .decided row) ∧ decide d req = (response, d)) ∨
      ∃ loaded changed, reviewOf d req.reviewId = some loaded ∧
        req.principal.role = loaded.assignedRole ∧ req.decide loaded = .ok changed ∧
        decide d req = (.decided changed, d.set loaded.caseId
          ⟨versionOf d loaded.caseId, some changed, readingsOf d loaded.caseId⟩) := by
  rw [decide]
  cases hfind : reviewOf d req.reviewId with
  | none =>
      refine Or.inl ⟨.reviewNotFound req.reviewId, ?_, rfl⟩
      exact fun row h => by cases h
  | some loaded =>
      dsimp only
      split
      · refine Or.inl ⟨.roleNotPermitted req.principal.role loaded.assignedRole, ?_, rfl⟩
        exact fun row h => by cases h
      · next hrole =>
          cases hok : req.decide loaded with
          | error e =>
              refine Or.inl ⟨.reviewAlreadyDecided e, ?_, rfl⟩
              exact fun row h => by cases h
          | ok changed => exact Or.inr ⟨loaded, changed, rfl, not_not.mp hrole, hok, rfl⟩

/-- **EVERY CALL** leaves the files alone, runs a case or decides a review. -/
theorem filing (api : Api R) (d : Desk) (call : Call) : Filing api d call := by
  cases hauth : requireAuth api.tokens call.authorization with
  | error e =>
      refine .kept (.unauthorized e) (fun _ => rfl) ?_
      rw [handle, hauth]
  | ok principal =>
      cases hrequest : call.request with
      | createCase caseId =>
          have hhandle : handle api d call =
              if caseId ∈ api.registry.listAvailableCaseIds then
                runCase api d caseId call.readings
              else (.caseFixtureNotFound caseId, d) := by
            rw [handle, hauth, hrequest]
          exact filing_run (Or.inl hrequest) (fun _ => rfl) hhandle
      | runAndPersistCase caseId =>
          have hhandle : handle api d call =
              if caseId ∈ api.registry.listAvailableCaseIds then
                runCase api d caseId call.readings
              else (.caseFixtureNotFound caseId, d) := by
            rw [handle, hauth, hrequest]
          exact filing_run (Or.inr (Or.inl hrequest)) (fun _ => rfl) hhandle
      | replayCase caseId =>
          have hhandle : handle api d call =
              if d.has caseId then runCase api d caseId call.readings
              else (.caseNotFound caseId, d) := by
            rw [handle, hauth, hrequest]
          exact filing_run (Or.inr (Or.inr hrequest)) (fun _ => rfl) hhandle
      | postReviewDecision reviewId body =>
          have hhandle : handle api d call =
              (.decision (decide d (decisionRequest principal reviewId body call.now)).1,
                (decide d (decisionRequest principal reviewId body call.now)).2) := by
            rw [handle, hauth, hrequest]
          rcases decide_cases d (decisionRequest principal reviewId body call.now) with
            ⟨response, hrefused, hdecide⟩ | ⟨loaded, changed, hfound, hrole, hok, hdecide⟩
          · rw [hdecide] at hhandle
            refine .kept (.decision response) (fun _ => ?_) hhandle
            cases response with
            | decided row => exact absurd rfl (hrefused row)
            | _ => rfl
          · rw [hdecide] at hhandle
            exact .decided principal reviewId body loaded changed hauth hrequest hfound hrole hok
              hhandle

/-! ## Questions -/

/-- What is on file for a case. -/
def onFile (api : Api R) (d : Desk) (caseId : String) (answer : CaseArtifacts R → File → Answer R) :
    Answer R :=
  match d.get caseId, artifactsOf api caseId with
  | some file, some a => answer a file
  | _, _ => .caseNotFound caseId

/-- A review, with the date of its file. -/
def dated (d : Desk) (r : ReviewTask) : ShownReview := .of (readingsOf d r.caseId).columns r

/-- What is answered without looking at any table. -/
def answer (api : Api R) (d : Desk) : Query → Answer R
  | .caseDemo =>
      match artifactsOf api "CASE-RET-001" with
      | some a => .summary (summaryOf a)
      | none => .serverError
  | .listCaseFixtures => .caseIds api.registry.listAvailableCaseIds
  | .listAgentDefinitions => .agents (registeredAgents api.runtime)
  | .getCase caseId => onFile api d caseId fun a file =>
      .case (.of file.readings.columns (caseRow a file.version))
  | .getCaseEvidence caseId => onFile api d caseId fun a _ => .evidence (shownEvidence a.evidence)
  | .getCaseClaims caseId => onFile api d caseId fun a _ => .claims (a.claims.map .of)
  | .getCaseAuthority caseId => onFile api d caseId fun a _ => .authority [.of a.authority]
  | .getCaseTrace caseId => onFile api d caseId fun a file =>
      .trace (a.traceEvents.map (.of file.readings.columns))
  | .verifyCaseTrace caseId => onFile api d caseId fun a _ =>
      .verification ⟨caseId, a.traceEvents.length, true⟩
  | .getCaseAgentRuns caseId => onFile api d caseId fun a file =>
      .agentRuns (a.agentRuns.map fun r =>
        .of file.readings.columns a.agentSteps (.of file.readings.columns r))
  | .getCaseGuardrailReport caseId => onFile api d caseId fun a file =>
      match a.guardrailReport with
      | none => .guardrailReportNotFound caseId
      | some report => .guardrails (.of file.readings.columns report)
  | .listReviews => .reviews ((d.values.filterMap File.review).map (dated d))
  | .getReview reviewId =>
      match reviewOf d reviewId with
      | none => .reviewNotFound reviewId
      | some r => .review (dated d r)

end CaseDesk
