import OutcomeAssurance.TraceChain

/-! # Investigation

    `app/agents.py` with `app/budget.py` and `app/tools.py`: the supervisor
    spends one tool call on the retrieval agent's candidate lookup and has the
    critic look at the candidates once more.  Everything it returns is a
    proposal; admission is decided by validation. -/

namespace Investigation

open CaseModel PyRuntime TraceChain

/-! ## The budget -/

inductive BudgetResource where
  | toolCalls | steps
  deriving DecidableEq, Repr

/-- `str(exc.resource).upper()`, as a reason code. -/
def BudgetResource.reason : BudgetResource → ReasonCode
  | .toolCalls => .toolCalls
  | .steps => .steps

/-- `RunBudget`. -/
structure RunBudget where
  maxToolCalls : Int := 10
  maxSteps : Int := 50
  toolCallsUsed : Nat := 0
  stepsUsed : Nat := 0
  deriving DecidableEq, Repr

/-- `BudgetExceededError`. -/
structure BudgetExceeded where
  resource : BudgetResource
  limit : Int
  deriving DecidableEq, Repr

/-- `consume_tool_call`: the call is counted also when it exceeds the limit. -/
def RunBudget.consumeToolCall (b : RunBudget) : Except BudgetExceeded Unit × RunBudget :=
  let used := b.toolCallsUsed + 1
  (if (used : Int) > b.maxToolCalls then .error ⟨.toolCalls, b.maxToolCalls⟩ else .ok (),
    { b with toolCallsUsed := used })

/-- No tool call is left. -/
def RunBudget.Spent (b : RunBudget) : Prop := b.maxToolCalls ≤ b.toolCallsUsed

instance (b : RunBudget) : Decidable b.Spent := inferInstanceAs (Decidable (_ ≤ _))

theorem consumeToolCall_of_spent {b : RunBudget} (h : b.Spent) :
    b.consumeToolCall.1 = .error ⟨.toolCalls, b.maxToolCalls⟩ := by
  have hlimit : ((b.toolCallsUsed + 1 : Nat) : Int) > b.maxToolCalls := by
    have := h
    simp only [RunBudget.Spent] at this
    omega
  exact if_pos hlimit

theorem consumeToolCall_of_left {b : RunBudget} (h : ¬ b.Spent) :
    b.consumeToolCall.1 = .ok () := by
  have hlimit : ¬ ((b.toolCallsUsed + 1 : Nat) : Int) > b.maxToolCalls := by
    have := h
    simp only [RunBudget.Spent] at this
    omega
  exact if_neg hlimit

/-! ## Tool calls -/

/-- A field of a tool's schema; a nullable field may be left out. -/
structure ToolField where
  name : String
  nullable : Bool := false
  deriving DecidableEq, Repr

/-- `TOOL_REGISTRY`. -/
def toolRegistry : List (String × List ToolField) :=
  [("fixture_lexical_search", [⟨"case_id", false⟩, ⟨"query", true⟩]),
   ("exact_span_lookup", [⟨"source_id", false⟩, ⟨"locator", false⟩])]

abbrev ToolArguments := List (String × Option String)

inductive ToolError where
  | unknownTool (toolName : String)
  | invalidArguments (toolName : String)
  deriving DecidableEq, Repr

/-- The schema takes these arguments and no others. -/
def fitsSchema (fields : List ToolField) (arguments : ToolArguments) : Bool :=
  arguments.all (fun a => fields.any fun f => f.name = a.1 && (f.nullable || a.2.isSome))
    && fields.all (fun f => f.nullable || arguments.any fun a => a.1 = f.name)

/-- `validate_tool_call`. -/
def validateToolCall (toolName : String) (arguments : ToolArguments) : Except ToolError Unit :=
  match toolRegistry.lookup toolName with
  | none => .error (.unknownTool toolName)
  | some fields =>
      if fitsSchema fields arguments then .ok () else .error (.invalidArguments toolName)

/-- The arguments of the candidate lookup. -/
def searchArguments (caseId : String) : ToolArguments := [("case_id", some caseId), ("query", none)]

theorem validate_search (caseId : String) :
    validateToolCall "fixture_lexical_search" (searchArguments caseId) = .ok () := by
  simp [validateToolCall, toolRegistry, fitsSchema, searchArguments]

/-! ## The agents -/

variable {R : Type} (rt : Runtime R)

def supervisorAgent : AgentDefinition where
  agentId := "AGENT-SUPERVISOR-V1"
  name := "Investigation Supervisor"
  role := .supervisor
  provider := .deterministic
  configHash := rt.sha256 "supervisor-v1"

def retrievalAgent : AgentDefinition where
  agentId := "AGENT-RETRIEVAL-V1"
  name := "Fixture Retrieval Agent"
  role := .retrieval
  provider := .deterministic
  configHash := rt.sha256 "retrieval-v1"

def criticAgent : AgentDefinition where
  agentId := "AGENT-CRITIC-V1"
  name := "Binding Critic Agent"
  role := .critic
  provider := .deterministic
  configHash := rt.sha256 "critic-v1"

/-- `REGISTERED_AGENTS`. -/
def registeredAgents : List AgentDefinition :=
  [supervisorAgent rt, retrievalAgent rt, criticAgent rt]

/-- The sources the case refers to. -/
def candidatesOf (c : Case) (sources : List Source) : List Source :=
  sources.filter fun s => s.sourceId ∈ c.sourceRefs

/-- `repr` of a list whose items are already written. -/
def reprList (items : List String) : String := "[" ++ ", ".intercalate items ++ "]"

/-- `repr(sorted(tool_args.items()))`. -/
def reprArguments (arguments : ToolArguments) : String :=
  -- an argument that is `None` is written as such, not left out
  reprList ((arguments.mergeSort fun a b => a.1 ≤ b.1).map fun a =>
    "(" ++ rt.repr a.1 ++ ", " ++ (a.2.map rt.repr).getD "None" ++ ")")

def argumentsJson (arguments : ToolArguments) : Json :=
  .obj (arguments.map fun a => (a.1, Json.ofOption a.2))

/-- What `RetrievalAgent.run` records, in order. -/
def retrievalEntries (c : Case) (sources : List Source) : List Entry :=
  [{ stage := "INVESTIGATE", eventType := "CANDIDATE_SEARCH_STARTED"
     toolName := some "fixture_lexical_search"
     arguments := some (argumentsJson (searchArguments c.caseId)) },
   { stage := "INVESTIGATE", eventType := "CANDIDATES_RETURNED"
     toolName := some "fixture_lexical_search"
     evidenceIds := (candidatesOf c sources).map Source.sourceId }]

/-- The step of `RetrievalAgent.run`. -/
def retrievalStep (c : Case) (sources : List Source) (agentRunId : String) : AgentStep :=
  let ids := (candidatesOf c sources).map Source.sourceId
  { stepId := "STEP-" ++ agentRunId ++ "-001"
    agentRunId := agentRunId
    sequence := 1
    stepType := "TOOL_CALL"
    toolName := some "fixture_lexical_search"
    toolInputHash := some (rt.sha256 (reprArguments rt (searchArguments c.caseId)))
    toolOutputHash :=
      some (rt.sha256 (reprList ((ids.mergeSort fun a b => a ≤ b).map rt.repr)))
    candidateEvidenceIds := ids }

/-- `RetrievalAgent.run`, with the budget it leaves. -/
def retrievalRun (c : Case) (sources : List Source) (trace : TraceRecorder) (budget : RunBudget)
    (agentRunId : String) : Except ToolError
      (Except BudgetExceeded (List Source × List AgentStep) × TraceRecorder × RunBudget) :=
  match budget.consumeToolCall with
  | (.error e, left) => .ok (.error e, trace, left)
  | (.ok (), left) => do
      validateToolCall "fixture_lexical_search" (searchArguments c.caseId)
      return (.ok (candidatesOf c sources, [retrievalStep rt c sources agentRunId]),
        trace.recordAll rt (retrievalEntries c sources), left)

/-- The step of `CriticAgent.run`. -/
def criticStep (candidates : List Source) (agentRunId : String) : AgentStep where
  stepId := "STEP-" ++ agentRunId ++ "-001"
  agentRunId := agentRunId
  sequence := 1
  stepType := "CRITIQUE"
  candidateEvidenceIds := candidates.map Source.sourceId

/-- What `CriticAgent.run` records: the candidates it flags. -/
def criticEntry (c : Case) (candidates : List Source) : Entry where
  stage := "INVESTIGATE"
  eventType := "CANDIDATE_BINDING_REVIEWED"
  evidenceIds := (candidates.filter fun s => s.sourceId ∉ c.sourceRefs).map Source.sourceId

/-- `CriticAgent.run`. -/
def criticRun (c : Case) (candidates : List Source) (trace : TraceRecorder)
    (agentRunId : String) : List AgentStep × TraceRecorder :=
  ([criticStep candidates agentRunId], trace.record rt (criticEntry c candidates))

/-! ## The supervisor -/

/-- `InvestigationResult`. -/
structure InvestigationResult where
  candidates : List Source
  agentRuns : List AgentRun
  agentSteps : List AgentStep
  agentHandoffs : List AgentHandoff
  deriving DecidableEq, Repr

/-- How `SupervisorPlanner.run` ends: stopped by the budget, with the partial
    agent runs, or with a result. -/
inductive Investigated where
  | blocked (e : BudgetExceeded) (agentRuns : List AgentRun)
  | found (result : InvestigationResult)
  deriving DecidableEq, Repr

/-- `AGENTRUN-{case_id}-{role}`. -/
def runId (caseId : String) (role : AgentRole) : String :=
  "AGENTRUN-" ++ caseId ++ "-" ++ role.value

/-- The supervisor's run as it is opened. -/
def supervisorRun (c : Case) (budget : RunBudget) : AgentRun where
  agentRunId := runId c.caseId .supervisor
  caseId := c.caseId
  agentId := (supervisorAgent rt).agentId
  maxToolCalls := budget.maxToolCalls
  maxSteps := budget.maxSteps

/-- A run the supervisor delegates. -/
def delegatedRun (c : Case) (budget : RunBudget) (role : AgentRole) (agent : AgentDefinition)
    (toolCallsUsed stepsUsed : Nat) (status : TerminationStatus) (reasons : List ReasonCode) :
    AgentRun where
  agentRunId := runId c.caseId role
  caseId := c.caseId
  agentId := agent.agentId
  parentRunId := some (runId c.caseId .supervisor)
  maxToolCalls := budget.maxToolCalls
  maxSteps := budget.maxSteps
  toolCallsUsed := toolCallsUsed
  stepsUsed := stepsUsed
  terminationStatus := some status
  terminationReasonCodes := reasons

/-- The delegation of a task to the run of `role`. -/
def handoff (c : Case) (role : AgentRole) (agent : AgentDefinition) (task : String) :
    AgentHandoff where
  handoffId := "HANDOFF-" ++ c.caseId ++ "-" ++ role.value
  parentRunId := runId c.caseId .supervisor
  childRunId := runId c.caseId role
  fromAgentId := (supervisorAgent rt).agentId
  toAgentId := agent.agentId
  delegatedTask := task

/-- The agent runs of an investigation that the budget stopped. -/
def blockedRuns (c : Case) (left : RunBudget) (e : BudgetExceeded) : List AgentRun :=
  let reasons := [.budgetExceeded, e.resource.reason]
  [{ supervisorRun rt c left with
      terminationStatus := some .controlBlocked
      terminationReasonCodes := reasons },
   delegatedRun c left .retrieval (retrievalAgent rt) left.toolCallsUsed left.stepsUsed
      .controlBlocked reasons]

/-- The records of an investigation that ran to its end. -/
def investigationResult (c : Case) (left : RunBudget) (candidates : List Source)
    (retrievalSteps criticSteps : List AgentStep) : InvestigationResult where
  candidates := candidates
  agentRuns := [
    { supervisorRun rt c left with
        toolCallsUsed := left.toolCallsUsed
        stepsUsed := retrievalSteps.length + criticSteps.length
        terminationStatus := some .completed },
    delegatedRun c left .retrieval (retrievalAgent rt) left.toolCallsUsed retrievalSteps.length
      .completed [],
    delegatedRun c left .critic (criticAgent rt) 0 criticSteps.length .completed []]
  agentSteps := retrievalSteps ++ criticSteps
  agentHandoffs := [
    handoff rt c .retrieval (retrievalAgent rt) "RETRIEVE_CANDIDATES",
    handoff rt c .critic (criticAgent rt) "REVIEW_CANDIDATE_BINDING"]

def handoffEntries : List Entry :=
  [{ stage := "INVESTIGATE", eventType := "AGENT_HANDOFF_RETRIEVAL" },
   { stage := "INVESTIGATE", eventType := "AGENT_HANDOFF_CRITIC" }]

/-- `SupervisorPlanner.run`. -/
def supervise (c : Case) (sources : List Source) (trace : TraceRecorder) (budget : RunBudget) :
    Except ToolError (Investigated × TraceRecorder) := do
  match ← retrievalRun rt c sources trace budget (runId c.caseId .retrieval) with
  | (.error e, trace, left) => return (.blocked e (blockedRuns rt c left e), trace)
  | (.ok (candidates, retrievalSteps), trace, left) =>
      let (criticSteps, trace) := criticRun rt c candidates trace (runId c.caseId .critic)
      return (.found (investigationResult rt c left candidates retrievalSteps criticSteps),
        trace.recordAll rt handoffEntries)

/-! ## What an investigation returns -/

variable {rt}

/-- Without a tool call left, the investigation stops and records nothing. -/
theorem supervise_of_spent {c : Case} {sources : List Source} {trace : TraceRecorder}
    {budget : RunBudget} (h : budget.Spent) :
    supervise rt c sources trace budget =
      .ok (.blocked ⟨.toolCalls, budget.maxToolCalls⟩
        (blockedRuns rt c budget.consumeToolCall.2 ⟨.toolCalls, budget.maxToolCalls⟩), trace) := by
  have hcall : budget.consumeToolCall =
      (.error ⟨.toolCalls, budget.maxToolCalls⟩, budget.consumeToolCall.2) :=
    Prod.ext (consumeToolCall_of_spent h) rfl
  rw [supervise, retrievalRun, hcall]
  rfl

/-- What the supervisor returns with a tool call left. -/
def foundResult (rt : Runtime R) (c : Case) (sources : List Source) (budget : RunBudget) :
    InvestigationResult :=
  investigationResult rt c budget.consumeToolCall.2 (candidatesOf c sources)
    [retrievalStep rt c sources (runId c.caseId .retrieval)]
    [criticStep (candidatesOf c sources) (runId c.caseId .critic)]

@[simp] theorem foundResult_candidates (c : Case) (sources : List Source) (budget : RunBudget) :
    (foundResult rt c sources budget).candidates = candidatesOf c sources := rfl

/-- **CANDIDATES ONLY**: with a tool call left, the investigation returns the
    sources the case refers to. -/
theorem supervise_of_left {c : Case} {sources : List Source} {trace : TraceRecorder}
    {budget : RunBudget} (h : ¬ budget.Spent) :
    supervise rt c sources trace budget =
      .ok (.found (foundResult rt c sources budget),
        trace.recordAll rt (retrievalEntries c sources
          ++ criticEntry c (candidatesOf c sources) :: handoffEntries)) := by
  have hcall : budget.consumeToolCall = (.ok (), budget.consumeToolCall.2) :=
    Prod.ext (consumeToolCall_of_left h) rfl
  rw [supervise, retrievalRun, hcall]
  simp only [validate_search]
  rfl

end Investigation
