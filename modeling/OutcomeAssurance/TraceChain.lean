import OutcomeAssurance.CaseModel

/-! # The hash-chained trace

    `app/services/trace.py` and `app/state_machine.py`: JSON as `json.dumps`
    writes it with sorted keys, the recorder that folds each event into the
    chain, and the transitions a case may take. -/

namespace TraceChain

open CaseModel PyRuntime PyText

/-! ## JSON -/

inductive Json where
  | null
  | bool (b : Bool)
  | int (n : Int)
  | str (s : String)
  | arr (items : List Json)
  | obj (fields : List (String × Json))

/-- Four lower-case hexadecimal digits. -/
def hex4 (n : Nat) : String :=
  String.ofList ([n / 4096 % 16, n / 256 % 16, n / 16 % 16, n % 16].map Nat.digitChar)

/-- One character of a JSON string; everything outside printable ASCII is
    escaped, beyond the basic plane as a surrogate pair. -/
def escape (c : Char) : String :=
  match c.toNat with
  | 0x22 => "\\\""
  | 0x5c => "\\\\"
  | 0x0a => "\\n"
  | 0x0d => "\\r"
  | 0x09 => "\\t"
  | 0x0c => "\\f"
  | 0x08 => "\\b"
  | n =>
      if 0x20 ≤ n ∧ n ≤ 0x7e then c.toString
      else if n < 0x10000 then "\\u" ++ hex4 n
      else "\\u" ++ hex4 (0xd800 + (n - 0x10000) / 0x400)
        ++ "\\u" ++ hex4 (0xdc00 + (n - 0x10000) % 0x400)

def quote (s : String) : String := "\"" ++ String.join (s.toList.map escape) ++ "\""

mutual
/-- `json.dumps(value, sort_keys=True)`. -/
def dumps : Json → String
  | .null => "null"
  | .bool b => if b then "true" else "false"
  | .int n => toString n
  | .str s => quote s
  | .arr items => "[" ++ ", ".intercalate (dumpsItems items) ++ "]"
  | .obj fields =>
      "\x7b" ++ ", ".intercalate (((dumpsFields fields).mergeSort fun a b => a.1 ≤ b.1).map
        fun p => quote p.1 ++ ": " ++ p.2) ++ "\x7d"

def dumpsItems : List Json → List String
  | [] => []
  | v :: rest => dumps v :: dumpsItems rest

def dumpsFields : List (String × Json) → List (String × String)
  | [] => []
  | (k, v) :: rest => (k, dumps v) :: dumpsFields rest
end

def Json.ofOption : Option String → Json
  | none => .null
  | some s => .str s

/-! ## The state machine of a case -/

inductive CaseStatus where
  | created | investigating | evidenceValidated | claimsResolved | authorityEvaluated
  | needsReview | readyToReconcile | completed
  deriving DecidableEq, Repr

def CaseStatus.value : CaseStatus → String
  | .created => "CREATED"
  | .investigating => "INVESTIGATING"
  | .evidenceValidated => "EVIDENCE_VALIDATED"
  | .claimsResolved => "CLAIMS_RESOLVED"
  | .authorityEvaluated => "AUTHORITY_EVALUATED"
  | .needsReview => "NEEDS_REVIEW"
  | .readyToReconcile => "READY_TO_RECONCILE"
  | .completed => "COMPLETED"

/-- `ALLOWED_TRANSITIONS`. -/
def allowedTransitions : CaseStatus → List CaseStatus
  | .created => [.investigating]
  | .investigating => [.evidenceValidated]
  | .evidenceValidated => [.claimsResolved]
  | .claimsResolved => [.authorityEvaluated]
  | .authorityEvaluated => [.needsReview, .readyToReconcile]
  | .needsReview => [.readyToReconcile]
  | .readyToReconcile => [.completed]
  | .completed => []

/-- `InvalidTransitionError`. -/
structure InvalidTransition where
  current : CaseStatus
  target : CaseStatus
  deriving DecidableEq, Repr

def InvalidTransition.message (e : InvalidTransition) : String :=
  s!"Cannot transition case from {e.current.value} to {e.target.value}"

def validateTransition (current target : CaseStatus) : Except InvalidTransition Unit :=
  if target ∈ allowedTransitions current then .ok () else .error ⟨current, target⟩

/-! ## The recorder -/

structure TraceRecorder where
  caseId : String
  sequence : Nat
  chainHash : String
  events : List TraceEvent

variable {R : Type} (rt : Runtime R)

/-- `TraceRecorder(case_id)`. -/
def TraceRecorder.start (caseId : String) : TraceRecorder where
  caseId := caseId
  sequence := 0
  chainHash := rt.sha256 ("CASE:" ++ caseId)
  events := []

/-- The arguments of one call of `record`. -/
structure Entry where
  stage : String
  eventType : String
  toolName : Option String := none
  evidenceIds : List String := []
  arguments : Option Json := none

/-- What an event's `result_hash` is taken of. -/
def resultPayload (sequence : Int) (stage eventType : String) (toolName : Option String)
    (evidenceIds : List String) : String :=
  dumps (.obj [
    ("sequence", .int sequence),
    ("stage", .str stage),
    ("event_type", .str eventType),
    ("tool_name", .ofOption toolName),
    ("evidence_ids", .arr (evidenceIds.map .str))])

/-- `state_after_hash`. -/
def link (before result : String) (argument : Option String) : String :=
  rt.sha256 (before ++ result ++ argument.getD "")

/-- `record`, with the arguments as `json.dumps` writes them, whatever they are
    made of. -/
def TraceRecorder.recordWritten (t : TraceRecorder) (stage eventType : String)
    (toolName : Option String) (evidenceIds : List String) (written : Option String) :
    TraceRecorder :=
  let sequence := t.sequence + 1
  let argumentHash := written.map rt.sha256
  -- no wall-clock time is hashed, so a replay gives the same chain
  let resultHash := rt.sha256 (resultPayload sequence stage eventType toolName evidenceIds)
  let stateAfterHash := link rt t.chainHash resultHash argumentHash
  { t with
    sequence := sequence
    chainHash := stateAfterHash
    events := t.events ++ [{
      traceId := "TRACE-" ++ t.caseId ++ "-" ++ zeroPad 3 sequence
      caseId := t.caseId
      sequence := sequence
      stage := stage
      eventType := eventType
      toolName := toolName
      argumentHash := argumentHash
      resultHash := some resultHash
      stateBeforeHash := some t.chainHash
      stateAfterHash := some stateAfterHash
      evidenceIds := evidenceIds }] }

/-- `record` with arguments that are modelled. -/
def TraceRecorder.record (t : TraceRecorder) (e : Entry) : TraceRecorder :=
  t.recordWritten rt e.stage e.eventType e.toolName e.evidenceIds (e.arguments.map dumps)

/-- Several calls of `record`, in order. -/
def TraceRecorder.recordAll (t : TraceRecorder) (es : List Entry) : TraceRecorder :=
  es.foldl (TraceRecorder.record rt) t

def transitionEntry (current target : CaseStatus) : Entry where
  stage := "STATE"
  eventType := "STATE_TRANSITION"
  arguments := some (.obj [("from", .str current.value), ("to", .str target.value)])

/-- `transition`: an illegal one raises before anything is recorded. -/
def TraceRecorder.transition (t : TraceRecorder) (current target : CaseStatus) :
    Except InvalidTransition (CaseStatus × TraceRecorder) := do
  validateTransition current target
  return (target, t.record rt (transitionEntry current target))

/-! ## What the recorder keeps -/

/-- The events of a recorder are numbered from 1 without gaps, belong to its
    case and carry the id made of case and number. -/
structure Numbered (t : TraceRecorder) : Prop where
  sequence_eq : t.sequence = t.events.length
  sequences : t.events.map TraceEvent.sequence =
    (List.range t.events.length).map fun n => ((n + 1 : Nat) : Int)
  caseIds : ∀ e ∈ t.events, e.caseId = t.caseId
  traceIds : ∀ e ∈ t.events, e.traceId = "TRACE-" ++ t.caseId ++ "-" ++ zeroPad 3 e.sequence.toNat

theorem numbered_start (caseId : String) : Numbered (TraceRecorder.start rt caseId) where
  sequence_eq := rfl
  sequences := rfl
  caseIds _ he := absurd he List.not_mem_nil
  traceIds _ he := absurd he List.not_mem_nil

@[simp] theorem record_caseId (t : TraceRecorder) (e : Entry) :
    (t.record rt e).caseId = t.caseId := rfl

variable {rt}

/-- An illegal transition raises. -/
theorem transition_of_illegal (t : TraceRecorder) {current target : CaseStatus}
    (h : target ∉ allowedTransitions current) :
    t.transition rt current target = .error ⟨current, target⟩ := by
  rw [TraceRecorder.transition, validateTransition, if_neg h]
  rfl

theorem transition_of_allowed (t : TraceRecorder) {current target : CaseStatus}
    (h : target ∈ allowedTransitions current) :
    t.transition rt current target =
      .ok (target, t.record rt (transitionEntry current target)) := by
  rw [TraceRecorder.transition, validateTransition, if_pos h]
  rfl

theorem Numbered.recordWritten {t : TraceRecorder} (h : Numbered t) (stage eventType : String)
    (toolName : Option String) (evidenceIds : List String) (written : Option String) :
    Numbered (t.recordWritten rt stage eventType toolName evidenceIds written) where
  sequence_eq := by
    show t.sequence + 1 = (t.events ++ [_]).length
    rw [h.sequence_eq, List.length_append, List.length_singleton]
  sequences := by
    show (t.events ++ [_]).map TraceEvent.sequence
      = (List.range (t.events ++ [_]).length).map fun n => ((n + 1 : Nat) : Int)
    rw [List.map_append, List.length_append, List.length_singleton, List.range_succ,
      List.map_append, h.sequences, ← h.sequence_eq]
    rfl
  caseIds := by
    intro ev hev
    rcases List.mem_append.mp hev with hev | hev
    · exact h.caseIds ev hev
    · rw [List.mem_singleton.mp hev]
      rfl
  traceIds := by
    intro ev hev
    rcases List.mem_append.mp hev with hev | hev
    · exact h.traceIds ev hev
    · rw [List.mem_singleton.mp hev]
      rfl

theorem Numbered.record {t : TraceRecorder} (h : Numbered t) (e : Entry) :
    Numbered (t.record rt e) :=
  h.recordWritten ..

theorem Numbered.recordAll {t : TraceRecorder} (h : Numbered t) (es : List Entry) :
    Numbered (t.recordAll rt es) := by
  induction es generalizing t with
  | nil => exact h
  | cons e es ih => exact ih (h.record e)

theorem recordAll_recordAll (t : TraceRecorder) (es es' : List Entry) :
    (t.recordAll rt es).recordAll rt es' = t.recordAll rt (es ++ es') :=
  (List.foldl_append ..).symm

theorem record_eq_recordAll (t : TraceRecorder) (e : Entry) :
    t.record rt e = t.recordAll rt [e] := rfl

@[simp] theorem recordAll_caseId (t : TraceRecorder) (es : List Entry) :
    (t.recordAll rt es).caseId = t.caseId := by
  induction es generalizing t with
  | nil => rfl
  | cons e es ih => exact ih (t.record rt e)

end TraceChain
