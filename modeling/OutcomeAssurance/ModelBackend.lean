import OutcomeAssurance.PyRuntime

/-! # The model backend

    `app/serving/model_backend.py`: what one attempt to generate yields before
    it ends or raises, and the deterministic fake model as one such backend. -/

namespace ModelBackend

open PyRuntime

/-- `TransientBackendError` and `PermanentBackendError`. -/
inductive FailureKind where
  | transient | permanent
  deriving DecidableEq, Repr

/-- `type(exc).__name__`. -/
def FailureKind.name : FailureKind → String
  | .transient => "TransientBackendError"
  | .permanent => "PermanentBackendError"

structure BackendError where
  kind : FailureKind
  message : String
  deriving DecidableEq, Repr

/-- What can be raised out of a backend. -/
inductive Fault where
  | backend (e : BackendError)
  | timeout
  | other (name : String)
  deriving DecidableEq, Repr

structure ModelInfo where
  modelName : String
  modelVersion : String
  checkpointId : String
  deriving DecidableEq, Repr

/-- One call of `generate`, iterated to its end: the tokens it yields, and what
    it raises after them. -/
structure Generation where
  tokens : List String
  ending : Option Fault
  deriving DecidableEq, Repr

/-- An attempt raises a backend error before the first token, or yields one or
    more tokens and then ends or raises a backend error. -/
inductive Attempt where
  | fails (e : BackendError)
  | streams (first : String) (rest : List String) (ending : Option BackendError)
  deriving DecidableEq, Repr

def Attempt.tokens : Attempt → List String
  | .fails _ => []
  | .streams first rest _ => first :: rest

def Attempt.generation : Attempt → Generation
  | .fails e => ⟨[], some (.backend e)⟩
  | .streams first rest ending => ⟨first :: rest, ending.map .backend⟩

/-! ## The deterministic fake model -/

/-- `fail_mode`. -/
inductive FailMode where
  | transient | permanent | midStream
  deriving DecidableEq, Repr

structure DeterministicFakeModel where
  numTokens : Int := 8
  failMode : Option FailMode := none
  info : ModelInfo
  deriving Repr

variable {R : Type} (rt : Runtime R)

/-- `DEFAULT_MODEL_INFO`. -/
def defaultModelInfo : ModelInfo where
  modelName := "deterministic-fake-model"
  modelVersion := "v1"
  checkpointId := String.ofList ((rt.sha256 "deterministic-fake-model-v1").toList.take 12)

/-- `digest[i : i + span]`. -/
def piece (digest : String) (i span : Nat) : String :=
  String.ofList ((digest.toList.drop i).take span)

variable (m : DeterministicFakeModel)

/-- `_tokens_for`. -/
def DeterministicFakeModel.tokensFor (prompt : String) : Except Fault (List String) :=
  let digest := rt.sha256 prompt
  if m.numTokens = 0 then .error (.other "ZeroDivisionError")
  else
    let span := (max 1 (Int.fdiv digest.length m.numTokens)).toNat
    -- `range` is empty when it counts up to a negative number
    .ok ((List.range m.numTokens.toNat).map fun k => piece digest (span * k) span)

/-- `generate`. -/
def DeterministicFakeModel.generate (prompt : String) (attempt : Nat) : Generation :=
  if m.failMode = some .transient ∧ attempt < 3 then
    ⟨[], some (.backend ⟨.transient, s!"simulated transient failure (attempt {attempt})"⟩)⟩
  else if m.failMode = some .permanent then
    ⟨[], some (.backend ⟨.permanent, "simulated permanent failure"⟩)⟩
  else
    match m.tokensFor rt prompt with
    | .error fault => ⟨[], some fault⟩
    | .ok tokens =>
        if m.failMode = some .midStream ∧ 3 < tokens.length then
          ⟨tokens.take 3, some (.backend ⟨.permanent, "simulated mid-stream failure"⟩)⟩
        else ⟨tokens, none⟩

variable {rt m}

theorem tokensFor_of_pos (h : 0 < m.numTokens) (prompt : String) :
    ∃ first rest, m.tokensFor rt prompt = .ok (first :: rest) := by
  have hne : m.numTokens ≠ 0 := by omega
  obtain ⟨k, hk⟩ : ∃ k, m.numTokens.toNat = k + 1 := ⟨m.numTokens.toNat - 1, by omega⟩
  rw [DeterministicFakeModel.tokensFor, if_neg hne, hk, List.range_succ_eq_map]
  exact ⟨_, _, rfl⟩

/-- **THE FAKE MODEL IS A BACKEND**: with at least one token to yield, each of
    its attempts is of one of the two shapes. -/
theorem generate_attempt (h : 0 < m.numTokens) (prompt : String) (attempt : Nat) :
    ∃ a : Attempt, m.generate rt prompt attempt = a.generation := by
  obtain ⟨first, rest, htokens⟩ : ∃ first rest, m.tokensFor rt prompt = .ok (first :: rest) :=
    tokensFor_of_pos h prompt
  rw [DeterministicFakeModel.generate]
  by_cases htransient : m.failMode = some .transient ∧ attempt < 3
  · rw [if_pos htransient]
    exact ⟨.fails _, rfl⟩
  · rw [if_neg htransient]
    by_cases hpermanent : m.failMode = some .permanent
    · rw [if_pos hpermanent]
      exact ⟨.fails _, rfl⟩
    · rw [if_neg hpermanent, htokens]
      by_cases hmid : m.failMode = some .midStream ∧ 3 < (first :: rest).length
      · let e : BackendError := ⟨.permanent, "simulated mid-stream failure"⟩
        exact ⟨.streams first (rest.take 2) (some e), if_pos hmid⟩
      · exact ⟨.streams first rest none, if_neg hmid⟩

/-- A negative number of tokens makes an empty stream. -/
theorem generate_of_neg (h : m.numTokens < 0) (hmode : m.failMode = none) (prompt : String)
    (attempt : Nat) : m.generate rt prompt attempt = ⟨[], none⟩ := by
  have hne : m.numTokens ≠ 0 := by omega
  have hzero : m.numTokens.toNat = 0 := by omega
  rw [DeterministicFakeModel.generate, DeterministicFakeModel.tokensFor, if_neg hne, hzero, hmode]
  rfl

end ModelBackend
