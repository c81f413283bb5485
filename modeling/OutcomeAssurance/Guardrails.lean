import OutcomeAssurance.Backtracking
import OutcomeAssurance.TraceChain

/-! # Guardrails

    `app/guardrails.py`: the injection scan, the redaction of personal data,
    the case summary and its groundedness check.  The report of a run is made
    of these; it feeds no later stage. -/

namespace Guardrails

open CaseModel PyDict PyRuntime PyText Backtracking TraceChain

variable {R : Type} (rt : Runtime R)

/-! ## Injection markers -/

/-- `INJECTION_CATEGORY_MARKERS`. -/
def injectionCategoryMarkers : List (String × List String) :=
  [("INSTRUCTION_OVERRIDE",
      ["ignore previous instructions", "ignore all previous", "disregard the above"]),
   ("ROLE_MANIPULATION", ["you are now", "system:"]),
   ("AUTHORITY_MANIPULATION", ["set decision", "set authority"])]

/-- `scan_for_injection`. -/
def scanForInjection (text : String) : List String :=
  let lowered := rt.lower text
  (injectionCategoryMarkers.filter fun p => p.2.any (occursIn · lowered)).map Prod.fst

/-! ## Personal data -/

def isLetter (c : Char) : Bool := c.isAlpha

/-- `EMAIL`. -/
def email : Pattern :=
  let localPart := fun c : Char => c.isAlphanum || c ∈ ['.', '_', '%', '+', '-']
  let domain := fun c : Char => c.isAlphanum || c ∈ ['.', '-']
  .seq (.many 1 localPart) (.seq (.one (· = '@'))
    (.seq (.many 1 domain) (.seq (.one (· = '.')) (.many 2 isLetter))))

/-- `AU_PHONE`. -/
def auPhone : Pattern :=
  let digit := Pattern.one rt.isDigit
  let separator := Pattern.opt (.one fun c => isSpace c || c = '-')
  let prefix61 := Pattern.seq (.one (· = '+')) (.seq (.one (· = '6')) (.seq (.one (· = '1'))
    (.seq (.opt (.one isSpace)) (.one (· = '4')))))
  let prefix04 := Pattern.seq (.one (· = '0')) (.one (· = '4'))
  .seq .boundary (.seq (.alt prefix61 prefix04) (.times 2 digit (.seq separator
    (.times 3 digit (.seq separator (.times 3 digit .boundary))))))

/-- `CREDIT_CARD`. -/
def creditCard : Pattern :=
  let digit := Pattern.one rt.isDigit
  let separator := Pattern.opt (.one fun c => c = ' ' || c = '-')
  .seq .boundary (.times 3 (.times 4 digit separator) (.times 4 digit .boundary))

/-- `PII_PATTERNS`. -/
def piiPatterns : List (String × Pattern) :=
  [("EMAIL", email), ("AU_PHONE", auPhone rt), ("CREDIT_CARD", creditCard rt)]

/-- `redact_pii`: the redacted text and the categories found. -/
def redactPii (text : String) : String × List String :=
  -- each pattern sees the text as the earlier ones left it
  (piiPatterns rt).foldl (fun acc p =>
    if search rt.isWord p.2 acc.1 then
      (sub rt.isWord p.2 ("[REDACTED_" ++ p.1 ++ "]") acc.1, acc.2 ++ [p.1])
    else acc) (text, [])

/-! ## The case summary -/

/-- `_STATUS_WORDS`. -/
def statusWord : ClaimStatus → String
  | .true => "confirmed"
  | .false => "not established"
  | .unknown => "undetermined"

/-- The sentence of one claim. -/
def sentenceOf (c : Claim) : CaseSummarySentence :=
  let reason :=
    if c.reasonCodes = [] then "no recorded reason"
    else ", ".intercalate (c.reasonCodes.map ReasonCode.name)
  let citation :=
    if c.evidenceIds = [] then "" else ", citing evidence " ++ ", ".intercalate c.evidenceIds
  { text := "Claim " ++ c.claimType.name ++ " is " ++ statusWord c.status ++ " (" ++ reason ++ ")"
      ++ citation ++ "."
    evidenceIds := c.evidenceIds
    claimIds := [c.claimId] }

/-- `generate_case_summary`. -/
def generateCaseSummary (claims : List Claim) : List CaseSummarySentence :=
  claims.map sentenceOf

def ungroundedFallbackText : String :=
  "[REDACTED: unsupported statement removed by groundedness guardrail]"

/-- Every citation of the sentence is known. -/
def isGrounded (knownEvidenceIds knownClaimIds : List String) (s : CaseSummarySentence) : Bool :=
  s.claimIds.all (· ∈ knownClaimIds) && s.evidenceIds.all (· ∈ knownEvidenceIds)

/-- `check_groundedness`: the checked sentences and how many were replaced. -/
def checkGroundedness (sentences : List CaseSummarySentence)
    (knownEvidenceIds knownClaimIds : List String) : List CaseSummarySentence × Nat :=
  let grounded := isGrounded knownEvidenceIds knownClaimIds
  (sentences.map fun s =>
      if grounded s then s
      else { s with text := ungroundedFallbackText, grounded := false },
    sentences.countP fun s => !grounded s)

/-! ## The report -/

/-- A finding of the redaction; it never blocks. -/
def piiFinding (target category : String) : GuardrailFinding where
  category := "PII_" ++ category
  target := target
  detail := "Redacted before display"

def injectionFinding (target category : String) : GuardrailFinding where
  category := "INJECTION_" ++ category
  target := target
  detail :=
    "Flagged; non-blocking and cannot alter authority (see validate.py::NON_BLOCKING_REASONS)"

/-- The findings of one field of `case["event"]`. -/
def eventFindings (field : String × EventValue) : List GuardrailFinding :=
  match field.2 with
  | .text value => (redactPii rt value).2.map (piiFinding ("case.event." ++ field.1))
  | .other _ => []

/-- The findings of one evidence item. -/
def evidenceFindings (e : Evidence R) : List GuardrailFinding :=
  (scanForInjection rt e.excerpt).map (injectionFinding e.evidenceId)
    ++ (redactPii rt e.excerpt).2.map (piiFinding e.evidenceId)

/-- `run_guardrails`. -/
def runGuardrails (c : Case) (evidence : List (Evidence R)) (claims : List Claim)
    (trace : TraceRecorder) : GuardrailReport R × TraceRecorder :=
  let inputFindings :=
    c.event.items.flatMap (eventFindings rt) ++ evidence.flatMap (evidenceFindings rt)
  let relevanceScores := Dict.ofPairs (evidence.map fun e => (e.evidenceId, e.relevanceScore))
  let knownEvidenceIds := evidence.map Evidence.evidenceId
  let checked := checkGroundedness (generateCaseSummary claims) knownEvidenceIds
    (claims.map Claim.claimId)
  ({ reportId := "GUARDRAIL-" ++ c.caseId
     caseId := c.caseId
     inputFindings := inputFindings
     relevanceScores := relevanceScores
     summarySentences := checked.1
     ungroundedCount := checked.2 },
   trace.recordAll rt [
     -- findings in the event fields have no evidence id
     { stage := "GUARDRAILS", eventType := "INPUT_SCAN_COMPLETED"
       evidenceIds := (inputFindings.map GuardrailFinding.target).filter (· ∈ knownEvidenceIds) },
     { stage := "GUARDRAILS", eventType := "CASE_SUMMARY_GENERATED"
       evidenceIds := (relevanceScores.items.map Prod.fst).mergeSort fun a b => a ≤ b },
     { stage := "GUARDRAILS"
       eventType :=
         if checked.2 = 0 then "GROUNDEDNESS_CHECK_PASSED"
         else "GROUNDEDNESS_VIOLATION_BLOCKED" }])

/-- The report and the three events of the guardrails. -/
theorem runGuardrails_eq (c : Case) (evidence : List (Evidence R)) (claims : List Claim) :
    ∃ report entries, report.reportId = "GUARDRAIL-" ++ c.caseId ∧ report.caseId = c.caseId
      ∧ report.inputFindings =
        c.event.items.flatMap (eventFindings rt) ++ evidence.flatMap (evidenceFindings rt)
      ∧ (∀ e ∈ entries, e.stage = "GUARDRAILS")
      ∧ ∀ trace,
        runGuardrails rt c evidence claims trace = (report, trace.recordAll rt entries) := by
  refine ⟨_, _, rfl, rfl, rfl, ?_, fun _ => rfl⟩
  intro e he
  simp only [List.mem_cons, List.not_mem_nil, or_false] at he
  rcases he with rfl | rfl | rfl <;> rfl

end Guardrails
