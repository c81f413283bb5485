import OutcomeAssurance.EvidenceView
import OutcomeAssurance.FaultVerdict

/-! # How a case ends

    The decision of a run on its inputs, from the candidates to the review,
    with `app/authority_enforcement.py`, which lets no irreversible action
    through without ALLOW. -/

namespace CaseDecision

open CaseModel PyRuntime PyText Investigation Validation Resolution Pipeline EvidenceView

/-! ## Enforcement -/

/-- `IRREVERSIBLE_ACTIONS`. -/
def irreversibleActions : List String := ["AUTO_REFUND", "ISSUE_REFUND"]

def decisionValue : AuthorityDecision → String
  | .allow => "ALLOW"
  | .deny => "DENY"
  | .requireHuman => "REQUIRE_HUMAN"

/-- `UnauthorisedActionError`. -/
structure UnauthorisedAction where
  action : String
  decision : AuthorityDecision
  deriving DecidableEq, Repr

def UnauthorisedAction.message (e : UnauthorisedAction) : String :=
  s!"Action '{e.action}' is blocked: authority decision is {decisionValue e.decision}, not ALLOW"

/-- `enforce_action`. -/
def enforceAction (authority : AuthorityRecord) (action : String) :
    Except UnauthorisedAction Unit :=
  if action ∈ irreversibleActions ∧ authority.decision ≠ .allow then
    .error ⟨action, authority.decision⟩
  else .ok ()

/-- Outside of ALLOW every irreversible action is blocked. -/
theorem enforceAction_blocked {authority : AuthorityRecord}
    (h : authority.decision ≠ .allow) :
    ∀ action ∈ irreversibleActions,
      enforceAction authority action = .error ⟨action, authority.decision⟩ :=
  fun _ haction => if_pos ⟨haction, h⟩

/-! ## The decision -/

variable {R : Type} {rt : Runtime R} {c : Case} {sources : List Source} {budget : RunBudget}
  {a : CaseArtifacts R}

/-- The verdict is FALSE when nothing is contradicted and an admitted item
    says "minor" or "cosmetic". -/
theorem verdict_false_iff {evidence : List (Evidence R)} :
    (faultVerdict rt evidence).status = .false ↔
      contradictory evidence = false ∧ ∃ e ∈ admittedEvidence evidence, saysMinor rt e.excerpt := by
  cases hcontra : contradictory evidence with
  | true => simp [faultVerdict, hcontra]
  | false =>
      have hmem : ∀ e, e ∈ minorSupporting rt evidence ↔
          e ∈ admittedEvidence evidence ∧ saysMinor rt e.excerpt = true := by
        intro e
        rw [minorSupporting, faultEvidence, hcontra, if_neg Bool.false_ne_true, List.mem_filter,
          List.mem_filter, Bool.or_eq_true]
        exact ⟨fun h => ⟨h.1.1, h.2⟩, fun h => ⟨⟨h.1, Or.inr h.2⟩, h.2⟩⟩
      have hminor : (∃ e ∈ admittedEvidence evidence, saysMinor rt e.excerpt = true) ↔
          minorSupporting rt evidence ≠ [] := by
        constructor
        · rintro ⟨e, he⟩
          exact List.ne_nil_of_mem ((hmem e).mpr he)
        · intro hne
          obtain ⟨e, he⟩ := List.exists_mem_of_ne_nil _ hne
          exact ⟨e, (hmem e).mp he⟩
      rw [hminor, faultVerdict, hcontra]
      by_cases hm : minorSupporting rt evidence = []
      · by_cases hM : majorSupporting rt evidence = []
        · by_cases hfault : (faultEvidence rt evidence).isEmpty <;> simp [hm, hM, hfault]
        · by_cases hfault : (faultEvidence rt evidence).isEmpty <;> simp [hm, hM, hfault]
      · have hfault : (faultEvidence rt evidence).isEmpty = false := by
          rw [List.isEmpty_eq_false_iff]
          intro hnil
          exact hm (by rw [minorSupporting, hnil]; rfl)
        simp [hm, hfault]

theorem bindingMatch_iff :
    bindingMatch c = true ↔ ⟨c.orderRef, c.sellerRef, c.productRef⟩ ∈ validBindings := by
  rw [bindingMatch, List.any_eq_true]
  constructor
  · rintro ⟨⟨order, seller, product⟩, hb, heq⟩
    simp only [Bool.and_eq_true, decide_eq_true_eq] at heq
    obtain ⟨⟨rfl, rfl⟩, rfl⟩ := heq
    exact hb
  · intro hb
    exact ⟨_, hb, by simp⟩

/-- The reference condition of a denial: order, seller and product are one
    entry of the registry, the fault assessments of the case do not disagree,
    and an admitted item calls the fault minor or cosmetic. -/
structure Denies (rt : Runtime R) (c : Case) (sources : List Source) (a : CaseArtifacts R) :
    Prop where
  registered : ⟨c.orderRef, c.sellerRef, c.productRef⟩ ∈ validBindings
  agreed : ¬ Disagree (candidatesOf c sources)
  minor : ∃ e ∈ admittedEvidence a.evidence,
    occursIn "minor" (rt.lower e.excerpt) = true ∨ occursIn "cosmetic" (rt.lower e.excerpt) = true

/-- How a run ends, by its inputs. -/
structure EndsAs (rt : Runtime R) (c : Case) (sources : List Source) (budget : RunBudget)
    (a : CaseArtifacts R) : Prop where
  blocked : budget.Spent → a.terminationStatus = .controlBlocked
    ∧ a.authority.decision = .requireHuman ∧ a.evidence = [] ∧ a.claims = [] ∧ a.review = none
  denied : ¬ budget.Spent → (a.authority.decision = .deny ↔ Denies rt c sources a)
  escalated : ¬ budget.Spent → (a.authority.decision = .requireHuman ↔ ¬ Denies rt c sources a)
  reviewed : ¬ budget.Spent → (a.authority.decision = .requireHuman ↔
    a.terminationStatus = .needsReview ∧ ∃ task, a.review = some task)
  completed : ¬ budget.Spent → (a.authority.decision = .deny ↔
    a.terminationStatus = .completed ∧ a.review = none)
  neverAllowed : a.authority.decision ≠ .allow
  unenforceable : ∀ action ∈ irreversibleActions,
    enforceAction a.authority action = .error ⟨action, a.authority.decision⟩

theorem endsAs_blocked (h : budget.Spent) (e : BudgetExceeded) (agentRuns : List AgentRun)
    (trace : TraceChain.TraceRecorder) :
    EndsAs rt c sources budget (blockedArtifacts rt c e agentRuns trace) where
  blocked _ := ⟨rfl, rfl, rfl, rfl, rfl⟩
  denied hleft := absurd h hleft
  escalated hleft := absurd h hleft
  reviewed hleft := absurd h hleft
  completed hleft := absurd h hleft
  neverAllowed hallow := by cases hallow
  unenforceable := enforceAction_blocked fun hallow => by cases hallow

/-- The decision of a complete run. -/
theorem runAuthority_decision (rt : Runtime R) (c : Case) (sources : List Source) :
    (runAuthority rt c sources).decision =
      if bindingMatch c = true ∧ (faultVerdict rt (runEvidence rt c sources)).status = .false
      then .deny else .requireHuman :=
  caseRuling_decision c _

theorem endsAs_completed (hdistinct : (sources.map Source.sourceId).Nodup)
    (h : ¬ budget.Spent) (report : GuardrailReport R) (entries : List TraceChain.Entry) :
    EndsAs rt c sources budget
      (completedArtifacts rt c sources budget (runReview rt c sources) report entries) := by
  have hdenies : bindingMatch c = true
        ∧ (faultVerdict rt (runEvidence rt c sources)).status = .false ↔
      Denies rt c sources
        (completedArtifacts rt c sources budget (runReview rt c sources) report entries) := by
    rw [bindingMatch_iff, verdict_false_iff, FaultVerdict.contradictory_runEvidence,
      ← Bool.not_eq_true, contradicted_iff_disagree (candidates_nodup c hdistinct)]
    simp only [saysMinor, Bool.or_eq_true]
    constructor
    · rintro ⟨hb, hagree, hminor⟩
      exact ⟨hb, hagree, hminor⟩
    · rintro ⟨hb, hagree, hminor⟩
      exact ⟨hb, hagree, hminor⟩
  have hdecision := runAuthority_decision rt c sources
  have hreview : (runReview rt c sources).isSome = true ↔
      (runAuthority rt c sources).decision = .requireHuman :=
    reviewOf_isSome (runAuthority_reasonCodes rt c sources)
  have hallow : (runAuthority rt c sources).decision ≠ .allow := by
    rw [hdecision]
    split <;> decide
  have hdeny : (runAuthority rt c sources).decision = .deny ↔
      Denies rt c sources
        (completedArtifacts rt c sources budget (runReview rt c sources) report entries) := by
    rw [← hdenies, hdecision]
    split
    · next hboth => exact iff_of_true rfl hboth
    · next hnot => exact iff_of_false (by decide) hnot
  have hhuman : (runAuthority rt c sources).decision = .requireHuman ↔
      ¬ (runAuthority rt c sources).decision = .deny := by
    rw [hdecision]
    split <;> decide
  exact {
    blocked := fun hspent => absurd hspent h
    denied := fun _ => hdeny
    escalated := fun _ => hhuman.trans (not_congr hdeny)
    reviewed := fun _ => by
      constructor
      · intro hd
        have hsome := hreview.mpr hd
        exact ⟨if_pos hsome, Option.isSome_iff_exists.mp hsome⟩
      · rintro ⟨-, task, htask⟩
        exact hreview.mp (Option.isSome_iff_exists.mpr ⟨task, htask⟩)
    completed := fun _ => by
      constructor
      · intro hd
        have hnone : ¬ (runReview rt c sources).isSome = true :=
          fun hsome => hhuman.mp (hreview.mp hsome) hd
        exact ⟨if_neg hnone, Option.not_isSome_iff_eq_none.mp hnone⟩
      · rintro ⟨-, hnone⟩
        by_contra hd
        have hsome := hreview.mpr (hhuman.mpr hd)
        rw [show runReview rt c sources = none from hnone] at hsome
        cases hsome
    neverAllowed := hallow
    unenforceable := enforceAction_blocked hallow }

/-- **EVERY RUN ENDS AS ITS INPUTS SAY**: nothing is raised, a spent budget
    stops the run, a denial needs its three conditions, every other run goes to
    a human, and no record lets an irreversible action through. -/
theorem run_ends (rt : Runtime R) (c : Case) {sources : List Source}
    (hdistinct : (sources.map Source.sourceId).Nodup) (budget : RunBudget) :
    ∃ a, runCasePipeline rt c sources budget = .ok a ∧ EndsAs rt c sources budget a := by
  by_cases h : budget.Spent
  · exact ⟨_, run_of_spent h, endsAs_blocked h _ _ _⟩
  · obtain ⟨report, entries, hrun, -⟩ := run_recorded rt c sources h
    exact ⟨_, hrun, endsAs_completed hdistinct h report entries⟩

/-- The shipped case with a minor fault. -/
theorem minor_fault_ends :
    ∃ a, runCasePipeline (default : Runtime Float) Fixtures.minorFaultCase
        [Fixtures.kogan, Fixtures.accc, Fixtures.faultMinor] {} = .ok a ∧
      EndsAs default Fixtures.minorFaultCase
        [Fixtures.kogan, Fixtures.accc, Fixtures.faultMinor] {} a :=
  run_ends default Fixtures.minorFaultCase (by decide) {}

end CaseDecision
