import OutcomeAssurance.CaseComponents
import OutcomeAssurance.DecisionDurability

/-! # Where stored decisions come from

    A stored review is what the pipeline opened, or that with the decision of
    one call filled in: by a principal of the assigned role, with the call's
    own decision, notes and key, answered with this very row, and stored ever
    since. -/

namespace DecisionOrigin

open CaseModel PyDict PyRuntime Pipeline CaseStore CaseIsolation CaseApi CaseDesk
open CaseComponents DeskRefinement ReviewModel Refinement Runs KeyedTable
open ChainVerifier hiding Call
open DecisionDurability (after)

variable {R : Type} {api : Api R} {d : Desk} {call : Call} {calls : List Call}
  {c : String} {opened r : ReviewTask}

/-! ## Reviews and their decisions -/

/-- The review as a call has decided it. -/
def filledIn (opened : ReviewTask) (principal : Principal) (body : ReviewDecisionRequest)
    (now : Nat) : ReviewTask :=
  { opened with
    status := .decided
    reviewerId := some principal.reviewerId
    reviewerDecision := some body.decision
    reviewerNotes := some (recordedNotes body.notes body.idempotencyKey)
    decidedAt := some now }

theorem decide_opened {principal : Principal} {reviewId : String} {body : ReviewDecisionRequest}
    {now : Nat} {changed : ReviewTask} (hopened : opened.status = .pending)
    (hok : (decisionRequest principal reviewId body now).decide opened = .ok changed) :
    changed = filledIn opened principal body now := by
  rcases decide_ok hok with ⟨hdecided, -⟩ | ⟨-, heq⟩
  · cases hopened.symm.trans hdecided
  · exact heq

theorem after_snoc (api : Api R) (calls : List Call) (call : Call) :
    after api (calls ++ [call]) = api.step (after api calls) call :=
  run_snoc _ _ _

theorem represents_after (api : Api R) (calls : List Call) :
    Represents api (after api calls) (run (next (CaseDesk.handle api)) ∅ calls) :=
  (handle_simulation api).run_related (represents_empty api) calls

/-- A call of the history decided the opened review: the answer to it was the
    row, and the row has been stored ever since. -/
def DecidedBy (api : Api R) (calls : List Call) (opened r : ReviewTask) : Prop :=
  ∃ before call rest principal body, calls = before ++ call :: rest ∧
    requireAuth api.tokens call.authorization = .ok principal ∧
    call.request = .postReviewDecision r.reviewId body ∧
    principal.role = opened.assignedRole ∧ r = filledIn opened principal body call.now ∧
    (api.handle (after api before) call).1 = .decision (.decided r) ∧
    ∀ later, later <+: rest → r ∈ (after api (before ++ call :: later)).reviewTasks.rows

/-- The row is what the pipeline opened for the case, or that as decided. -/
def Accounted (api : Api R) (calls : List Call) (r : ReviewTask) : Prop :=
  ∃ a opened, artifactsOf api r.caseId = some a ∧ a.review = some opened ∧
    opened.status = .pending ∧ (r = opened ∨ DecidedBy api calls opened r)

theorem DecidedBy.snoc (h : DecidedBy api calls opened r)
    (hstill : r ∈ (after api (calls ++ [call])).reviewTasks.rows) :
    DecidedBy api (calls ++ [call]) opened r := by
  obtain ⟨before, decision, rest, principal, body, rfl, hauth, hrequest, hrole, hr, hanswer,
    hstored⟩ := h
  refine ⟨before, decision, rest ++ [call], principal, body, by simp, hauth, hrequest, hrole, hr,
    hanswer, fun later hlater => ?_⟩
  rcases List.prefix_concat_iff.mp hlater with rfl | hlater
  · simpa using hstill
  · exact hstored later hlater

theorem Accounted.snoc (h : Accounted api calls r)
    (hstill : r ∈ (after api (calls ++ [call])).reviewTasks.rows) :
    Accounted api (calls ++ [call]) r := by
  obtain ⟨a, opened, ha, hreview, hpending, hr⟩ := h
  exact ⟨a, opened, ha, hreview, hpending, hr.imp id fun hdecided => hdecided.snoc hstill⟩

/-- The review that a run opens is pending. -/
theorem pending_of_artifacts {a : CaseArtifacts R} (ha : artifactsOf api c = some a)
    (hopened : a.review = some opened) : opened.status = .pending := by
  obtain ⟨f, -, hrun, -, -⟩ := fixture_of_artifacts ha
  exact DecisionDurability.pending_of_run hrun opened (Option.mem_toList.mpr hopened)

theorem mem_reviews {s : Store R} (h : Represents api s d) :
    r ∈ s.reviewTasks.rows ↔ ∃ c file, d.get c = some file ∧ file.review = some r := by
  rw [h.reviews, List.mem_filterMap]
  constructor
  · rintro ⟨file, hfile, hreview⟩
    obtain ⟨c, hget⟩ := Dict.mem_values.mp hfile
    exact ⟨c, file, hget, hreview⟩
  · rintro ⟨c, file, hget, hreview⟩
    exact ⟨file, Dict.mem_values.mpr ⟨c, hget⟩, hreview⟩

/-- What one call leaves stored is accounted for when what was stored is. -/
theorem accounted_snoc
    (ih : ∀ r ∈ (after api calls).reviewTasks.rows, Accounted api calls r)
    (hr : r ∈ (after api (calls ++ [call])).reviewTasks.rows) :
    Accounted api (calls ++ [call]) r := by
  have hbefore := represents_after api calls
  have hafter := represents_after api (calls ++ [call])
  rw [run_snoc] at hafter
  generalize run (next (CaseDesk.handle api)) ∅ calls = d at hbefore hafter
  have hkept : ∀ c file, d.get c = some file → file.review = some r →
      Accounted api (calls ++ [call]) r := by
    intro c file hget hreview
    exact (ih r ((mem_reviews hbefore).mpr ⟨c, file, hget, hreview⟩)).snoc hr
  obtain ⟨c, file, hget, hreview⟩ := (mem_reviews hafter).mp hr
  cases filing api d call with
  | kept response _ hresult =>
      rw [next, hresult] at hget
      exact hkept c file hget hreview
  | ran c' a version ha _ hresult =>
      rw [next, hresult, Dict.get_set, Dict.get_pop] at hget
      split at hget
      · obtain rfl := Option.some.inj hget
        have hcase : r.caseId = c' := (filedUnder_of_artifacts ha r hreview).1
        exact ⟨a, r, hcase ▸ ha, hreview, pending_of_artifacts ha hreview, Or.inl rfl⟩
      · exact hkept c file hget hreview
  | decided principal reviewId body loaded changed hauth hrequest hfound hrole hok hresult =>
      rw [next, hresult, Dict.get_set] at hget
      split at hget
      · obtain rfl := Option.some.inj hget
        obtain rfl : changed = r := Option.some.inj hreview
        have htidy : Tidy d := fun c file hget => (hbefore.filed c file hget).1
        obtain ⟨hname, file, hfile, hloaded⟩ := filed_of_reviewOf htidy hfound
        obtain ⟨-, hid, hcase⟩ := decided_of_ok hok
        obtain ⟨a, opened, ha, hopened, hpending, hwas⟩ :=
          ih loaded ((mem_reviews hbefore).mpr ⟨_, file, hfile, hloaded⟩)
        rcases hwas with rfl | hdecided
        · -- this call decides the review
          refine ⟨a, loaded, hcase ▸ ha, hopened, hpending, Or.inr ?_⟩
          have hfilled := decide_opened hpending hok
          refine ⟨calls, call, [], principal, body, rfl, hauth, ?_, hrole, hfilled, ?_, ?_⟩
          · rw [hrequest, hid, (htidy _ file hfile loaded hloaded).2, hname]
          · rw [(handle_simulation api).answer hbefore, hresult]
          · intro later hlater
            rw [List.prefix_nil.mp hlater]
            exact hr
        · -- an earlier call did, and this one only repeats it
          have hsame : changed = loaded := by
            rcases decide_ok hok with ⟨-, heq⟩ | ⟨hloadedPending, -⟩
            · exact heq
            · obtain ⟨_, _, _, _, _, -, -, -, -, hfilled, -⟩ := hdecided
              rw [hfilled] at hloadedPending
              cases hloadedPending
          subst hsame
          exact hkept _ file hfile hloaded
      · exact hkept c file hget hreview

/-- **EVERY STORED REVIEW IS ACCOUNTED FOR**: after any history it is the pending
    review that the pipeline opens for its case, or that review as one call of
    the history decided it. -/
theorem stored_reviews (api : Api R) (calls : List Call) :
    ∀ r ∈ (after api calls).reviewTasks.rows, Accounted api calls r := by
  induction calls using List.reverseRecOn with
  | nil => exact fun r hr => absurd hr List.not_mem_nil
  | append_singleton calls call ih => exact fun r hr => accounted_snoc ih hr

/-- The review of the unverified seller's case, once it is refused. -/
theorem refusal_accounted :
    let calls := [DecisionDurability.demoCall (.createCase "CASE-RET-004")] ++
      [DecisionDurability.demoCall (.postReviewDecision "REVIEW-CASE-RET-004"
        { decision := "REJECT", idempotencyKey := "k-1" })]
    ∃ r ∈ (after DecisionDurability.demoApi calls).reviewTasks.rows,
      r.status = .decided ∧ Accounted DecisionDurability.demoApi calls r := by
  intro calls
  obtain ⟨a, hrun, -, hpersisted⟩ := DecisionDurability.demo_created DecisionDurability.demo_fixture
  obtain ⟨r, hr, hpending, -, hid, hrole⟩ :=
    DecisionDurability.review_of_unbound (by decide) hrun (by decide)
  have hget : (after DecisionDurability.demoApi
      [DecisionDurability.demoCall (.createCase "CASE-RET-004")]).reviewTasks.get
      "REVIEW-CASE-RET-004" = some r := by
    refine Table.get_eq_some.mpr ⟨?_, hid⟩
    rw [Table.rows_of_insert hpersisted.reviewTasks]
    exact List.mem_append_right _ (Option.mem_toList.mpr hr)
  obtain ⟨row, haccepts, -⟩ := DecisionDurability.accepts_pending
    { decision := "REJECT", idempotencyKey := "k-1" } 0 default DecisionDurability.demo_auth hget
    hpending hrole.symm
  obtain ⟨hdecided, hstored⟩ := DecisionDurability.stored_of_accepts haccepts
  have hmem : row ∈ (after DecisionDurability.demoApi calls).reviewTasks.rows := by
    rw [after_snoc]
    exact Table.mem_of_get hstored
  exact ⟨row, hmem, hdecided, stored_reviews DecisionDurability.demoApi calls row hmem⟩

end DecisionOrigin
