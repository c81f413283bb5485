import OutcomeAssurance.CaseQueries

/-! # What is stored of one case

    The rows of one case, table by table, as the reading endpoints select them.
    A persisted run replaces the rows of its own case by its own, and leaves the
    rows of every other case as they are. -/

namespace CaseViews

open KeyedTable CaseModel PyRuntime Investigation Pipeline CaseStore CaseKeys CaseOwnership
open CaseIsolation CaseQueries Runs
open ReviewModel

variable {R : Type} {rt : Runtime R} {s s' : Store R} {a b : CaseArtifacts R}
  {version : Nat}

/-! ## Views of a table -/

section Views

variable {ρ : Type} [Constrained ρ] {t k t' : Table ρ} {new : List ρ} {f : ρ → String}
  {c c' : String}

theorem mem_rowsOf {r : ρ} : r ∈ rowsOf t f c ↔ r ∈ t.rows ∧ f r = c := by
  rw [rowsOf, List.mem_filter, decide_eq_true_eq]

theorem rowsOf_eq_nil (h : ∀ r ∈ t.rows, f r ≠ c) : rowsOf t f c = [] :=
  List.filter_eq_nil_iff.mpr fun r hr => by simpa using h r hr

/-- New rows are selected behind the rows that were there. -/
theorem rowsOf_insert (h : k.insert new = some t') :
    rowsOf t' f c = rowsOf k f c ++ new.filter fun r => f r = c := by
  rw [rowsOf, Table.rows_of_insert h, List.filter_append, rowsOf]

/-- Where nothing was selected before, the new rows are what is selected. -/
theorem rowsOf_replaced (h : k.insert new = some t') (hk : ∀ r ∈ k.rows, f r ≠ c)
    (hnew : ∀ r ∈ new, f r = c) : rowsOf t' f c = new := by
  rw [rowsOf_insert h, rowsOf_eq_nil hk, List.nil_append]
  exact List.filter_eq_self.mpr fun r hr => decide_eq_true (hnew r hr)

/-- New rows that are not selected leave the view as it is. -/
theorem rowsOf_spared (h : k.insert new = some t') (hnew : ∀ r ∈ new, f r ≠ c) :
    rowsOf t' f c = rowsOf k f c := by
  rw [rowsOf_insert h, List.filter_eq_nil_iff.mpr, List.append_nil]
  intro r hr
  simpa using hnew r hr

theorem rowsOf_delete {p : ρ → Bool} (hp : ∀ r ∈ t.rows, f r = c → p r = false) :
    rowsOf (t.delete p) f c = rowsOf t f c := by
  show (t.rows.filter fun r => !p r).filter _ = t.rows.filter _
  rw [List.filter_filter]
  refine List.filter_congr fun r hr => ?_
  by_cases hc : f r = c
  · rw [hp r hr hc, Bool.not_false, Bool.and_true]
  · rw [decide_eq_false hc, Bool.false_and]

end Views

/-! ## The rows of a run -/

/-- The stored rows of the case are those of the run, under a version; its
    review is looked at apart. -/
structure Shows (s : Store R) (a : CaseArtifacts R) (version : Nat) : Prop where
  case : s.getCase a.case.caseId = some (caseRow a version)
  evidence : rowsOf s.evidence Evidence.caseId a.case.caseId = a.evidence
  claims : rowsOf s.claims Claim.caseId a.case.caseId = a.claims
  authority : rowsOf s.authorityRecords AuthorityRecord.caseId a.case.caseId = [a.authority]
  outcome : rowsOf s.outcomes Outcome.caseId a.case.caseId = [a.outcome]
  trace : rowsOf s.traceEvents TraceEvent.caseId a.case.caseId = a.traceEvents
  runs : rowsOf s.agentRuns AgentRun.caseId a.case.caseId = a.agentRuns
  steps : ∀ role, rowsOf s.agentSteps AgentStep.agentRunId (runId a.case.caseId role)
    = a.agentSteps.filter fun st => st.agentRunId = runId a.case.caseId role
  handoffs : rowsOf s.agentHandoffs AgentHandoff.parentRunId (runId a.case.caseId .supervisor)
    = a.agentHandoffs
  report : rowsOf s.guardrailReports GuardrailReport.caseId a.case.caseId
    = a.guardrailReport.toList

/-- The rows of other cases do not carry a case id that belongs to the rows of
    this one. -/
theorem ne_of_elsewhere {ρ : Type} [Constrained ρ] [CaseRows ρ] {ids : List String} {c : String}
    {t : Table ρ} {f : ρ → String} (h : Elsewhere ids c t)
    (hf : ∀ {c' r}, Owns c' r → f r = c') : ∀ r ∈ t.rows, f r ≠ c := by
  intro r hr heq
  obtain ⟨c', -, hne, hown⟩ := h r hr
  exact hne ((hf hown).symm.trans heq)

/-- **A PERSISTED RUN IS WHAT IS STORED** of its case. -/
theorem shows_persisted (hs : Owned s) (ha : Shaped a) (h : Persisted rt s a s') :
    Shows s' a (s.replaceExistingCase a.case.caseId).2 := by
  have hk := cleared_kept hs a
  exact {
    case := by
      rw [Store.getCase, Table.get_of_insert h.cases]
      exact if_pos rfl
    evidence := rowsOf_replaced h.evidence (fun e he => (hk.evidence e he).2.1)
      fun e he => (ha.evidence e he).1
    claims := rowsOf_replaced h.claims (ne_of_elsewhere hk.claims And.left)
      fun r hr => (ha.claims.1 r hr).1
    authority := rowsOf_replaced h.authorityRecords (ne_of_elsewhere hk.authorityRecords And.left)
      fun r hr => List.mem_singleton.mp hr ▸ ha.authority.1
    outcome := rowsOf_replaced h.outcomes (ne_of_elsewhere hk.outcomes And.left)
      fun r hr => List.mem_singleton.mp hr ▸ ha.outcome.1
    trace := rowsOf_replaced h.traceEvents (ne_of_elsewhere hk.traceEvents And.left)
      fun r hr => (ha.trace.1 r hr).1
    runs := rowsOf_replaced h.agentRuns (ne_of_elsewhere hk.agentRuns And.left)
      fun r hr => (ha.runs.1 r hr).1
    steps := by
      intro role
      have hout : ∀ st ∈ (kept s a).agentSteps.rows,
          st.agentRunId ≠ runId a.case.caseId role := by
        intro st hst heq
        obtain ⟨c', -, hne, role', hrun, -⟩ := hk.agentSteps st hst
        exact hne (runId_inj (hrun.symm.trans heq)).1
      rw [rowsOf_insert h.agentSteps, rowsOf_eq_nil hout, List.nil_append]
    handoffs := by
      refine rowsOf_replaced h.agentHandoffs ?_ fun r hr => (ha.handoffs.1 r hr).1
      intro ho hho heq
      obtain ⟨c', -, hne, hparent, -⟩ := hk.agentHandoffs ho hho
      exact hne (runId_inj (hparent.symm.trans heq)).1
    report := rowsOf_replaced h.guardrailReports (ne_of_elsewhere hk.guardrailReports And.left)
      fun r hr => (ha.report.1 r hr).1 }

/-- The views of a case in the store from which another case has been removed. -/
theorem shows_kept (hs : Owned s) (hb : Shows s b version)
    (hne : b.case.caseId ≠ a.case.caseId) : Shows (kept s a) b version := by
  by_cases hstored : a.case.caseId ∈ caseIds s
  · rw [kept_of_stored hstored]
    have hcase : ∀ {ρ : Type} {f : ρ → String} {r : ρ}, f r = b.case.caseId →
        decide (f r = a.case.caseId) = false :=
      fun hr => decide_eq_false (hr ▸ hne)
    -- a run of `b` is no run of `a`
    have hrun : ∀ role, decide (runId b.case.caseId role ∈ s.runIds a.case.caseId) = false := by
      intro role
      refine decide_eq_false fun hmem => ?_
      obtain ⟨r, hr, hid⟩ := List.mem_map.mp hmem
      obtain ⟨hr, hrcase⟩ := List.mem_filter.mp hr
      obtain ⟨c, -, hcaseId, role', hrole⟩ := hs.agentRuns r hr
      have hsame := (runId_inj (hrole.symm.trans hid)).1
      exact hne (hsame.symm.trans (hcaseId.symm.trans (of_decide_eq_true hrcase)))
    exact {
      case := by
        have hcase' := hb.case
        rw [Store.getCase, Table.get_eq_some] at hcase'
        rw [Store.getCase, Table.get_eq_some]
        exact ⟨Table.mem_delete.mpr ⟨hcase'.1, decide_eq_false hne⟩, hcase'.2⟩
      evidence := (rowsOf_delete fun _ _ => hcase).trans hb.evidence
      claims := (rowsOf_delete fun _ _ => hcase).trans hb.claims
      authority := (rowsOf_delete fun _ _ => hcase).trans hb.authority
      outcome := (rowsOf_delete fun _ _ => hcase).trans hb.outcome
      trace := (rowsOf_delete fun _ _ => hcase).trans hb.trace
      runs := (rowsOf_delete fun _ _ => hcase).trans hb.runs
      steps := fun role => (rowsOf_delete fun _ _ hr => by rw [hr]; exact hrun role).trans
        (hb.steps role)
      handoffs := (rowsOf_delete fun _ _ hr => by rw [hr]; exact hrun .supervisor).trans
        hb.handoffs
      report := (rowsOf_delete fun _ _ => hcase).trans hb.report }
  · rw [kept_of_fresh hstored]
    exact hb

/-- **THE OTHER CASES** are stored as before. -/
theorem shows_other (hs : Owned s) (ha : Shaped a) (h : Persisted rt s a s')
    (hb : Shows s b version) (hne : b.case.caseId ≠ a.case.caseId) : Shows s' b version := by
  have hk := shows_kept hs hb hne
  exact {
    case := by
      rw [Store.getCase, Table.get_of_insert h.cases]
      exact (if_neg hne).trans hk.case
    evidence := (rowsOf_spared h.evidence fun e he heq =>
      hne (heq.symm.trans (ha.evidence e he).1)).trans hk.evidence
    claims := (rowsOf_spared h.claims fun r hr heq =>
      hne (heq.symm.trans (ha.claims.1 r hr).1)).trans hk.claims
    authority := (rowsOf_spared h.authorityRecords fun r hr heq =>
      hne (heq.symm.trans (List.mem_singleton.mp hr ▸ ha.authority.1))).trans hk.authority
    outcome := (rowsOf_spared h.outcomes fun r hr heq =>
      hne (heq.symm.trans (List.mem_singleton.mp hr ▸ ha.outcome.1))).trans hk.outcome
    trace := (rowsOf_spared h.traceEvents fun r hr heq =>
      hne (heq.symm.trans (ha.trace.1 r hr).1)).trans hk.trace
    runs := (rowsOf_spared h.agentRuns fun r hr heq =>
      hne (heq.symm.trans (ha.runs.1 r hr).1)).trans hk.runs
    steps := by
      intro role
      refine (rowsOf_spared h.agentSteps fun st hst heq => ?_).trans (hk.steps role)
      obtain ⟨role', hrun, -⟩ := ha.steps.1 st hst
      exact hne (runId_inj (heq.symm.trans hrun)).1
    handoffs := (rowsOf_spared h.agentHandoffs fun ho hho heq =>
      hne (runId_inj (heq.symm.trans (ha.handoffs.1 ho hho).1)).1).trans hk.handoffs
    report := (rowsOf_spared h.guardrailReports fun r hr heq =>
      hne (heq.symm.trans (ha.report.1 r hr).1)).trans hk.report }

/-! ## Any history of writes -/

/-- A transaction on the case store: a run of any case on any sources and
    budget, or a decision on a review. -/
inductive Write where
  | run (j : Job)
  | decide (req : DecisionRequest)

/-- The store after a write; one that is refused changes nothing. -/
def write (rt : Runtime R) (s : Store R) : Write → Store R
  | .run j => step rt s j
  | .decide req => { s with reviewTasks := (decision.alone req s.reviewTasks).2 }

/-- Every stored case shows some run of it. -/
structure Current (rt : Runtime R) (s : Store R) : Prop where
  owned : Owned s
  shown : ∀ c ∈ caseIds s, ∃ (j : Job) (a : CaseArtifacts R) (version : Nat),
    runCasePipeline rt j.case j.sources j.budget = .ok a ∧ a.case.caseId = c ∧ Shows s a version

theorem current_empty (rt : Runtime R) : Current rt (Store.empty : Store R) :=
  ⟨owned_empty, fun _ hc => absurd hc List.not_mem_nil⟩

theorem current_persisted (hs : Current rt s) {j : Job}
    (hrun : runCasePipeline rt j.case j.sources j.budget = .ok a) (h : Persisted rt s a s') :
    Current rt s' := by
  have hshaped := (shaped_of_run hrun).1
  refine ⟨owned_persisted hs.owned hshaped h, fun c hc => ?_⟩
  by_cases heq : c = a.case.caseId
  · exact ⟨j, a, _, hrun, heq.symm, shows_persisted hs.owned hshaped h⟩
  · rw [caseIds_persisted h, List.mem_append, List.mem_singleton, or_iff_left heq] at hc
    obtain ⟨r, hr, rfl⟩ := List.mem_map.mp hc
    obtain ⟨k, b, version, hk, hb, hshows⟩ :=
      hs.shown r.caseId ((cleared_kept hs.owned a).cases r hr).1
    exact ⟨k, b, version, hk, hb, shows_other hs.owned hshaped h hshows (hb ▸ heq)⟩

/-- The decisions touch nothing but reviews. -/
theorem owned_decided (hs : Owned s) (req : DecisionRequest) :
    Owned { s with reviewTasks := (decision.alone req s.reviewTasks).2 } := by
  rcases decision_alone req s.reviewTasks with ⟨r, halone, -⟩ |
    ⟨loaded, changed, -, hok, -, halone⟩
  · rw [halone]
    exact hs
  · rw [halone]
    obtain ⟨-, -, hcase⟩ := decided_of_ok hok
    refine { hs with reviewTasks := fun r hr => ?_ }
    obtain ⟨r', hr', rfl⟩ := List.mem_map.mp hr
    obtain ⟨c, hc, howns⟩ := hs.reviewTasks r' hr'
    refine ⟨c, hc, ?_, ?_⟩
    · rw [rewriteReview_caseId hcase]
      exact howns.1
    · rw [rewriteReview_reviewId]
      exact howns.2

/-- **EACH WRITE** leaves every stored case showing some run of it. -/
theorem current_write (hs : Current rt s) (w : Write) : Current rt (write rt s w) := by
  cases w with
  | run j =>
      rw [write, step]
      cases h : j.persist rt s with
      | none => exact hs
      | some s' =>
          obtain ⟨a, hrun, -, hpersisted, -⟩ := persisted_of_persist hs.owned h
          exact current_persisted hs hrun hpersisted
  | decide req =>
      refine ⟨owned_decided hs.owned req, fun c hc => ?_⟩
      obtain ⟨j, a, version, hrun, hcase, h⟩ := hs.shown c hc
      exact ⟨j, a, version, hrun, hcase, ⟨h.1, h.2, h.3, h.4, h.5, h.6, h.7, h.8, h.9, h.10⟩⟩

theorem current_run (rt : Runtime R) (history : List Write) :
    Current rt (run (write rt) Store.empty history) := by
  have hstep : ∀ s w, Current rt s → Current rt (write rt s w) :=
    fun _ w hs => current_write hs w
  exact run_invariant hstep (current_empty rt) history

end CaseViews
