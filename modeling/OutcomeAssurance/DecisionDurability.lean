import OutcomeAssurance.CaseApi

/-! # Decisions and re-runs

    Any sequence of calls to the case and review endpoints, from an empty
    store on.  A recorded decision lasts exactly as long as nobody runs its
    case again: a run deletes the review with the other rows of the case, and
    files a PENDING one under the same id, or none. -/

namespace DecisionDurability

open KeyedTable CaseModel PyRuntime Investigation Pipeline CaseStore CaseKeys CaseOwnership
open CaseClock CaseIsolation CaseApi ReviewModel Runs

variable {R : Type} {api : Api R} {s s' : Store R} {call : Call} {row : ReviewTask}

/-- The store after some calls. -/
def after (api : Api R) (calls : List Call) : Store R := run api.step Store.empty calls

/-- The decision of `row` is still recorded in `row'`. -/
structure SameDecision (row row' : ReviewTask) : Prop where
  status : row'.status = .decided
  reviewerId : row'.reviewerId = row.reviewerId
  reviewerDecision : row'.reviewerDecision = row.reviewerDecision
  /-- The notes hold the idempotency key. -/
  reviewerNotes : row'.reviewerNotes = row.reviewerNotes

/-- The call is an accepted decision that changes the stored review. -/
def Applies (api : Api R) (s : Store R) (call : Call) (reviewId : String) : Prop :=
  ∃ row, Accepts api s call row ∧ row.reviewId = reviewId ∧
    s.reviewTasks.get reviewId ≠ some row

/-- Whatever decision is accepted along the calls is recorded ever after, and
    no later one is applied to its review. -/
structure Durable (api : Api R) (calls : List Call) : Prop where
  recorded : ∀ pre call mid post row, calls = pre ++ call :: (mid ++ post) →
    Accepts api (after api pre) call row →
    ∃ row', (after api (pre ++ call :: mid)).reviewTasks.get row.reviewId = some row' ∧
      SameDecision row row'
  final : ∀ pre call mid again post row, calls = pre ++ call :: (mid ++ again :: post) →
    Accepts api (after api pre) call row →
    ¬ Applies api (after api (pre ++ call :: mid)) again row.reviewId

/-- The call does not run a case whose review is decided. -/
def Spares (api : Api R) (s : Store R) (call : Call) : Prop :=
  ∀ caseId, api.runs s call = some caseId →
    ∀ r ∈ s.reviewTasks.rows, r.caseId = caseId → r.status ≠ .decided

/-! ## Reachable stores -/

/-- Every stored case has a fixture, and its evidence is stored. -/
structure Stocked (api : Api R) (s : Store R) : Prop where
  owned : Owned s
  filed : ∀ c ∈ caseIds s, ∃ f, api.registry.loadCaseFixture c = some f ∧
    ∀ id ∈ f.job.candidateIds, ∃ e ∈ s.evidence.rows, e.caseId = c ∧ e.sourceId = id

theorem stocked_empty (api : Api R) : Stocked api Store.empty :=
  ⟨owned_empty, fun _ hc => absurd hc List.not_mem_nil⟩

/-- What running a case does to the store. -/
theorem runAndPersist_cases (hs : Stocked api s) (caseId : String) :
    (api.runAndPersist s caseId).2 = s ∨ ∃ f a,
      api.registry.loadCaseFixture caseId = some f ∧ a.case.caseId = caseId ∧
      runCasePipeline api.runtime f.case f.sources {} = .ok a ∧
      Persisted api.runtime s a (api.runAndPersist s caseId).2 ∧
      Owned (api.runAndPersist s caseId).2 := by
  rw [runAndPersist_snd]
  cases hload : api.registry.loadCaseFixture caseId with
  | none => exact Or.inl rfl
  | some f =>
      cases hpersist : f.job.persist api.runtime s with
      | none =>
          left
          show (f.job.persist api.runtime s).getD s = s
          rw [hpersist]
          rfl
      | some s' =>
          right
          obtain ⟨a, hrun, hcase, hpersisted, howned⟩ := persisted_of_persist hs.owned hpersist
          have hstep : CaseIsolation.step api.runtime s f.job = s' := by
            rw [CaseIsolation.step, hpersist]
            rfl
          refine ⟨f, a, rfl, hcase ▸ (api.registry.loaded hload).1, hrun, ?_⟩
          show Persisted api.runtime s a (CaseIsolation.step api.runtime s f.job) ∧
            Owned (CaseIsolation.step api.runtime s f.job)
          rw [hstep]
          exact ⟨hpersisted, howned⟩

theorem stocked_run (hs : Stocked api s) (caseId : String) :
    Stocked api (api.runAndPersist s caseId).2 := by
  rcases runAndPersist_cases hs caseId with heq | ⟨f, a, hload, hcase, hrun, hpersisted, howned⟩
  · rw [heq]
    exact hs
  · refine ⟨howned, fun c hc => ?_⟩
    have hrows := Table.rows_of_insert hpersisted.evidence
    by_cases heq : c = caseId
    · refine ⟨f, heq ▸ hload, fun id hid => ?_⟩
      rw [← evidence_of_run (j := f.job) hrun] at hid
      obtain ⟨e, he, hsource⟩ := List.mem_map.mp hid
      refine ⟨e, hrows ▸ List.mem_append_right _ he, ?_, hsource⟩
      rw [((shaped_of_run hrun).1.evidence e he).1, hcase, heq]
    · have hold : c ∈ caseIds s := by
        rw [caseIds_persisted hpersisted, List.mem_append, List.mem_singleton, hcase] at hc
        obtain ⟨r, hr, hid⟩ := List.mem_map.mp (hc.resolve_right heq)
        exact hid ▸ ((cleared_kept hs.owned a).cases r hr).1
      obtain ⟨f', hload', hstored⟩ := hs.filed c hold
      refine ⟨f', hload', fun id hid => ?_⟩
      obtain ⟨e, he, hce, hsource⟩ := hstored id hid
      have hkept : e ∈ (kept s a).evidence.rows := by
        refine (mem_kept_evidence hs.owned).mpr ⟨he, ?_⟩
        rw [hce, hcase]
        exact heq
      exact ⟨e, hrows ▸ List.mem_append_left _ hkept, hce, hsource⟩

/-- A decision files no row under another id. -/
theorem stocked_decide (hs : Stocked api s) {req : DecisionRequest} {loaded changed : ReviewTask}
    (hok : req.decide loaded = .ok changed) :
    Stocked api { s with reviewTasks := commitReview s.reviewTasks (loaded, changed) } := by
  obtain ⟨-, -, hcase⟩ := decided_of_ok hok
  refine ⟨{ hs.owned with reviewTasks := ?_ }, hs.filed⟩
  intro r hr
  obtain ⟨r', hr', rfl⟩ := List.mem_map.mp hr
  obtain ⟨c, hc, howns⟩ := hs.owned.reviewTasks r' hr'
  refine ⟨c, hc, ?_, ?_⟩
  · rw [rewriteReview_caseId hcase]
    exact howns.1
  · rw [rewriteReview_reviewId]
    exact howns.2

theorem stocked_step (hs : Stocked api s) (call : Call) : Stocked api (api.step s call) := by
  rw [Api.step]
  cases effect api s call with
  | refused idle unchanged unaccepted =>
      rw [Api.step] at unchanged
      rw [unchanged]
      exact hs
  | ran caseId runs result =>
      rw [result]
      exact stocked_run hs caseId
  | decided idle req loaded changed found ok stored result =>
      rw [result]
      exact stocked_decide hs ok

theorem stocked_after (api : Api R) (calls : List Call) : Stocked api (after api calls) := by
  have hstep : ∀ s call, Stocked api s → Stocked api (api.step s call) :=
    fun _ call hs => stocked_step hs call
  exact run_invariant hstep (stocked_empty api) calls

/-! ## Running a case again -/

/-- A run of a stored case goes through: the evidence it files was there. -/
theorem rerun_persists (hs : Stocked api s) {caseId : String} {f : Fixture}
    (hstored : caseId ∈ caseIds s) (hload : api.registry.loadCaseFixture caseId = some f) :
    ∃ s', f.job.persist api.runtime s = some s' := by
  obtain ⟨a, hrun, hpersist⟩ := persist_eq api.runtime f.job
  obtain ⟨hshaped, hcase⟩ := shaped_of_run hrun
  obtain ⟨hnamed, hdistinct⟩ := api.registry.loaded hload
  have hcaseId : a.case.caseId = caseId := by
    rw [hcase]
    exact hnamed
  obtain ⟨f', hload', hfiled⟩ := hs.filed caseId hstored
  obtain rfl : f = f' := Option.some.inj (hload.symm.trans hload')
  rw [hpersist, persist_isSome hs.owned hshaped, Table.insert_isSome]
  refine ⟨evidence_unclashed hrun hdistinct, fun e he e' he' hclash => ?_⟩
  obtain ⟨hmem, hne⟩ := (mem_kept_evidence hs.owned).mp he
  -- the row of that source that the case already has
  have hcandidate : e'.sourceId ∈ f.job.candidateIds :=
    evidence_of_run hrun ▸ List.mem_map.mpr ⟨e', he', rfl⟩
  obtain ⟨own, hown, howncase, hownsource⟩ := hfiled e'.sourceId hcandidate
  have hid : e.evidenceId = own.evidenceId := by
    have hclash : e.evidenceId = e'.evidenceId := hclash
    rw [hclash, (hshaped.evidence e' he').2, (hs.owned.evidence own hown).2, hownsource]
  have heq : e = own := Table.eq_of_clash hmem hown hid
  rw [heq, howncase, hcaseId] at hne
  exact hne rfl

/-- The review a run files is pending. -/
theorem pending_of_run {rt : Runtime R} {c : Case} {sources : List Source} {budget : RunBudget}
    {a : CaseArtifacts R} (h : runCasePipeline rt c sources budget = .ok a) :
    ∀ r ∈ a.review.toList, r.status = .pending := by
  intro r hr
  by_cases hspent : budget.Spent
  · rw [run_of_spent hspent] at h
    obtain rfl := Except.ok.inj h
    exact absurd hr List.not_mem_nil
  · obtain ⟨review, report, entries, hrun, hfiled⟩ := run_of_left rt c sources hspent
    rw [hrun] at h
    obtain rfl := Except.ok.inj h
    obtain ⟨primary, -, rfl⟩ := hfiled.review_eq r (Option.mem_toList.mp hr)
    rfl

/-- The reviews after a run of `caseId`: those of other cases, and a pending one. -/
theorem review_of_persisted {rt : Runtime R} {a : CaseArtifacts R} {c : Case}
    {sources : List Source} {budget : RunBudget} (hs : Owned s)
    (hrun : runCasePipeline rt c sources budget = .ok a) (h : Persisted rt s a s')
    (hrow : row ∈ s'.reviewTasks.rows) :
    (row ∈ s.reviewTasks.rows ∧ row.caseId ≠ a.case.caseId) ∨ row.status = .pending := by
  rw [Table.rows_of_insert h.reviewTasks, List.mem_append] at hrow
  exact hrow.imp (mem_kept_reviewTasks hs).mp (pending_of_run hrun row)

/-- **A RE-RUN UNDOES** the decision: no row under its id is decided any more. -/
theorem undecided_of_rerun (hs : Stocked api s) (hrow : row ∈ s.reviewTasks.rows)
    (hruns : api.runs s call = some row.caseId) {row' : ReviewTask}
    (hget : (api.step s call).reviewTasks.get row.reviewId = some row') :
    row'.status = .pending := by
  obtain ⟨c, hc, hcase, hid⟩ := hs.owned.reviewTasks row hrow
  obtain ⟨f, hload, -⟩ := hs.filed c hc
  rw [hcase] at hruns
  obtain ⟨s', hpersist⟩ := rerun_persists hs hc hload
  obtain ⟨a, hrun, hacase, hpersisted, -⟩ := persisted_of_persist hs.owned hpersist
  have hstep : api.step s call = s' := by
    rw [Api.step]
    cases effect api s call with
    | refused idle unchanged unaccepted => cases idle.symm.trans hruns
    | decided idle req loaded changed found ok stored result =>
        cases idle.symm.trans hruns
    | ran caseId runs result =>
        obtain rfl := Option.some.inj (runs.symm.trans hruns)
        rw [result, runAndPersist_snd, hload]
        show (f.job.persist api.runtime s).getD s = s'
        rw [hpersist]
        rfl
  rw [hstep] at hget
  obtain ⟨hmem, hkey⟩ := Table.get_eq_some.mp hget
  refine (review_of_persisted hs.owned hrun hpersisted hmem).resolve_left ?_
  rintro ⟨hold, hother⟩
  obtain ⟨c', -, hcase', hid'⟩ := hs.owned.reviewTasks row' hold
  have hsame : "REVIEW-" ++ c' = "REVIEW-" ++ c := hid'.symm.trans (hkey.trans hid)
  refine hother ?_
  rw [hcase', (String.append_right_inj _).mp hsame, hacase]
  exact (api.registry.loaded hload).1.symm

/-! ## Calls that spare decided cases -/

/-- **STEP LEMMA**: a call that spares decided cases keeps every decided row. -/
theorem kept_step (hs : Stocked api s) {id : String} (hget : s.reviewTasks.get id = some row)
    (hdecided : row.status = .decided) (hspares : Spares api s call) :
    (api.step s call).reviewTasks.get id = some row := by
  obtain ⟨hmem, hkey⟩ := Table.get_eq_some.mp hget
  rw [Api.step]
  cases effect api s call with
  | refused idle unchanged unaccepted =>
      rw [Api.step] at unchanged
      rw [unchanged]
      exact hget
  | ran caseId runs result =>
      rw [result]
      rcases runAndPersist_cases hs caseId with heq | ⟨f, a, -, hcase, -, hpersisted, -⟩
      · rw [heq]
        exact hget
      · have hother : row.caseId ≠ a.case.caseId := fun heq =>
          hspares caseId runs row hmem (heq.trans hcase) hdecided
        refine Table.get_eq_some.mpr ⟨?_, hkey⟩
        rw [Table.rows_of_insert hpersisted.reviewTasks]
        exact List.mem_append_left _ ((mem_kept_reviewTasks hs.owned).mpr ⟨hmem, hother⟩)
  | decided idle req loaded changed found ok stored result =>
      rw [result]
      show (commitReview s.reviewTasks (loaded, changed)).get id = some row
      rw [get_commitReview, hget, Option.map_some]
      by_cases hid : row.reviewId = loaded.reviewId
      · -- the row itself: a decided row is not written
        have hsame : row = loaded :=
          Table.eq_of_clash hmem (Table.mem_of_get found) hid
        rcases decide_ok ok with ⟨-, rfl⟩ | ⟨hpending, -⟩
        · rw [rewriteReview_unchanged]
        · rw [← hsame, hdecided] at hpending
          cases hpending
      · rw [rewriteReview, if_neg hid]

/-- An accepted call leaves the row it shows. -/
theorem stored_of_accepts (haccepts : Accepts api s call row) :
    row.status = .decided ∧ (api.step s call).reviewTasks.get row.reviewId = some row := by
  rw [Api.step]
  cases effect api s call with
  | refused idle unchanged unaccepted => exact absurd haccepts (unaccepted row)
  | ran caseId runs result =>
      rw [Accepts, result] at haccepts
      exact absurd haccepts (runAndPersist_unaccepted api s caseId row)
  | decided idle req loaded changed found ok stored result =>
      rw [Accepts, result] at haccepts
      obtain rfl := DecisionResponse.decided.inj (Response.decision.inj haccepts)
      obtain ⟨hstatus, hid, -⟩ := decided_of_ok ok
      have hkey : changed.reviewId = req.reviewId := hid.trans (Table.key_of_get found)
      refine ⟨hstatus, ?_⟩
      rw [result, hkey]
      exact stored

/-- A decided review is only replayed. -/
theorem unapplied_of_decided {id : String} (hget : s.reviewTasks.get id = some row)
    (hdecided : row.status = .decided) : ¬ Applies api s call id := by
  rintro ⟨row', haccepts, hid, hchanges⟩
  cases effect api s call with
  | refused idle unchanged unaccepted => exact unaccepted row' haccepts
  | ran caseId runs result =>
      rw [Accepts, result] at haccepts
      exact runAndPersist_unaccepted api s caseId row' haccepts
  | decided idle req loaded changed found ok stored result =>
      rw [Accepts, result] at haccepts
      obtain rfl := DecisionResponse.decided.inj (Response.decision.inj haccepts)
      obtain ⟨-, hsame, -⟩ := decided_of_ok ok
      have hreq : req.reviewId = id := by
        rw [← hid, hsame]
        exact (Table.key_of_get found).symm
      rw [hreq] at found
      obtain rfl : row = loaded := Option.some.inj (hget.symm.trans found)
      rcases decide_ok ok with ⟨-, rfl⟩ | ⟨hpending, -⟩
      · exact hchanges hget
      · cases hdecided.symm.trans hpending

theorem after_append (api : Api R) (pre : List Call) (call : Call) (mid : List Call) :
    after api (pre ++ call :: mid) = run api.step (api.step (after api pre) call) mid := by
  rw [after, run_append, run_cons, after]

/-- **RUN LEMMA**: along calls that spare decided cases, what was accepted is
    still stored. -/
theorem kept_after {pre mid post : List Call}
    (hspares : Along api.step (Spares api) Store.empty (pre ++ call :: (mid ++ post)))
    (haccepts : Accepts api (after api pre) call row) :
    row.status = .decided ∧
      (after api (pre ++ call :: mid)).reviewTasks.get row.reviewId = some row := by
  obtain ⟨hdecided, hget⟩ := stored_of_accepts haccepts
  refine ⟨hdecided, ?_⟩
  rw [along_append] at hspares
  obtain ⟨-, -, hmid⟩ := hspares
  rw [along_append] at hmid
  have hstep : ∀ s call, (Stocked api s ∧ s.reviewTasks.get row.reviewId = some row) →
      Spares api s call →
      Stocked api (api.step s call) ∧
        (api.step s call).reviewTasks.get row.reviewId = some row := by
    rintro s call ⟨hs, hrow⟩ hspare
    exact ⟨stocked_step hs call, kept_step hs hrow hdecided hspare⟩
  have hstart : Stocked api (api.step (after api pre) call) ∧
      (api.step (after api pre) call).reviewTasks.get row.reviewId = some row :=
    ⟨stocked_step (stocked_after api pre) call, hget⟩
  rw [after_append]
  exact (run_invariant_along hstep hstart hmid.1).2

/-! ## The exact condition -/

/-- Every decided row was accepted at some call. -/
theorem accepted_of_decided (api : Api R) (calls : List Call)
    (hrow : row ∈ (after api calls).reviewTasks.rows) (hdecided : row.status = .decided) :
    ∃ pre call post row', calls = pre ++ call :: post ∧
      Accepts api (after api pre) call row' ∧ row'.reviewId = row.reviewId := by
  induction calls using List.reverseRecOn with
  | nil => exact absurd hrow List.not_mem_nil
  | append_singleton calls call ih =>
      -- only the last call needs a look: what was decided before it is known
      have hearlier : row ∈ (after api calls).reviewTasks.rows →
          ∃ pre call' post row', calls ++ [call] = pre ++ call' :: post ∧
            Accepts api (after api pre) call' row' ∧ row'.reviewId = row.reviewId := by
        intro hold
        obtain ⟨pre, call', post, row', hsplit, haccepts, hid⟩ := ih hold
        refine ⟨pre, call', post ++ [call], row', ?_, haccepts, hid⟩
        rw [hsplit, List.append_assoc, List.cons_append]
      have hs := stocked_after api calls
      have hlast : after api (calls ++ [call]) = api.step (after api calls) call := by
        rw [after, run_snoc, after]
      rw [hlast, Api.step] at hrow
      cases effect api (after api calls) call with
      | refused idle unchanged unaccepted =>
          rw [Api.step] at unchanged
          rw [unchanged] at hrow
          exact hearlier hrow
      | ran caseId runs result =>
          rw [result] at hrow
          rcases runAndPersist_cases hs caseId with heq | ⟨f, a, -, -, hrun, hpersisted, -⟩
          · rw [heq] at hrow
            exact hearlier hrow
          · rcases review_of_persisted hs.owned hrun hpersisted hrow with ⟨hold, -⟩ | hpending
            · exact hearlier hold
            · cases hdecided.symm.trans hpending
      | decided idle req loaded changed found ok stored result =>
          rw [result] at hrow
          obtain ⟨row₀, hrow₀, rfl⟩ := List.mem_map.mp hrow
          by_cases hid : row₀.reviewId = loaded.reviewId
          · refine ⟨calls, call, [], changed, rfl, congrArg Prod.fst result, ?_⟩
            rw [rewriteReview_reviewId, hid]
            exact (decided_of_ok ok).2.1
          · have hsame : rewriteReview (loaded, changed) row₀ = row₀ := by
              rw [rewriteReview, if_neg hid]
            rw [hsame] at hearlier hdecided ⊢
            exact hearlier hrow₀

theorem durable_of_spares {calls : List Call}
    (h : Along api.step (Spares api) Store.empty calls) : Durable api calls where
  recorded pre call mid post row hsplit haccepts := by
    rw [hsplit] at h
    obtain ⟨hdecided, hget⟩ := kept_after h haccepts
    exact ⟨row, hget, hdecided, rfl, rfl, rfl⟩
  final pre call mid again post row hsplit haccepts := by
    rw [hsplit] at h
    obtain ⟨hdecided, hget⟩ := kept_after h haccepts
    exact unapplied_of_decided hget hdecided

theorem spares_of_durable {calls : List Call} (h : Durable api calls) :
    Along api.step (Spares api) Store.empty calls := by
  refine along_of_forall_at ?_
  intro pre call post hsplit caseId hruns r hr hcase hdecided
  -- the decided row was accepted earlier, so durability still holds it after the run
  obtain ⟨early, accepted, mid, row, rfl, haccepts, hid⟩ := accepted_of_decided api pre hr hdecided
  have hsplit' : calls = early ++ accepted :: ((mid ++ [call]) ++ post) := by
    rw [hsplit]
    simp
  obtain ⟨row', hget, hsame⟩ := h.recorded early accepted (mid ++ [call]) post row hsplit' haccepts
  have hlast : after api (early ++ accepted :: (mid ++ [call]))
      = api.step (after api (early ++ accepted :: mid)) call := by
    rw [after, ← List.cons_append, ← List.append_assoc, run_snoc, after]
  rw [hlast, hid] at hget
  have hpending := undecided_of_rerun (stocked_after api _) hr (hcase ▸ hruns) hget
  cases hsame.status.symm.trans hpending

/-- **DURABLE EXACTLY WHEN** no call runs a case whose review is decided; for
    any fixtures, any tokens and any sequence of calls. -/
theorem durable_iff (api : Api R) (calls : List Call) :
    Durable api calls ↔ Along api.step (Spares api) Store.empty calls :=
  ⟨spares_of_durable, durable_of_spares⟩

/-- An accepted decision whose case is run right after it is not durable. -/
theorem undone_by_rerun {pre : List Call} {rerun : Call}
    (haccepts : Accepts api (after api pre) call row)
    (hruns : api.runs (after api (pre ++ [call])) rerun = some row.caseId) :
    ¬ Durable api (pre ++ [call] ++ [rerun]) := by
  intro h
  obtain ⟨hdecided, hget⟩ := stored_of_accepts haccepts
  have hlast : after api (pre ++ [call]) = api.step (after api pre) call := by
    rw [after, run_snoc, after]
  rw [← hlast] at hget
  have hspares : Spares api (after api (pre ++ [call])) rerun := (spares_of_durable h).at
  exact hspares row.caseId hruns row (Table.mem_of_get hget) rfl hdecided

/-- A pending review is decided by a caller who has its role. -/
theorem accepts_pending {principal : Principal} {reviewId : String}
    {authorization : Option String} {loaded : ReviewTask} (body : ReviewDecisionRequest)
    (now : Nat) (t : Readings) (hauth : requireAuth api.tokens authorization = .ok principal)
    (hget : s.reviewTasks.get reviewId = some loaded) (hpending : loaded.status = .pending)
    (hrole : principal.role = loaded.assignedRole) :
    ∃ row, Accepts api s ⟨authorization, .postReviewDecision reviewId body, now, t⟩ row ∧
      row.caseId = loaded.caseId := by
  obtain ⟨changed, hok⟩ :=
    decide_of_pending (decisionRequest principal reviewId body now) hpending
  obtain ⟨-, halone⟩ := alone_of_ok hget hrole hok
  refine ⟨changed, ?_, (decided_of_ok hok).2.2⟩
  rw [Accepts, Api.handle, hauth]
  show (api.postReviewDecision s (decisionRequest principal reviewId body now)).1 = _
  rw [Api.postReviewDecision, halone]

/-- No call loses a stored case. -/
theorem caseIds_step (hs : Stocked api s) {c : String} (hc : c ∈ caseIds s) :
    c ∈ caseIds (api.step s call) := by
  rw [Api.step]
  cases effect api s call with
  | refused idle unchanged unaccepted =>
      rw [Api.step] at unchanged
      rwa [unchanged]
  | ran caseId runs result =>
      rw [result]
      rcases runAndPersist_cases hs caseId with heq | ⟨f, a, -, -, -, hpersisted, -⟩
      · rwa [heq]
      · exact caseIds_mono hpersisted hc
  | decided idle req loaded changed found ok stored result =>
      rw [result]
      exact hc

theorem runs_replay {principal : Principal} {caseId : String} {authorization : Option String}
    (now : Nat) (t : Readings) (hauth : requireAuth api.tokens authorization = .ok principal)
    (hstored : caseId ∈ caseIds s) :
    api.runs s ⟨authorization, .replayCase caseId, now, t⟩ = some caseId := by
  rw [Api.runs, hauth]
  cases hget : s.getCase caseId with
  | none => exact absurd hstored (getCase_eq_none.mp hget)
  | some stored => exact if_pos (by rw [hget]; rfl)

/-- A case without a verified binding is filed with a pending review. -/
theorem review_of_unbound {rt : Runtime R} {c : Case} {sources : List Source}
    {budget : RunBudget} {a : CaseArtifacts R} (hleft : ¬ budget.Spent)
    (hrun : runCasePipeline rt c sources budget = .ok a)
    (hunbound : Resolution.bindingMatch c = false) :
    ∃ r ∈ a.review, r.status = .pending ∧ r.caseId = c.caseId ∧
      r.reviewId = "REVIEW-" ++ c.caseId ∧ r.assignedRole = "retail-operations" := by
  obtain ⟨review, report, entries, hrun', hfiled⟩ := run_of_left rt c sources hleft
  rw [hrun'] at hrun
  obtain rfl := Except.ok.inj hrun
  have hhuman : (caseRuling rt c (runEvidence rt c sources)).decision = .requireHuman := by
    rw [caseRuling_decision, hunbound]
    rfl
  obtain ⟨r, hr⟩ := Option.isSome_iff_exists.mp (hfiled.review_iff.mpr hhuman)
  obtain ⟨primary, -, hprimary⟩ := hfiled.review_eq r hr
  refine ⟨r, hr, ?_⟩
  rw [hprimary]
  exact ⟨rfl, rfl, rfl, rfl⟩

/-- The shipped deployment. -/
def demoApi : Api Float := ⟨default, shipped, defaultTokens⟩

def demoCall (request : Request) : Call where
  authorization := some "Bearer dev-local-demo-token"
  request := request

/-- The case of the unverified seller is created, its review refused, and the
    case replayed. -/
def replayedCalls : List Call :=
  [demoCall (.createCase "CASE-RET-004")] ++
    [demoCall (.postReviewDecision "REVIEW-CASE-RET-004"
      { decision := "REJECT", idempotencyKey := "k-1" })] ++
    [demoCall (.replayCase "CASE-RET-004")]

theorem demo_auth : requireAuth demoApi.tokens (some "Bearer dev-local-demo-token")
    = .ok ⟨"demo-reviewer", "retail-operations"⟩ := rfl

theorem demo_fixture : demoApi.registry.loadCaseFixture "CASE-RET-004"
    = some ⟨Fixtures.unverifiedSellerCase, [Fixtures.kogan, Fixtures.accc]⟩ := rfl

/-- A case with a fixture is created in an empty store. -/
theorem demo_created {caseId : String} {f : Fixture}
    (hload : demoApi.registry.loadCaseFixture caseId = some f) :
    ∃ a, runCasePipeline (default : Runtime Float) f.case f.sources {} = .ok a ∧ a.case = f.case ∧
      Persisted default Store.empty a (after demoApi [demoCall (.createCase caseId)]) := by
  obtain ⟨s', hpersist⟩ := (persist_fresh_iff (default : Runtime Float) (j := f.job) owned_empty
    List.not_mem_nil (demoApi.registry.loaded hload).2).mpr (noneStored_empty _)
  obtain ⟨a, hrun, hcase, hpersisted, -⟩ := persisted_of_persist owned_empty hpersist
  have havailable : caseId ∈ demoApi.registry.listAvailableCaseIds :=
    demoApi.registry.available_iff.mpr ⟨f, hload⟩
  have hhandle : demoApi.handle Store.empty (demoCall (.createCase caseId))
      = demoApi.runAndPersist Store.empty caseId := by
    rw [Api.handle, demoCall, demo_auth]
    show demoApi.runFixture Store.empty caseId = _
    rw [Api.runFixture, if_neg (not_not.mpr havailable)]
  have hcreated : after demoApi [demoCall (.createCase caseId)] = s' := by
    rw [after, run_cons, run_nil, Api.step, hhandle, runAndPersist_snd, hload]
    show (Job.persist default _ Store.empty).getD Store.empty = s'
    rw [hpersist]
    rfl
  exact ⟨a, hrun, hcase, hcreated ▸ hpersisted⟩

/-- The replay deletes the recorded refusal. -/
theorem replay_undoes_decision : ¬ Durable demoApi replayedCalls := by
  obtain ⟨a, hrun, hcase, hpersisted⟩ := demo_created demo_fixture
  obtain ⟨r, hr, hpending, hrcase, hid, hrole⟩ := review_of_unbound (by decide) hrun (by decide)
  have hget : (after demoApi [demoCall (.createCase "CASE-RET-004")]).reviewTasks.get
      "REVIEW-CASE-RET-004" = some r := by
    refine Table.get_eq_some.mpr ⟨?_, hid⟩
    rw [Table.rows_of_insert hpersisted.reviewTasks]
    exact List.mem_append_right _ (Option.mem_toList.mpr hr)
  obtain ⟨row, haccepts, hrowcase⟩ := accepts_pending
    { decision := "REJECT", idempotencyKey := "k-1" } 0 default demo_auth hget hpending hrole.symm
  have hstored : "CASE-RET-004"
      ∈ caseIds (after demoApi [demoCall (.createCase "CASE-RET-004")]) := by
    have hmem := mem_caseIds_persisted hpersisted
    rwa [hcase] at hmem
  refine undone_by_rerun haccepts ?_
  rw [hrowcase, hrcase, after, run_snoc]
  exact runs_replay 0 default demo_auth (caseIds_step (stocked_after demoApi _) hstored)

end DecisionDurability
