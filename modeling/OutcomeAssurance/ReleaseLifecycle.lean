import OutcomeAssurance.ReleaseStack

/-! # Serial histories of the release lifecycle

    After every serial history of calls the lifecycle is that of a stack: the
    ACTIVE release is on top, a rollback with a fresh key pops it, and a release
    that was rolled back stays so (`lifecycle_refines_stack`). -/

namespace ReleaseLifecycle

open KeyedTable Interleaving Runs PointerStack ReleaseModel ReleaseCommit ReleaseSteps
open ReleaseStack

/-! ## Statuses along a history -/

/-- **A ROLLED_BACK RELEASE STAYS ROLLED_BACK.** -/
theorem rolledBack_step {db : Db} {stk : List String} (h : Stacked db stk) {id : String}
    (hid : statusOf db id = some .rolledBack) (c : Call) :
    statusOf (serve db c) id = some .rolledBack := by
  obtain ⟨x, hx, hxs⟩ := statusOf_eq_some.mp hid
  have hxid := id_of_get hx
  subst hxid
  obtain ⟨o, hserved⟩ := served_serve db c
  generalize serve db c = db' at hserved ⊢
  cases hserved with
  | raised e => exact hid
  | replayed hevent => exact hid
  | registered hnew hwrote =>
      rw [← hid]
      refine statusOf_of_get (hwrote.get_other ?_)
      intro r hr
      rw [List.mem_singleton.mp hr]
      rintro rfl
      cases hnew.symm.trans hx
  | gated hget _ hwrote =>
      have hrid := id_of_get hget
      subst hrid
      rw [← hid]
      exact hwrote.column_eq hget rfl _
  | approved hget _ hwrote =>
      have hrid := id_of_get hget
      subst hrid
      rw [← hid]
      exact hwrote.column_eq hget rfl _
  | @activated rid _ _ r _ hget hok hwrote =>
      have hrid := id_of_get hget
      subst hrid
      rw [← hid]
      refine statusOf_of_get (hwrote.activated_other ?_ ?_)
      · -- the release being activated is a candidate
        intro heq
        have hcand := (activationRefusal_eq_none.mp hok).1
        rw [heq] at hx
        rw [Option.some.inj (hget.symm.trans hx), hxs] at hcand
        cases hcand
      · rw [hid]
        intro hs
        cases hs
  | @rolledBack _ _ _ current previous previousId _ hevent hactive hprev hget hwrote =>
      have hpid := id_of_get hget
      subst hpid
      rw [if_neg (h.below_top hactive hprev hget).1] at hwrote
      obtain ⟨rest, rfl⟩ := h.top_two hactive hprev
      have hnot := h.not_mem hid (fun hs => by cases hs) (fun hs => by cases hs)
      rw [List.mem_cons, List.mem_cons, not_or, not_or] at hnot
      rw [← hid]
      exact statusOf_of_get (hwrote.rolledBack_other hnot.2.1 hnot.1)

theorem rolledBack_run {db : Db} {stk : List String} (h : Stacked db stk) {id : String}
    (hid : statusOf db id = some .rolledBack) (more : List Call) :
    statusOf (run serve db more) id = some .rolledBack := by
  induction more generalizing db stk with
  | nil => exact hid
  | cons c more ih => exact ih (stacked_step h c) (rolledBack_step h hid c)

/-- A rollback with a fresh key that returns has taken the top release off the
    stack. -/
theorem rollback_of_returned {db : Db} {activatedBy key x : String} {now : Nat}
    (hfresh : findRollbackEvent db key = none)
    (h : ((Call.rollbackActiveRelease activatedBy key now).exec db).1 = .returned x) :
    ∃ current previous, getActiveRow db = some current ∧ previous.releaseId = x ∧
      current.previousReleaseId = some x ∧ db.releases.get x = some previous ∧
      Wrote db (serve db (.rollbackActiveRelease activatedBy key now))
        [restored (if previous.releaseId = current.releaseId then revoked current now
          else previous) activatedBy now, revoked current now]
        (rollbackWork current previous activatedBy key now).event := by
  have hserved := served db (.rollbackActiveRelease activatedBy key now)
  rw [h] at hserved
  change Served db _ _ (serve db (.rollbackActiveRelease activatedBy key now)) at hserved
  generalize hdb : serve db (.rollbackActiveRelease activatedBy key now) = db' at hserved
  generalize ho : Outcome.returned x = o at hserved
  cases hserved with
  | raised e => cases ho
  | replayed hevent => cases hfresh.symm.trans hevent
  | @rolledBack _ _ _ current previous previousId _ hevent hactive hprev hget hwrote =>
      obtain rfl : x = previousId := Outcome.returned.inj ho
      exact ⟨current, previous, hactive, id_of_get hget, hprev, hget, hwrote⟩

/-- An activation that returns has pushed its release. -/
theorem stackAfter_activate {db : Db} {id activatedBy x : String} {now : Nat}
    (stk : List String) (h : ((Call.activateRelease id activatedBy now).exec db).1 = .returned x) :
    x = id ∧ stackAfter db stk (.activateRelease id activatedBy now) = id :: stk := by
  constructor
  · have hserved := served db (.activateRelease id activatedBy now)
    rw [h] at hserved
    generalize ((Call.activateRelease id activatedBy now).exec db).2 = db' at hserved
    cases hserved
    rfl
  · simp only [stackAfter]
    rw [h]

/-- Once a release is ACTIVE, some release is after every call. -/
theorem stackAfter_ne_nil {db : Db} {stk : List String} (h : Stacked db stk) (hne : stk ≠ [])
    (c : Call) : stackAfter db stk c ≠ [] := by
  cases ho : (c.exec db).1 with
  | raised e =>
      rw [stackAfter_raised ho]
      exact hne
  | returned x =>
      cases c with
      | registerCandidate | runReleaseGate | approveRelease => exact hne
      | activateRelease id activatedBy now =>
          rw [(stackAfter_activate stk ho).2]
          exact List.cons_ne_nil _ _
      | rollbackActiveRelease activatedBy key now =>
          rw [stackAfter_rollback ho]
          split
          · next hfresh =>
              obtain ⟨current, previous, hactive, rfl, hprev, -, -⟩ :=
                rollback_of_returned hfresh ho
              obtain ⟨rest, rfl⟩ := h.top_two hactive hprev
              exact List.cons_ne_nil _ _
          · exact hne

theorem active_run {db : Db} {stk : List String} (h : Stacked db stk) (hne : stk ≠ [])
    (more : List Call) : ∃ stk', Stacked (run serve db more) stk' ∧ stk' ≠ [] := by
  induction more generalizing db stk with
  | nil => exact ⟨stk, h, hne⟩
  | cons c more ih => exact ih (stacked_step h c) (stackAfter_ne_nil h hne c)

/-- A stack with a release on it has exactly one ACTIVE row. -/
theorem existsUnique_active {db : Db} {stk : List String} (h : Stacked db stk) (hne : stk ≠ []) :
    ∃! r, r ∈ db.releases.rows ∧ r.status = .active := by
  obtain ⟨x, rest, rfl⟩ := List.exists_cons_of_ne_nil hne
  have hhead := h.head
  rw [List.head?_cons] at hhead
  obtain ⟨r, hr, -⟩ := Option.map_eq_some_iff.mp hhead
  refine ⟨r, getActiveRow_eq_some.mp hr, ?_⟩
  intro r' hr'
  exact Option.some.inj ((getActiveRow_eq_some.mpr hr').symm.trans hr)

/-- A rollback refuses for want of a previous release exactly when its key is
    fresh and one release is on the stack. -/
theorem noPrevious_iff {db : Db} {stk : List String} (h : Stacked db stk)
    (activatedBy key : String) (now : Nat) :
    (∃ x, ((Call.rollbackActiveRelease activatedBy key now).exec db).1
        = .raised (.noPreviousRelease x)) ↔
      findRollbackEvent db key = none ∧ stk.length = 1 := by
  have hhead := h.head
  cases hevent : findRollbackEvent db key with
  | some e =>
      have hexec : ((Call.rollbackActiveRelease activatedBy key now).exec db).1
          = returnRelease db e.releaseId := by
        rw [exec_of_inl (o := returnRelease db e.releaseId)]
        simp only [Call.read, hevent]
      rw [hexec]
      rw [returnRelease]
      cases db.releases.get e.releaseId <;> simp
  | none =>
      cases hactive : getActiveRow db with
      | none =>
          rw [hactive] at hhead
          have hnil : stk = [] := List.head?_eq_none_iff.mp hhead.symm
          rw [exec_of_inl (o := .raised .noActiveRelease) (by
            simp only [Call.read, hevent, hactive])]
          simp [hnil]
      | some current =>
          obtain ⟨rest, rfl, hbelow⟩ := h.active_on_top hactive
          cases hprev : current.previousReleaseId with
          | none =>
              have hnil : rest = [] := List.head?_eq_none_iff.mp (hbelow.symm.trans hprev)
              rw [exec_of_inl (o := .raised (.noPreviousRelease current.releaseId)) (by
                simp only [Call.read, hevent, hactive, hprev])]
              simp [hnil]
          | some previousId =>
              have hrest : rest ≠ [] := by
                rintro rfl
                cases hprev.symm.trans hbelow
              refine iff_of_false ?_ ?_
              · rintro ⟨x, hx⟩
                -- past the pointer check only the lookup and the commit can fail
                cases hget : db.releases.get previousId with
                | none =>
                    rw [exec_of_inl (o := .raised (.releaseNotFound previousId)) (by
                      simp only [Call.read, hevent, hactive, hprev, hget])] at hx
                    cases hx
                | some previous =>
                    rw [exec_of_inr (w := rollbackWork current previous activatedBy key now) (by
                      simp only [Call.read, hevent, hactive, hprev, hget])] at hx
                    cases hcommit : db.commit
                        (rollbackWork current previous activatedBy key now) with
                    | none =>
                        rw [commit_of_none hcommit] at hx
                        simp [Call.onConflict, hevent] at hx
                    | some db' =>
                        rw [commit_of_some hcommit] at hx
                        cases hx
              · rintro ⟨-, hlen⟩
                rw [List.length_cons, Nat.add_eq_right, List.length_eq_zero_iff] at hlen
                exact hrest hlen

/-! ## The stack refinement -/

/-- The state a serial history leads to from the empty tables. -/
def after (calls : List Call) : Db := run serve Db.empty calls

/-- The lifecycle, after a history and for whatever call comes next, behaves as
    a stack of releases. -/
structure RefinesStack (calls : List Call) : Prop where
  /-- The chain of pointers starts at the ACTIVE release … -/
  top : (getActiveRow (after calls)).map (·.releaseId) = (stackOf (after calls)).head?
  /-- … and runs to a release without a previous one, -/
  followed : Threads (previousOf (after calls)) (stackOf (after calls))
  /-- visiting no release twice. -/
  distinct : (stackOf (after calls)).Nodup
  below : ∀ id, statusOf (after calls) id = some .superseded ↔
    id ∈ (stackOf (after calls)).tail
  simulates : ∀ c, stackOf (serve (after calls) c)
    = stackAfter (after calls) (stackOf (after calls)) c
  push : ∀ id activatedBy now x,
    ((Call.activateRelease id activatedBy now).exec (after calls)).1 = .returned x →
    x = id ∧ stackOf (serve (after calls) (.activateRelease id activatedBy now))
      = id :: stackOf (after calls)
  pop : ∀ activatedBy key now x, findRollbackEvent (after calls) key = none →
    ((Call.rollbackActiveRelease activatedBy key now).exec (after calls)).1 = .returned x →
    ∃ db' popped rest,
      db' = serve (after calls) (.rollbackActiveRelease activatedBy key now) ∧
      stackOf (after calls) = popped :: x :: rest ∧ stackOf db' = x :: rest ∧
      statusOf db' popped = some .rolledBack ∧ statusOf db' x = some .active ∧
      ∀ id, id ≠ popped → id ≠ x → statusOf db' id = statusOf (after calls) id
  revoked : ∀ id more, statusOf (after calls) id = some .rolledBack →
    statusOf (after (calls ++ more)) id = some .rolledBack
  single : ∀ pre id activatedBy now x post,
    calls = pre ++ .activateRelease id activatedBy now :: post →
    ((Call.activateRelease id activatedBy now).exec (after pre)).1 = .returned x →
    ∃! r, r ∈ (after calls).releases.rows ∧ r.status = .active
  bottom : ∀ activatedBy key now,
    (∃ x, ((Call.rollbackActiveRelease activatedBy key now).exec (after calls)).1
      = .raised (.noPreviousRelease x)) ↔
    findRollbackEvent (after calls) key = none ∧ (stackOf (after calls)).length = 1

/-- **THE RELEASE LIFECYCLE REFINES A STACK**, after every serial history. -/
theorem lifecycle_refines_stack (calls : List Call) : RefinesStack calls := by
  have h : Stacked (after calls) (stackOf (after calls)) := stacked_of_history calls
  refine ⟨h.head, h.threads, h.nodup, h.superseded, ?_, ?_, ?_, ?_, ?_, ?_⟩
  · intro c
    exact (stacked_step h c).stackOf_eq
  · intro id activatedBy now x hret
    obtain ⟨hx, hpush⟩ := stackAfter_activate (stackOf (after calls)) hret
    refine ⟨hx, ?_⟩
    rw [(stacked_step h _).stackOf_eq, hpush]
  · intro activatedBy key now x hfresh hret
    obtain ⟨current, previous, hactive, rfl, hprev, hget, hwrote⟩ :=
      rollback_of_returned hfresh hret
    obtain ⟨rest, hstk⟩ := h.top_two hactive hprev
    rw [if_neg (h.below_top hactive hprev hget).1] at hwrote
    rw [hstk] at h
    obtain ⟨hstk', hpopped, hrestored, hothers⟩ := h.pop hget hwrote
    exact ⟨_, current.releaseId, rest, rfl, hstk, hstk'.stackOf_eq, hpopped, hrestored, hothers⟩
  · intro id more hid
    show statusOf (run serve Db.empty (calls ++ more)) id = _
    rw [run_append]
    exact rolledBack_run h hid more
  · intro pre id activatedBy now x post heq hret
    have hpre : Stacked (after pre) (stackOf (after pre)) := stacked_of_history pre
    have hpush := (stackAfter_activate (stackOf (after pre)) hret).2
    have hstep := stacked_step hpre (.activateRelease id activatedBy now)
    rw [hpush] at hstep
    obtain ⟨stk', hstk', hne⟩ := active_run hstep (List.cons_ne_nil _ _) post
    have hrun : after calls = run serve (serve (after pre) (.activateRelease id activatedBy now))
        post := by
      rw [heq]
      exact run_append Db.empty pre _
    rw [hrun]
    exact existsUnique_active hstk' hne
  · intro activatedBy key now
    exact noPrevious_iff h activatedBy key now

/-- Register, gate, approve and activate one release. -/
def released (id : String) : List Call :=
  [.registerCandidate id "model" "checkpoint" "hash",
   .runReleaseGate id (fun _ => .tokens ["ok"]),
   .approveRelease id "approver" 0,
   .activateRelease id "operator" 0]

/-- A used key is answered from the audit log even when one release is left. -/
theorem replayed_rollback_at_bottom :
    ¬ ∀ (calls : List Call) (activatedBy key : String) (now : Nat),
      (∃ x, ((Call.rollbackActiveRelease activatedBy key now).exec (after calls)).1
        = .raised (.noPreviousRelease x)) ↔ (stackOf (after calls)).length = 1 := by
  intro h
  have hback := (h (released "a" ++ released "b" ++
    [.rollbackActiveRelease "operator" "incident" 1]) "operator" "incident" 2).mpr (by decide)
  obtain ⟨x, hx⟩ := hback
  have hout : ((Call.rollbackActiveRelease "operator" "incident" 2).exec
      (after (released "a" ++ released "b" ++
        [.rollbackActiveRelease "operator" "incident" 1]))).1 = .returned "a" := by decide
  cases hout.symm.trans hx

end ReleaseLifecycle
