import OutcomeAssurance.ConditionQueue
import OutcomeAssurance.Runs

/-! # The concurrency limiter

    `app/serving/concurrency.py`.  A request that finds no slot free waits on
    the condition, in a queue of bounded length; one that finds the queue full
    as well is rejected.  No task suspends while it holds the condition's lock,
    so the lock is never contended and what lies between two suspension points
    is one step. -/

namespace SlotLimiter

open ConditionQueue Runs

/-- `BackpressureRejected`, with the counters it names. -/
structure BackpressureRejected where
  inFlight : Int
  queued : Int
  deriving DecidableEq, Repr

def BackpressureRejected.message (e : BackpressureRejected) : String :=
  s!"{e.inFlight} in flight, {e.queued} queued; both at capacity"

/-- What a limiter is constructed with. -/
structure Limits where
  maxInFlight : Int
  maxQueued : Int
  deriving DecidableEq, Repr

/-- `ConcurrencyLimiter`: the two counters and the waiters of `_condition`. -/
structure ConcurrencyLimiter (ι : Type) where
  inFlight : Int := 0
  queued : Int := 0
  waiters : List (Waiter ι) := []
  deriving Repr

/-- Where a task is after a step of `slot()`. -/
inductive Progress where
  | waiting | entered | left
  deriving DecidableEq, Repr

/-- The exit from a slot. -/
def ConcurrencyLimiter.release {ι : Type} (c : ConcurrencyLimiter ι) : ConcurrencyLimiter ι :=
  { c with inFlight := c.inFlight - 1, waiters := notify c.waiters }

variable {ι : Type} [DecidableEq ι] (l : Limits)

/-- `wait_for`, up to the slot's body or the next sleep. -/
def ConcurrencyLimiter.waitFor (c : ConcurrencyLimiter ι) (task : ι) :
    ConcurrencyLimiter ι × Progress :=
  if c.inFlight < l.maxInFlight then
    ({ c with queued := c.queued - 1, inFlight := c.inFlight + 1 }, .entered)
  else
    -- a task that goes back to sleep does so behind the others
    ({ c with waiters := c.waiters ++ [{ task := task }] }, .waiting)

/-- The entry into `slot()`. -/
def ConcurrencyLimiter.enter (c : ConcurrencyLimiter ι) (task : ι) :
    Except BackpressureRejected (ConcurrencyLimiter ι × Progress) :=
  if c.inFlight ≥ l.maxInFlight then
    if c.queued ≥ l.maxQueued then .error ⟨c.inFlight, c.queued⟩
    else .ok (ConcurrencyLimiter.waitFor l { c with queued := c.queued + 1 } task)
  else .ok ({ c with inFlight := c.inFlight + 1 }, .entered)

/-- A waiter that is due resumes: it looks at the predicate again, or raises. -/
def ConcurrencyLimiter.resume (c : ConcurrencyLimiter ι) (w : Waiter ι) :
    ConcurrencyLimiter ι × Progress :=
  let c := { c with waiters := depart w.task c.waiters }
  if w.cancelled then ({ c with queued := c.queued - 1 }, .left)
  else ConcurrencyLimiter.waitFor l c w.task

/-! ## Any number of tasks -/

/-- The limiter, and the tasks inside a slot's body. -/
structure Serving (ι : Type) where
  limiter : ConcurrencyLimiter ι := {}
  inside : List ι := []
  deriving Repr

/-- No task yet. -/
def Serving.start : Serving ι := {}

/-- What can happen to a task: it arrives, it resumes from its wait, its wait
    is cancelled or times out, or it leaves the slot's body, in whatever way. -/
inductive Event (ι : Type) where
  | arrive (task : ι)
  | resume (task : ι)
  | cancel (task : ι)
  | leave (task : ι)
  deriving DecidableEq, Repr

/-- The task is in none of its slots. -/
def Serving.Outside (s : Serving ι) (task : ι) : Prop :=
  task ∉ s.inside ∧ waiterOf task s.limiter.waiters = none

instance (s : Serving ι) (task : ι) : Decidable (s.Outside task) :=
  inferInstanceAs (Decidable (_ ∧ _))

/-- The tasks inside after a task has made progress. -/
def Serving.advance (s : Serving ι) (task : ι) :
    ConcurrencyLimiter ι × Progress → Serving ι
  | (c, .entered) => { limiter := c, inside := task :: s.inside }
  | (c, _) => { s with limiter := c }

/-- One event; one that cannot happen changes nothing. -/
def step (s : Serving ι) : Event ι → Serving ι
  | .arrive task =>
      if s.Outside task then
        match s.limiter.enter l task with
        | .error _ => s
        | .ok progress => s.advance task progress
      else s
  | .resume task =>
      match waiterOf task s.limiter.waiters with
      | none => s
      | some w => if w.due then s.advance task (s.limiter.resume l w) else s
  | .cancel task =>
      { s with limiter := { s.limiter with waiters := cancel task s.limiter.waiters } }
  | .leave task =>
      if task ∈ s.inside then ⟨s.limiter.release, s.inside.erase task⟩ else s

/-- The slots taken by a step of `slot()`. -/
def Progress.slots : Progress → Int
  | .entered => 1
  | _ => 0

omit [DecidableEq ι] in
theorem inFlight_waitFor (c : ConcurrencyLimiter ι) (task : ι) :
    (ConcurrencyLimiter.waitFor l c task).1.inFlight
      = c.inFlight + (ConcurrencyLimiter.waitFor l c task).2.slots := by
  rw [ConcurrencyLimiter.waitFor]
  split
  · rfl
  · exact (Int.add_zero _).symm

omit [DecidableEq ι] in
theorem inFlight_enter {c : ConcurrencyLimiter ι} {task : ι}
    {p : ConcurrencyLimiter ι × Progress} (h : c.enter l task = .ok p) :
    p.1.inFlight = c.inFlight + p.2.slots := by
  rw [ConcurrencyLimiter.enter] at h
  split at h
  · split at h
    · cases h
    · obtain rfl := Except.ok.inj h
      exact inFlight_waitFor l { c with queued := c.queued + 1 } task
  · obtain rfl := Except.ok.inj h
    rfl

theorem inFlight_resume (c : ConcurrencyLimiter ι) (w : Waiter ι) :
    (c.resume l w).1.inFlight = c.inFlight + (c.resume l w).2.slots := by
  rw [ConcurrencyLimiter.resume]
  split
  · exact (Int.add_zero _).symm
  · exact inFlight_waitFor l { c with waiters := depart w.task c.waiters } w.task

/-! ## What one event does -/

/-- The events, with what each finds and leaves. -/
inductive Stepped (s : Serving ι) : Event ι → Serving ι → Prop where
  | idle (e : Event ι) : Stepped s e s
  | rejected {task : ι} (hfull : l.maxInFlight ≤ s.limiter.inFlight)
      (hqueue : l.maxQueued ≤ s.limiter.queued) : Stepped s (.arrive task) s
  | queued {task : ι} (hfull : l.maxInFlight ≤ s.limiter.inFlight)
      (hqueue : s.limiter.queued < l.maxQueued) :
      Stepped s (.arrive task) { s with limiter := { s.limiter with
        queued := s.limiter.queued + 1
        waiters := s.limiter.waiters ++ [{ task := task }] } }
  | admitted {task : ι} (hfree : s.limiter.inFlight < l.maxInFlight) :
      Stepped s (.arrive task)
        { limiter := { s.limiter with inFlight := s.limiter.inFlight + 1 }
          inside := task :: s.inside }
  | raised {task : ι} {w : Waiter ι} (hw : waiterOf task s.limiter.waiters = some w)
      (hcancelled : w.cancelled = true) :
      Stepped s (.resume task) { s with limiter := { s.limiter with
        queued := s.limiter.queued - 1
        waiters := depart task s.limiter.waiters } }
  | entered {task : ι} {w : Waiter ι} (hw : waiterOf task s.limiter.waiters = some w)
      (hwoken : w.woken = true) (hfree : s.limiter.inFlight < l.maxInFlight) :
      Stepped s (.resume task)
        { limiter :=
            { inFlight := s.limiter.inFlight + 1
              queued := s.limiter.queued - 1
              waiters := depart task s.limiter.waiters }
          inside := task :: s.inside }
  | overtaken {task : ι} {w : Waiter ι} (hw : waiterOf task s.limiter.waiters = some w)
      (hwoken : w.woken = true) (hfull : l.maxInFlight ≤ s.limiter.inFlight) :
      Stepped s (.resume task) { s with limiter := { s.limiter with
        waiters := depart task s.limiter.waiters ++ [{ task := task }] } }
  | cancelled {task : ι} {w : Waiter ι} (hw : waiterOf task s.limiter.waiters = some w) :
      Stepped s (.cancel task) { s with limiter := { s.limiter with
        waiters := cancel task s.limiter.waiters } }
  | released {task : ι} (hinside : task ∈ s.inside) :
      Stepped s (.leave task) ⟨s.limiter.release, s.inside.erase task⟩

theorem task_of_waiterOf {task : ι} {ws : List (Waiter ι)} {w : Waiter ι}
    (h : waiterOf task ws = some w) : w.task = task := by
  have := List.find?_some h
  rwa [decide_eq_true_eq] at this

/-- **THE CASE LIST OF ONE EVENT.** -/
theorem stepped (s : Serving ι) (e : Event ι) : Stepped l s e (step l s e) := by
  cases e with
  | arrive task =>
      rw [step]
      by_cases hout : s.Outside task
      · rw [if_pos hout, ConcurrencyLimiter.enter]
        by_cases hfull : s.limiter.inFlight ≥ l.maxInFlight
        · rw [if_pos hfull]
          by_cases hqueue : s.limiter.queued ≥ l.maxQueued
          · rw [if_pos hqueue]
            exact .rejected hfull hqueue
          · rw [if_neg hqueue, ConcurrencyLimiter.waitFor, if_neg (Int.not_lt.mpr hfull)]
            exact .queued hfull (Int.not_le.mp hqueue)
        · rw [if_neg hfull]
          exact .admitted (Int.not_le.mp hfull)
      · rw [if_neg hout]
        exact .idle _
  | resume task =>
      rw [step]
      cases hw : waiterOf task s.limiter.waiters with
      | none => exact .idle _
      | some w =>
          obtain rfl := task_of_waiterOf hw
          show Stepped l s _ (if w.due = true then _ else s)
          cases hdue : w.due with
          | false => exact .idle _
          | true =>
              rw [if_pos rfl, ConcurrencyLimiter.resume]
              cases hcancelled : w.cancelled with
              | true =>
                  rw [if_pos rfl]
                  exact .raised hw hcancelled
              | false =>
                  have hwoken : w.woken = true := by
                    rw [Waiter.due, hcancelled, Bool.or_false] at hdue
                    rw [Waiter.woken, hdue, hcancelled]
                    rfl
                  rw [if_neg Bool.false_ne_true, ConcurrencyLimiter.waitFor]
                  by_cases hfree : s.limiter.inFlight < l.maxInFlight
                  · rw [if_pos hfree]
                    exact .entered hw hwoken hfree
                  · rw [if_neg hfree]
                    exact .overtaken hw hwoken (Int.not_lt.mp hfree)
  | cancel task =>
      rw [step]
      cases hw : waiterOf task s.limiter.waiters with
      | none =>
          rw [cancel_of_none hw]
          exact .idle _
      | some w => exact .cancelled hw
  | leave task =>
      rw [step]
      by_cases hinside : task ∈ s.inside
      · rw [if_pos hinside]
        exact .released hinside
      · rw [if_neg hinside]
        exact .idle _

/-! ## The counters -/

/-- The counters count, and neither exceeds its limit; a limit below 0 lets
    nothing through. -/
structure Counted (s : Serving ι) : Prop where
  inFlight_eq : s.limiter.inFlight = s.inside.length
  inFlight_le : s.limiter.inFlight ≤ max 0 l.maxInFlight
  queued_eq : s.limiter.queued = s.limiter.waiters.length
  queued_le : s.limiter.queued ≤ max 0 l.maxQueued

variable {l} {s : Serving ι}

omit [DecidableEq ι] in
theorem counted_start : Counted l (Serving.start : Serving ι) where
  inFlight_eq := rfl
  inFlight_le := Int.le_max_left ..
  queued_eq := rfl
  queued_le := Int.le_max_left ..

/-- **EACH EVENT** keeps the counters. -/
theorem counted_step (h : Counted l s) (e : Event ι) : Counted l (step l s e) := by
  obtain ⟨hin, hinLe, hqueued, hqueuedLe⟩ := h
  have hstepped := stepped l s e
  generalize step l s e = s' at hstepped
  cases hstepped with
  | idle => exact ⟨hin, hinLe, hqueued, hqueuedLe⟩
  | rejected hfull hqueue => exact ⟨hin, hinLe, hqueued, hqueuedLe⟩
  | queued hfull hqueue =>
      refine ⟨hin, hinLe, ?_, ?_⟩
      · rw [List.length_append, List.length_singleton, Int.natCast_add, ← hqueued]
        rfl
      · show s.limiter.queued + 1 ≤ _
        omega
  | admitted hfree =>
      refine ⟨?_, ?_, hqueued, hqueuedLe⟩
      · rw [List.length_cons, Int.natCast_add, ← hin]
        rfl
      · show s.limiter.inFlight + 1 ≤ _
        omega
  | raised hw hcancelled =>
      have hlength := length_depart hw
      refine ⟨hin, hinLe, ?_, ?_⟩
      · show s.limiter.queued - 1 = ((depart _ s.limiter.waiters).length : Int)
        omega
      · show s.limiter.queued - 1 ≤ _
        omega
  | entered hw hwoken hfree =>
      have hlength := length_depart hw
      refine ⟨?_, ?_, ?_, ?_⟩
      · rw [List.length_cons, Int.natCast_add, ← hin]
        rfl
      · show s.limiter.inFlight + 1 ≤ _
        omega
      · show s.limiter.queued - 1 = ((depart _ s.limiter.waiters).length : Int)
        omega
      · show s.limiter.queued - 1 ≤ _
        omega
  | overtaken hw hwoken hfull =>
      -- the task is counted as queued all along
      have hlength := length_depart hw
      refine ⟨hin, hinLe, ?_, hqueuedLe⟩
      rw [List.length_append, List.length_singleton, hlength]
      exact hqueued
  | cancelled hw =>
      refine ⟨hin, hinLe, ?_, hqueuedLe⟩
      rw [length_cancel]
      exact hqueued
  | released hinside =>
      have hpos := List.length_pos_of_mem hinside
      refine ⟨?_, ?_, ?_, hqueuedLe⟩
      · show s.limiter.inFlight - 1 = _
        rw [List.length_erase_of_mem hinside]
        omega
      · show s.limiter.inFlight - 1 ≤ _
        omega
      · show s.limiter.queued = ((notify s.limiter.waiters).length : Int)
        rw [length_notify]
        exact hqueued

theorem counted_run (l : Limits) (events : List (Event ι)) :
    Counted l (run (step l) (Serving.start : Serving ι) events) := by
  have hstep : ∀ s : Serving ι, ∀ e, Counted l s → Counted l (step l s e) :=
    fun _ e h => counted_step h e
  exact run_invariant hstep counted_start events

/-- A task that arrives is rejected. -/
def Rejects (l : Limits) (s : Serving ι) (task : ι) : Prop :=
  ∃ e, s.limiter.enter l task = .error e

omit [DecidableEq ι] in
/-- The two comparisons of the entry. -/
theorem rejects_iff (task : ι) :
    Rejects l s task ↔ l.maxInFlight ≤ s.limiter.inFlight ∧ l.maxQueued ≤ s.limiter.queued := by
  rw [Rejects, ConcurrencyLimiter.enter]
  constructor
  · rintro ⟨e, he⟩
    split at he
    · next hfull =>
        split at he
        · next hqueue => exact ⟨hfull, hqueue⟩
        · cases he
    · cases he
  · rintro ⟨hfull, hqueue⟩
    exact ⟨_, by rw [if_pos hfull, if_pos hqueue]⟩

theorem step_of_rejects {task : ι} (h : Rejects l s task) : step l s (.arrive task) = s := by
  obtain ⟨e, he⟩ := h
  rw [step, he]
  split <;> rfl

/-- **BOUNDED CONCURRENCY IS EXACT**: after any events the counters are the
    numbers of tasks inside and waiting, within their limits, and an arrival is
    rejected, and changes nothing, exactly when both are at their limits. -/
theorem counters_exact (l : Limits) (events : List (Event ι)) :
    let s := run (step l) (Serving.start : Serving ι) events
    Counted l s ∧ ∀ task,
      (Rejects l s task ↔ l.maxInFlight ≤ s.inside.length ∧
        l.maxQueued ≤ s.limiter.waiters.length) ∧
      (Rejects l s task → step l s (.arrive task) = s) := by
  have hcounted := counted_run l events
  refine ⟨hcounted, fun task => ⟨?_, step_of_rejects⟩⟩
  rw [rejects_iff, hcounted.inFlight_eq, hcounted.queued_eq]

/-- A limit below 0 is exceeded before any request. -/
theorem negative_limit_exceeded :
    let l : Limits := ⟨-1, 0⟩
    ¬ (run (step l) (Serving.start : Serving Nat) []).limiter.inFlight ≤ l.maxInFlight := by
  decide

end SlotLimiter
