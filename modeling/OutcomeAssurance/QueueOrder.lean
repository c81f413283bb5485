import Mathlib.Data.List.Induction
import Mathlib.Data.List.TakeWhile
import OutcomeAssurance.SlotLimiter

/-! # The order of the wait queue

    Beside the limiter runs the line of the queued requests in the order of
    their arrival.  The wait queue is fair when whoever enters is at the head
    of the line; this fails exactly when an arrival finds a slot free while
    somebody stands in line, or a woken waiter resumes ahead of another. -/

namespace QueueOrder

open ConditionQueue Runs SlotLimiter

variable {ι : Type} [DecidableEq ι] {l : Limits} {s : Serving ι} {e : Event ι}

/-! ## The line -/

/-- The tasks that wait for a slot; one that is cancelled or timed out has left. -/
def queue (s : Serving ι) : List ι := standing s.limiter.waiters

/-- The limiter with the line: the queued tasks in the order of their arrival. -/
structure Lined (ι : Type) where
  serving : Serving ι := {}
  line : List ι := []

def Lined.start : Lined ι := {}

/-- One event; whoever goes on waiting keeps the place in line. -/
def stepLined (l : Limits) (s : Lined ι) (e : Event ι) : Lined ι :=
  let next := step l s.serving e
  ⟨next, keepOrder s.line (queue next)⟩

/-- **THE LINE** holds exactly the tasks that wait, after any events. -/
theorem mem_line (events : List (Event ι)) (task : ι) :
    let s := run (stepLined l) (Lined.start : Lined ι) events
    task ∈ s.line ↔ task ∈ queue s.serving := by
  induction events using List.reverseRecOn with
  | nil => exact Iff.rfl
  | append_singleton events e ih =>
      rw [run_snoc]
      exact mem_keepOrder

/-- The event takes the task into its slot's body. -/
def Enters (l : Limits) (s : Serving ι) (e : Event ι) (task : ι) : Prop :=
  (step l s e).inside = task :: s.inside

/-- Whoever enters has nobody ahead in line. -/
def Fair (l : Limits) (s : Lined ι) (e : Event ι) : Prop :=
  ∀ task, Enters l s.serving e task → s.line.takeWhile (· ≠ task) = []

/-! ## Who enters -/

omit [DecidableEq ι] in
theorem not_entered (task : ι) (inside : List ι) : inside ≠ task :: inside := fun h => by
  have hlength := congrArg List.length h
  rw [List.length_cons] at hlength
  omega

theorem enters_arrive {t task : ι} :
    Enters l s (.arrive t) task ↔
      t = task ∧ s.Outside t ∧ s.limiter.inFlight < l.maxInFlight := by
  rw [Enters, step]
  by_cases hout : s.Outside t
  · rw [if_pos hout, ConcurrencyLimiter.enter]
    by_cases hfull : s.limiter.inFlight ≥ l.maxInFlight
    · rw [if_pos hfull]
      refine iff_of_false ?_ fun h => absurd h.2.2 (Int.not_lt.mpr hfull)
      by_cases hqueue : s.limiter.queued ≥ l.maxQueued
      · rw [if_pos hqueue]
        exact not_entered _ _
      · rw [if_neg hqueue, ConcurrencyLimiter.waitFor, if_neg (Int.not_lt.mpr hfull)]
        exact not_entered _ _
    · rw [if_neg hfull]
      have hfree := Int.not_le.mp hfull
      constructor
      · intro h
        exact ⟨(List.cons.inj h).1, hout, hfree⟩
      · rintro ⟨rfl, -, -⟩
        rfl
  · rw [if_neg hout]
    exact iff_of_false (not_entered _ _) fun h => hout h.2.1

omit [DecidableEq ι] in
/-- A waiter that looks at the predicate enters when a slot is free. -/
theorem enters_waitFor {c : ConcurrencyLimiter ι} {t task : ι} :
    (s.advance t (ConcurrencyLimiter.waitFor l c t)).inside = task :: s.inside ↔
      t = task ∧ c.inFlight < l.maxInFlight := by
  rw [ConcurrencyLimiter.waitFor]
  by_cases hfree : c.inFlight < l.maxInFlight
  · rw [if_pos hfree]
    constructor
    · intro h
      exact ⟨(List.cons.inj h).1, hfree⟩
    · rintro ⟨rfl, -⟩
      rfl
  · rw [if_neg hfree]
    exact iff_of_false (not_entered _ _) fun h => hfree h.2

theorem enters_resume {t task : ι} :
    Enters l s (.resume t) task ↔
      t = task ∧ (∃ w, waiterOf t s.limiter.waiters = some w ∧ w.woken = true)
        ∧ s.limiter.inFlight < l.maxInFlight := by
  rw [Enters, step]
  cases hw : waiterOf t s.limiter.waiters with
  | none =>
      refine iff_of_false (not_entered _ _) ?_
      rintro ⟨-, ⟨w, hw', -⟩, -⟩
      cases hw'
  | some w =>
      obtain rfl := task_of_waiterOf hw
      have hwoken : (∃ w', some w = some w' ∧ w'.woken = true) ↔ w.woken = true := by
        simp only [Option.some.injEq, exists_eq_left']
      rw [hwoken, Waiter.woken_eq]
      show (if w.due = true then s.advance w.task (s.limiter.resume l w) else s).inside = _ ↔ _
      cases hdue : w.due with
      | false => exact iff_of_false (not_entered _ _) fun h => Bool.false_ne_true h.2.1
      | true =>
          rw [if_pos rfl, ConcurrencyLimiter.resume]
          cases hcancelled : w.cancelled with
          | true => exact iff_of_false (not_entered _ _) fun h => Bool.false_ne_true h.2.1
          | false =>
              rw [if_neg Bool.false_ne_true, enters_waitFor]
              exact and_congr_right fun _ => (and_iff_right rfl).symm

theorem enters_cancel {t task : ι} : ¬ Enters l s (.cancel t) task := not_entered _ _

theorem enters_leave {t task : ι} : ¬ Enters l s (.leave t) task := by
  rw [Enters, step]
  split
  · intro h
    have hlength : (s.inside.erase t).length = (task :: s.inside).length :=
      congrArg List.length h
    have hle : (s.inside.erase t).length ≤ s.inside.length := List.length_erase_le
    rw [List.length_cons] at hlength
    omega
  · exact not_entered _ _

/-! ## In turn -/

/-- An arrival finds a slot free only when nobody waits, and a woken waiter
    that finds one resumes as the first of the queue. -/
def InTurn (l : Limits) (s : Serving ι) : Event ι → Prop
  | .arrive task => s.Outside task → s.limiter.inFlight < l.maxInFlight → queue s = []
  | .resume task => (∃ w, waiterOf task s.limiter.waiters = some w ∧ w.woken = true) →
      s.limiter.inFlight < l.maxInFlight → (queue s).head? = some task
  | .cancel _ | .leave _ => True

/-- While all has been in turn the queue is the line, no task waits twice, and
    there are slots for those that have been woken. -/
structure InLine (l : Limits) (s : Lined ι) : Prop where
  line_eq : s.line = queue s.serving
  nodup : (s.serving.limiter.waiters.map Waiter.task).Nodup
  slots : s.serving.limiter.inFlight + wokenCount s.serving.limiter.waiters
    ≤ max 0 l.maxInFlight
  counted : Counted l s.serving

theorem takeWhile_eq_nil {task : ι} {line : List ι} (h : task ∈ line) :
    line.takeWhile (· ≠ task) = [] ↔ line.head? = some task := by
  cases line with
  | nil => cases h
  | cons first rest =>
      rw [List.head?_cons, Option.some.injEq]
      by_cases heq : first = task
      · rw [List.takeWhile_cons_of_neg (by simpa using heq)]
        exact iff_of_true rfl heq
      · rw [List.takeWhile_cons_of_pos (by simpa using heq)]
        exact iff_of_false (List.cons_ne_nil _ _) heq

theorem mem_queue_of_woken {task : ι} {w : Waiter ι}
    (hw : waiterOf task s.limiter.waiters = some w) (hwoken : w.woken = true) :
    task ∈ queue s := by
  rw [Waiter.woken_eq, Bool.and_eq_true] at hwoken
  refine List.mem_map.mpr ⟨w, List.mem_filter.mpr ⟨List.mem_of_find?_eq_some hw, hwoken.2⟩, ?_⟩
  exact task_of_waiterOf hw

/-- **ONE EVENT** is fair exactly when it is in turn. -/
theorem fair_iff_inTurn {s : Lined ι} (h : InLine l s) :
    Fair l s e ↔ InTurn l s.serving e := by
  rw [Fair, h.line_eq]
  cases e with
  | arrive t =>
      constructor
      · intro hfair hout hfree
        have hahead := hfair t (enters_arrive.mpr ⟨rfl, hout, hfree⟩)
        -- who arrives is not in line, so all of the line is ahead
        have hnot : ∀ other ∈ queue s.serving, decide (other ≠ t) = true := by
          intro other hother
          refine decide_eq_true ?_
          rintro rfl
          exact not_mem_standing hout.2 hother
        rwa [List.takeWhile_eq_self_iff.mpr hnot] at hahead
      · intro hturn task henters
        obtain ⟨rfl, hout, hfree⟩ := enters_arrive.mp henters
        rw [hturn hout hfree, List.takeWhile_nil]
  | resume t =>
      constructor
      · rintro hfair ⟨w, hw, hwoken⟩ hfree
        have hahead := hfair t (enters_resume.mpr ⟨rfl, ⟨w, hw, hwoken⟩, hfree⟩)
        exact (takeWhile_eq_nil (mem_queue_of_woken hw hwoken)).mp hahead
      · intro hturn task henters
        obtain ⟨rfl, ⟨w, hw, hwoken⟩, hfree⟩ := enters_resume.mp henters
        exact (takeWhile_eq_nil (mem_queue_of_woken hw hwoken)).mpr (hturn ⟨w, hw, hwoken⟩ hfree)
  | cancel t => exact iff_of_true (fun _ henters => absurd henters enters_cancel) trivial
  | leave t => exact iff_of_true (fun _ henters => absurd henters enters_leave) trivial

omit [DecidableEq ι] in
theorem inLine_start : InLine l (Lined.start : Lined ι) where
  line_eq := rfl
  nodup := List.nodup_nil
  slots := Int.le_max_left ..
  counted := counted_start

/-- Where the queue only loses tasks, the line follows it. -/
theorem line_of_sublist {s : Lined ι} (h : InLine l s) {next : Serving ι}
    (hsub : (queue next).Sublist (queue s.serving)) :
    keepOrder s.line (queue next) = queue next := by
  rw [h.line_eq]
  exact keepOrder_of_sublist hsub (h.nodup.sublist (standing_sublist _))

/-- A woken waiter finds a slot. -/
theorem InLine.free_of_woken {s : Lined ι} (h : InLine l s) {task : ι} {w : Waiter ι}
    (hw : waiterOf task s.serving.limiter.waiters = some w) (hwoken : w.woken = true) :
    s.serving.limiter.inFlight < l.maxInFlight := by
  have hcount : 0 < wokenCount s.serving.limiter.waiters :=
    List.countP_pos_iff.mpr ⟨w, List.mem_of_find?_eq_some hw, hwoken⟩
  have hslots := h.slots
  have hinFlight := h.counted.inFlight_eq
  omega

omit [DecidableEq ι] in
/-- Where nobody waits, nobody has been woken. -/
theorem wokenCount_of_queue_nil (h : queue s = []) : wokenCount s.limiter.waiters = 0 := by
  refine List.countP_eq_zero.mpr fun w hw hwoken => ?_
  rw [Waiter.woken_eq, Bool.and_eq_true] at hwoken
  have hmem : w.task ∈ queue s := List.mem_map.mpr ⟨w, List.mem_filter.mpr ⟨hw, hwoken.2⟩, rfl⟩
  rw [h] at hmem
  cases hmem

omit [DecidableEq ι] in
theorem wokenCount_notify_le (ws : List (Waiter ι)) :
    wokenCount (notify ws) ≤ wokenCount ws + 1 := by
  by_cases h : Sleeping ws
  · rw [wokenCount_notify h]
  · rw [notify_of_not_sleeping h]
    exact Nat.le_add_right _ _

/-- An arrival that changes anything comes from outside. -/
theorem outside_of_changes {task : ι} (h : step l s (.arrive task) ≠ s) : s.Outside task := by
  by_contra hinside
  rw [step, if_neg hinside] at h
  exact h rfl

/-- **EACH EVENT** in turn keeps the queue in line. -/
theorem inLine_step {s : Lined ι} (h : InLine l s) (hturn : InTurn l s.serving e) :
    InLine l (stepLined l s e) := by
  have hslots := h.slots
  have hcounted : Counted l (step l s.serving e) := counted_step h.counted e
  have hstepped := stepped l s.serving e
  rw [stepLined]
  generalize hnext : step l s.serving e = next at hstepped hcounted
  cases hstepped with
  | idle | rejected hfull hqueue =>
      exact ⟨line_of_sublist h (List.Sublist.refl _), h.nodup, hslots, hcounted⟩
  | @queued task hfull hqueue =>
      have hout : s.serving.Outside task := outside_of_changes fun hsame => by
        have hlength := congrArg (fun s => s.limiter.waiters.length) (hnext.symm.trans hsame)
        simp at hlength
      have hnew := not_mem_tasks hout.2
      refine ⟨?_, ?_, ?_, hcounted⟩
      · show keepOrder s.line (standing (s.serving.limiter.waiters ++ [{ task := task }])) =
          standing (s.serving.limiter.waiters ++ [{ task := task }])
        rw [standing_append, h.line_eq]
        exact keepOrder_concat (not_mem_standing hout.2)
      · rw [List.map_append]
        refine List.nodup_append.mpr ⟨h.nodup, List.pairwise_singleton _ _, ?_⟩
        rintro a ha b hb rfl
        have hsame : a = task := List.mem_singleton.mp hb
        exact hnew (hsame ▸ ha)
      · rw [wokenCount_append]
        exact hslots
  | @admitted task hfree =>
      have hout : s.serving.Outside task := outside_of_changes fun hsame => by
        exact not_entered _ _ (congrArg Serving.inside (hnext.symm.trans hsame)).symm
      have hnone := wokenCount_of_queue_nil (hturn hout hfree)
      refine ⟨line_of_sublist h (List.Sublist.refl _), h.nodup, ?_, hcounted⟩
      show s.serving.limiter.inFlight + 1 + wokenCount s.serving.limiter.waiters ≤ _
      omega
  | @raised task w hw hcancelled =>
      have hcounts := (counts_depart hw (by rw [Waiter.due, hcancelled, Bool.or_true])).2
      refine ⟨line_of_sublist h (standing_depart ..), h.nodup.sublist (tasks_depart ..), ?_,
        hcounted⟩
      show s.serving.limiter.inFlight + wokenCount (depart task s.serving.limiter.waiters) ≤ _
      omega
  | @entered task w hw hwoken hfree =>
      have hdue := hwoken
      rw [Waiter.woken_eq, Bool.and_eq_true] at hdue
      have hcounts := (counts_depart hw hdue.1).2
      rw [if_pos hwoken] at hcounts
      refine ⟨line_of_sublist h (standing_depart ..), h.nodup.sublist (tasks_depart ..), ?_,
        hcounted⟩
      show s.serving.limiter.inFlight + 1 + wokenCount (depart task s.serving.limiter.waiters) ≤ _
      omega
  | @overtaken task w hw hwoken hfull =>
      exact absurd (h.free_of_woken hw hwoken) (Int.not_lt.mpr hfull)
  | @cancelled task w hw =>
      have hcounts := (counts_cancel hw).2
      refine ⟨line_of_sublist h (standing_cancel hw), ?_, ?_, hcounted⟩
      · rw [tasks_cancel hw]
        exact h.nodup
      · show s.serving.limiter.inFlight + wokenCount (cancel task s.serving.limiter.waiters) ≤ _
        omega
  | @released task hinside =>
      have hwoken := wokenCount_notify_le s.serving.limiter.waiters
      refine ⟨line_of_sublist h ?_, ?_, ?_, hcounted⟩
      · show (standing (notify s.serving.limiter.waiters)).Sublist _
        rw [standing_notify]
        exact List.Sublist.refl _
      · show ((notify s.serving.limiter.waiters).map Waiter.task).Nodup
        rw [tasks_notify]
        exact h.nodup
      · show s.serving.limiter.inFlight - 1 + wokenCount (notify s.serving.limiter.waiters) ≤ _
        omega

/-! ## Fair runs -/

/-- **WHEN THE WAIT QUEUE IS FAIR**: in exactly those runs in which every
    arrival that finds a slot free finds nobody waiting, and woken waiters
    resume in the order of the queue. -/
theorem fair_iff (l : Limits) (events : List (Event ι)) :
    Along (stepLined l) (Fair l) Lined.start events ↔
      Along (step l) (InTurn l) Serving.start events := by
  have hcomap : Along (stepLined l) (fun s e => InTurn l s.serving e) Lined.start events ↔
      Along (step l) (InTurn l) Serving.start events :=
    along_comap (f := fun s : Lined ι => s.serving) (fun _ _ => rfl) Lined.start events
  rw [← hcomap]
  constructor
  · exact Along.imp (fun _ _ h hfair => inLine_step h ((fair_iff_inTurn h).mp hfair))
      (fun _ _ h hfair => (fair_iff_inTurn h).mp hfair) inLine_start
  · exact Along.imp (fun _ _ h hturn => inLine_step h hturn)
      (fun _ _ h hturn => (fair_iff_inTurn h).mpr hturn) inLine_start

/-- **OVERTAKEN**: a slot is released for the request that waits, and another
    one arrives before it resumes. -/
theorem arrival_overtakes :
    ¬ Along (stepLined ⟨1, 2⟩) (Fair ⟨1, 2⟩) (Lined.start : Lined Nat)
      [.arrive 0, .arrive 1, .leave 0, .arrive 2] := by
  rintro ⟨-, -, -, hlast, -⟩
  exact absurd (hlast 2 rfl) (by decide)

end QueueOrder
