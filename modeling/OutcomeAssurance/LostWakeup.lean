import OutcomeAssurance.SlotLimiter

/-! # Free slots and sleeping requests

    Each release notifies one waiter.  Where somebody sleeps, every free slot
    is meant for a waiter that has been woken and is on its way; the one way to
    lose such a waiter is to cancel it after it was woken, because it passes
    its notification on to nobody. -/

namespace LostWakeup

open ConditionQueue Runs SlotLimiter

variable {ι : Type} [DecidableEq ι] {l : Limits} {s : Serving ι}

/-- The number of free slots. -/
def freeSlots (l : Limits) (s : Serving ι) : Int := l.maxInFlight - s.limiter.inFlight

/-- No request sleeps next to a free slot, unless another one has been woken
    and is due to resume. -/
def SomeoneWoken (l : Limits) (s : Serving ι) : Prop :=
  s.limiter.inFlight < l.maxInFlight → (∃ w ∈ s.limiter.waiters, w.cancelled = false) →
    ∃ w ∈ s.limiter.waiters, w.woken = true

instance (s : Serving ι) : Decidable (SomeoneWoken l s) :=
  inferInstanceAs (Decidable (_ → _ → _))

/-- Where somebody sleeps, every free slot has its woken waiter. -/
def Provided (l : Limits) (s : Serving ι) : Prop :=
  Sleeping s.limiter.waiters → freeSlots l s ≤ wokenCount s.limiter.waiters

/-- A cancellation that strikes a woken waiter leaves nobody asleep, or another
    woken waiter for each free slot. -/
def Spares (l : Limits) (s : Serving ι) : Event ι → Prop
  | .cancel task => ∀ w, waiterOf task s.limiter.waiters = some w → w.woken = true →
      Sleeping s.limiter.waiters → freeSlots l s < wokenCount s.limiter.waiters
  | _ => True

instance (s : Serving ι) : ∀ e, Decidable (Spares l s e)
  | .cancel task =>
      inferInstanceAs (Decidable (∀ w ∈ waiterOf task s.limiter.waiters, w.woken = true →
        Sleeping s.limiter.waiters → freeSlots l s < wokenCount s.limiter.waiters))
  | .arrive _ | .resume _ | .leave _ => inferInstanceAs (Decidable True)

omit [DecidableEq ι] in
theorem someoneWoken_of_provided (h : Provided l s) : SomeoneWoken l s := by
  rintro hfree ⟨w, hw, hcancelled⟩
  cases hnotified : w.notified with
  | true =>
      refine ⟨w, hw, ?_⟩
      rw [Waiter.woken, hnotified, hcancelled]
      rfl
  | false =>
      have hasleep : w.asleep = true := by
        rw [Waiter.asleep, hnotified, hcancelled]
        rfl
      have hcount : freeSlots l s ≤ wokenCount s.limiter.waiters := h ⟨w, hw, hasleep⟩
      refine exists_woken ?_
      rw [freeSlots] at hcount
      omega

omit [DecidableEq ι] in
theorem provided_start : Provided l (Serving.start : Serving ι) := by
  rintro ⟨w, hw, -⟩
  cases hw

omit [DecidableEq ι] in
/-- Behind a full limiter anybody may sleep. -/
theorem provided_of_full (h : l.maxInFlight ≤ s.limiter.inFlight) : Provided l s := by
  intro _
  rw [freeSlots]
  omega

/-- **EACH EVENT** that spares the woken waiters leaves one for each slot. -/
theorem provided_step (h : Provided l s) (e : Event ι) (hspares : Spares l s e) :
    Provided l (step l s e) := by
  have hstepped := stepped l s e
  generalize step l s e = s' at hstepped
  cases hstepped with
  | idle => exact h
  | rejected hfull hqueue => exact h
  | queued hfull hqueue => exact provided_of_full hfull
  | admitted hfree =>
      intro hsleeps
      have hcount := h hsleeps
      show l.maxInFlight - (s.limiter.inFlight + 1) ≤ wokenCount s.limiter.waiters
      rw [freeSlots] at hcount
      omega
  | raised hw hcancelled =>
      obtain ⟨hsleeps, hwoken⟩ := counts_depart hw (by rw [Waiter.due, hcancelled, Bool.or_true])
      intro hsleeps'
      have hcount := h (hsleeps.mp hsleeps')
      rw [Waiter.woken, hcancelled, Bool.not_true, Bool.and_false,
        if_neg Bool.false_ne_true, Nat.add_zero] at hwoken
      rw [hwoken] at hcount
      exact hcount
  | entered hw hwoken hfree =>
      have hdue := hwoken
      rw [Waiter.woken, Bool.and_eq_true] at hdue
      obtain ⟨hsleeps, hcounts⟩ := counts_depart hw (by rw [Waiter.due, hdue.1, Bool.true_or])
      intro hsleeps'
      have hcount := h (hsleeps.mp hsleeps')
      rw [if_pos hwoken] at hcounts
      show l.maxInFlight - (s.limiter.inFlight + 1) ≤ wokenCount (depart _ s.limiter.waiters)
      rw [freeSlots] at hcount
      omega
  | overtaken hw hwoken hfull => exact provided_of_full hfull
  | @cancelled task w hw =>
      obtain ⟨hsleeps, hcounts⟩ := counts_cancel hw
      intro hsleeps'
      have hcount := h (hsleeps hsleeps')
      show freeSlots l s ≤ wokenCount (cancel task s.limiter.waiters)
      cases hwoken : w.woken with
      | true =>
          have hspare := hspares w hw hwoken (hsleeps hsleeps')
          rw [hwoken, if_pos rfl] at hcounts
          omega
      | false =>
          rw [hwoken, if_neg Bool.false_ne_true, Nat.add_zero] at hcounts
          rwa [← hcounts]
  | released hinside =>
      intro hsleeps'
      show l.maxInFlight - (s.limiter.inFlight - 1) ≤ wokenCount (notify s.limiter.waiters)
      by_cases hsleeps : Sleeping s.limiter.waiters
      · have hcount := h hsleeps
        rw [wokenCount_notify hsleeps]
        rw [freeSlots] at hcount
        omega
      · exact absurd (notify_of_not_sleeping hsleeps ▸ hsleeps') hsleeps

/-- **NO REQUEST IS LEFT ASLEEP** next to a free slot, in any state of a run
    whose cancellations spare the woken waiters. -/
theorem someoneWoken_of_spares (l : Limits) (events : List (Event ι))
    (h : Along (step l) (Spares l) Serving.start events) (before : List (Event ι))
    (hbefore : before <+: events) :
    SomeoneWoken l (run (step l) (Serving.start : Serving ι) before) := by
  obtain ⟨after, rfl⟩ := hbefore
  have halong := ((along_append _ _ before after).mp h).1
  have hstep : ∀ s : Serving ι, ∀ e, Provided l s → Spares l s e → Provided l (step l s e) :=
    fun _ e hprovided hspares => provided_step hprovided e hspares
  exact someoneWoken_of_provided (run_invariant_along hstep provided_start halong)

/-- A request is cancelled as it is woken, and the next one is woken by the
    next release. -/
theorem next_request_woken :
    SomeoneWoken ⟨1, 2⟩ (run (step ⟨1, 2⟩) (Serving.start : Serving Nat)
      [.arrive 0, .arrive 1, .leave 0, .cancel 1, .arrive 2, .arrive 3, .leave 2]) :=
  someoneWoken_of_spares ⟨1, 2⟩
    [.arrive 0, .arrive 1, .leave 0, .cancel 1, .arrive 2, .arrive 3, .leave 2, .resume 3]
    (by decide) _ (by decide)

/-- **A LOST WAKEUP**: the woken request is cancelled, the slot stays free and
    the other request sleeps on. -/
theorem woken_request_cancelled :
    ¬ SomeoneWoken ⟨1, 2⟩ (run (step ⟨1, 2⟩) (Serving.start : Serving Nat)
      [.arrive 0, .arrive 1, .arrive 2, .leave 0, .cancel 1, .resume 1]) := by
  decide

end LostWakeup
