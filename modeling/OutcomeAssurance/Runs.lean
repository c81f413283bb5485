import Mathlib.Data.List.Basic
import Mathlib.Logic.Function.Iterate
import Mathlib.Order.RelClasses

/-! # Runs of a step function — invariants and guarded steps

    A deterministic system is a step function `S → A → S`.  This file has the
    induction rules every later file uses: an invariant of one step is an
    invariant of every run, a guard met at every step of a run carries a
    guarded invariant, and a property that changes along a run changes at one
    of its steps.  A function that is only iterated comes to its end when a
    rank says so. -/

namespace Runs

variable {S A : Type*}

/-- The state after a list of actions. -/
def run (step : S → A → S) : S → List A → S
  | s, [] => s
  | s, a :: as => run step (step s a) as

/-- Every step of the run meets `C`, judged in the state before the step. -/
def Along (step : S → A → S) (C : S → A → Prop) : S → List A → Prop
  | _, [] => True
  | s, a :: as => C s a ∧ Along step C (step s a) as

variable {step : S → A → S}

@[simp] theorem run_nil (s : S) : run step s [] = s := rfl

@[simp] theorem run_cons (s : S) (a : A) (as : List A) :
    run step s (a :: as) = run step (step s a) as := rfl

@[simp] theorem along_nil (C : S → A → Prop) (s : S) : Along step C s [] := trivial

@[simp] theorem along_cons (C : S → A → Prop) (s : S) (a : A) (as : List A) :
    Along step C s (a :: as) ↔ C s a ∧ Along step C (step s a) as := Iff.rfl

/-- Runs compose along concatenation. -/
theorem run_append (s : S) (as bs : List A) :
    run step s (as ++ bs) = run step (run step s as) bs := by
  induction as generalizing s with
  | nil => rfl
  | cons a as ih => exact ih (step s a)

/-- A run followed by one more action. -/
theorem run_snoc (s : S) (as : List A) (a : A) :
    run step s (as ++ [a]) = step (run step s as) a := by
  rw [run_append]
  rfl

theorem along_append (C : S → A → Prop) (s : S) (as bs : List A) :
    Along step C s (as ++ bs) ↔ Along step C s as ∧ Along step C (run step s as) bs := by
  induction as generalizing s with
  | nil =>
      show Along step C s bs ↔ True ∧ Along step C s bs
      rw [true_and]
  | cons a as ih =>
      rw [List.cons_append, along_cons, along_cons, ih, and_assoc]
      rfl

/-- The guard of a run, read at one of its positions. -/
theorem Along.at {C : S → A → Prop} {s : S} {pre post : List A} {a : A}
    (h : Along step C s (pre ++ a :: post)) : C (run step s pre) a :=
  ((along_append C s pre (a :: post)).mp h).2.1

/-- A run meets its guard when the guard holds at every position. -/
theorem along_of_forall_at {C : S → A → Prop} {s : S} {as : List A}
    (h : ∀ pre a post, as = pre ++ a :: post → C (run step s pre) a) :
    Along step C s as := by
  induction as generalizing s with
  | nil => exact trivial
  | cons a as ih =>
      refine ⟨h [] a as rfl, ih ?_⟩
      intro pre b post heq
      exact h (a :: pre) b post (by rw [heq]; rfl)

instance decidableAlong {C : S → A → Prop} [∀ s a, Decidable (C s a)] :
    ∀ (s : S) (as : List A), Decidable (Along step C s as)
  | _, [] => .isTrue trivial
  | s, a :: as => @instDecidableAnd _ _ _ (decidableAlong (step s a) as)

/-- **INVARIANT RULE**: what every step preserves, every run preserves. -/
theorem run_invariant {I : S → Prop} (hstep : ∀ s a, I s → I (step s a))
    {s : S} (hs : I s) (as : List A) : I (run step s as) := by
  induction as generalizing s with
  | nil => exact hs
  | cons a as ih => exact ih (hstep s a hs)

/-- **GUARDED INVARIANT RULE**: an invariant that guarded steps preserve holds
    at the end of every run whose steps all meet the guard. -/
theorem run_invariant_along {I : S → Prop} {C : S → A → Prop}
    (hstep : ∀ s a, I s → C s a → I (step s a)) {s : S} (hs : I s) {as : List A}
    (hC : Along step C s as) : I (run step s as) := by
  induction as generalizing s with
  | nil => exact hs
  | cons a as ih => exact ih (hstep s a hs hC.1) hC.2

/-- A guard that an invariant strengthens: where the guard keeps the invariant
    and both give a second guard, the run meets the second guard too. -/
theorem Along.imp {I : S → Prop} {C D : S → A → Prop}
    (hstep : ∀ s a, I s → C s a → I (step s a)) (hCD : ∀ s a, I s → C s a → D s a)
    {s : S} (hs : I s) {as : List A} (h : Along step C s as) : Along step D s as := by
  induction as generalizing s with
  | nil => exact trivial
  | cons a as ih => exact ⟨hCD s a hs h.1, ih (hstep s a hs h.1) h.2⟩

/-- Two guards that agree wherever an invariant holds select the same runs. -/
theorem along_congr {I : S → Prop} {C D : S → A → Prop}
    (hstep : ∀ s a, I s → I (step s a)) (hCD : ∀ s a, I s → (C s a ↔ D s a))
    {s : S} (hs : I s) (as : List A) : Along step C s as ↔ Along step D s as := by
  induction as generalizing s with
  | nil => exact Iff.rfl
  | cons a as ih =>
      rw [along_cons, along_cons, hCD s a hs, ih (hstep s a hs)]

/-- A guard on what is seen of a state is met along a run when it is met along
    the run of what is seen. -/
theorem along_comap {T : Type*} {step' : T → A → T} {f : T → S}
    (hf : ∀ t a, f (step' t a) = step (f t) a) {C : S → A → Prop} (t : T) (as : List A) :
    Along step' (fun t a => C (f t) a) t as ↔ Along step C (f t) as := by
  induction as generalizing t with
  | nil => exact Iff.rfl
  | cons a as ih => rw [along_cons, along_cons, ih, hf]

/-- A run that breaks its guard does so first at some step: everything before
    that step meets the guard. -/
theorem exists_first_break {C : S → A → Prop} {s : S} {as : List A}
    (h : ¬ Along step C s as) :
    ∃ pre a post, as = pre ++ a :: post ∧ Along step C s pre ∧
      ¬ C (run step s pre) a := by
  classical
  induction as generalizing s with
  | nil => exact absurd trivial h
  | cons a as ih =>
      by_cases ha : C s a
      · obtain ⟨pre, b, post, heq, hpre, hb⟩ := ih (s := step s a)
          (fun hrest => h ⟨ha, hrest⟩)
        exact ⟨a :: pre, b, post, by rw [heq]; rfl, ⟨ha, hpre⟩, hb⟩
      · exact ⟨[], a, as, rfl, trivial, ha⟩

/-- A property that is false before a run and true after it becomes true at
    one of the run's steps. -/
theorem exists_turn {Q : S → Prop} {s : S} {as : List A} (h₀ : ¬ Q s)
    (h₁ : Q (run step s as)) :
    ∃ pre a post, as = pre ++ a :: post ∧ ¬ Q (run step s pre) ∧
      Q (step (run step s pre) a) := by
  classical
  induction as generalizing s with
  | nil => exact absurd h₁ h₀
  | cons a as ih =>
      by_cases ha : Q (step s a)
      · exact ⟨[], a, as, rfl, h₀, ha⟩
      · obtain ⟨pre, b, post, heq, hpre, hb⟩ := ih ha h₁
        exact ⟨a :: pre, b, post, by rw [heq]; rfl, hpre, hb⟩

/-- By how much `f` falls, in all, at those steps of a run that are `mine`. -/
def falls (step : S → A → S) (mine : A → Prop) [DecidablePred mine] (f : S → Int) :
    S → List A → Nat
  | _, [] => 0
  | s, a :: as =>
      (if mine a then (f s - f (step s a)).toNat else 0) + falls step mine f (step s a) as

/-- **BALANCE RULE**: where every step moves `g` up by what `f` falls at it, a run
    does so too. -/
theorem falls_add {mine : A → Prop} [DecidablePred mine] {f : S → Int} {g : S → Nat}
    (hstep : ∀ s a, (if mine a then (f s - f (step s a)).toNat else 0) + g s = g (step s a))
    (s : S) (as : List A) : falls step mine f s as + g s = g (run step s as) := by
  induction as generalizing s with
  | nil => exact Nat.zero_add _
  | cons a as ih =>
      rw [falls, run_cons, ← ih (step s a), ← hstep s a]
      omega

/-- **RANK RULE**: a function that keeps an invariant and lowers a rank until it
    is done gets there, with the invariant. -/
theorem exists_iterate_of_rank {α : Type*} [LT α] [WellFoundedLT α] {f : S → S}
    {I done : S → Prop} (rank : S → α) (hI : ∀ s, I s → I (f s))
    (hrank : ∀ s, I s → ¬ done s → rank (f s) < rank s) {s : S} (hs : I s) :
    ∃ n, done (f^[n] s) ∧ I (f^[n] s) := by
  classical
  generalize hr : rank s = r
  induction r using WellFoundedLT.induction generalizing s with
  | ind r ih =>
      by_cases hdone : done s
      · exact ⟨0, hdone, hs⟩
      · obtain ⟨n, hn⟩ := ih (rank (f s)) (hr ▸ hrank s hs hdone) (hI s hs) rfl
        exact ⟨n + 1, hn⟩

end Runs
