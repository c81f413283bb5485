import OutcomeAssurance.Runs

/-! # Machines that answer alike — simulation, and parts of one machine

    A machine answers each input and moves on.  A relation between the states
    of two machines is a simulation when related states give the same answer
    and lead to related states; the machines then answer every sequence of
    inputs alike.  A part of a machine is what some of its inputs read and
    write; purging the others from a history changes no answer to these. -/

namespace Refinement

open Runs

variable {S T A O : Type*}

/-- The state after an input. -/
def next (handle : S → A → O × S) (s : S) (a : A) : S := (handle s a).2

/-- The answers to a sequence of inputs. -/
def answers (handle : S → A → O × S) : S → List A → List O
  | _, [] => []
  | s, a :: as => (handle s a).1 :: answers handle (next handle s a) as

/-- Related states answer alike and stay related. -/
structure Simulation (concrete : S → A → O × S) (abstract : T → A → O × T)
    (rel : S → T → Prop) : Prop where
  answer : ∀ {s t}, rel s t → ∀ a, (concrete s a).1 = (abstract t a).1
  related : ∀ {s t}, rel s t → ∀ a, rel (next concrete s a) (next abstract t a)

variable {concrete : S → A → O × S} {abstract : T → A → O × T} {rel : S → T → Prop}

/-- **RELATED RUNS**: a run of each machine on the same inputs ends in related
    states. -/
theorem Simulation.run_related (h : Simulation concrete abstract rel) {s : S} {t : T}
    (hst : rel s t) (as : List A) : rel (run (next concrete) s as) (run (next abstract) t as) := by
  induction as generalizing s t with
  | nil => exact hst
  | cons a as ih => exact ih (h.related hst a)

/-- **ALIKE ANSWERS**: the machines answer every sequence of inputs alike. -/
theorem Simulation.answers_eq (h : Simulation concrete abstract rel) {s : S} {t : T}
    (hst : rel s t) (as : List A) : answers concrete s as = answers abstract t as := by
  induction as generalizing s t with
  | nil => rfl
  | cons a as ih =>
      rw [answers, answers, h.answer hst a, ih (h.related hst a)]

/-! ## Parts of a machine -/

section Parts

variable {handle : S → A → O × S} {p : A → Prop} [DecidablePred p] {agree : S → S → Prop}

/-- The answers to the inputs of one kind, in a history of all kinds. -/
def answersTo (handle : S → A → O × S) (p : A → Prop) [DecidablePred p] : S → List A → List O
  | _, [] => []
  | s, a :: as =>
      if p a then (handle s a).1 :: answersTo handle p (next handle s a) as
      else answersTo handle p (next handle s a) as

/-- States agree on a part: its inputs are answered alike and keep them in
    agreement, and other inputs do not touch it. -/
structure Part (handle : S → A → O × S) (p : A → Prop) (agree : S → S → Prop) : Prop where
  inside : ∀ {s t}, agree s t → ∀ a, p a →
    (handle s a).1 = (handle t a).1 ∧ agree (next handle s a) (next handle t a)
  outside : ∀ {s t}, agree s t → ∀ a, ¬ p a → agree (next handle s a) t

/-- **PURGED RUNS**: dropping the inputs from outside a part leads to a state
    that agrees on the part. -/
theorem Part.run_agree (h : Part handle p agree) {s t : S} (hst : agree s t) (as : List A) :
    agree (run (next handle) s as) (run (next handle) t (as.filter fun a => p a)) := by
  induction as generalizing s t with
  | nil => exact hst
  | cons a as ih =>
      by_cases ha : p a
      · rw [List.filter_cons, if_pos (decide_eq_true ha)]
        exact ih (h.inside hst a ha).2
      · rw [List.filter_cons, if_neg fun hdec => ha (of_decide_eq_true hdec)]
        exact ih (h.outside hst a ha)

/-- **PURGED ANSWERS**: dropping the inputs from outside a part changes no answer
    to the inputs of the part. -/
theorem Part.answersTo_eq (h : Part handle p agree) {s t : S} (hst : agree s t) (as : List A) :
    answersTo handle p s as = answers handle t (as.filter fun a => p a) := by
  induction as generalizing s t with
  | nil => rfl
  | cons a as ih =>
      rw [answersTo]
      by_cases ha : p a
      · obtain ⟨hanswer, hagree⟩ := h.inside hst a ha
        rw [if_pos ha, List.filter_cons, if_pos (decide_eq_true ha), answers, hanswer, ih hagree]
      · rw [if_neg ha, List.filter_cons, if_neg fun hdec => ha (of_decide_eq_true hdec),
          ih (h.outside hst a ha)]

/-- Machines that answer alike answer the inputs of each kind alike. -/
theorem Simulation.answersTo_eq (h : Simulation concrete abstract rel) {s : S} {t : T}
    (hst : rel s t) (as : List A) : answersTo concrete p s as = answersTo abstract p t as := by
  induction as generalizing s t with
  | nil => rfl
  | cons a as ih =>
      rw [answersTo, answersTo, h.answer hst a, ih (h.related hst a)]

end Parts

end Refinement
