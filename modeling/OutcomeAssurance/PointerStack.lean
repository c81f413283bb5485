import Mathlib.Data.List.Basic

/-! # Stacks threaded through back pointers

    A stack need not be stored as one: it is enough that every element points
    to the one below it.  `Threads prev l` says that the pointers `prev` run
    through `l` from its top to a bottom element that points nowhere; `follow`
    reads the stack back from its top.  Pushing an element whose pointer is
    the old top and popping the top keep the threading. -/

namespace PointerStack

variable {κ : Type*} {prev prev' : κ → Option κ}

/-- The pointers run through the list from its first element to its last. -/
def Threads (prev : κ → Option κ) : List κ → Prop
  | [] => True
  | x :: rest => prev x = rest.head? ∧ Threads prev rest

/-- The elements met from `x` downwards, at most `n` of them. -/
def follow (prev : κ → Option κ) : Nat → κ → List κ
  | 0, _ => []
  | n + 1, x => x :: ((prev x).map (follow prev n)).getD []

instance decidableThreads [DecidableEq κ] (prev : κ → Option κ) :
    ∀ l : List κ, Decidable (Threads prev l)
  | [] => .isTrue trivial
  | _ :: rest => @instDecidableAnd _ _ _ (decidableThreads prev rest)

@[simp] theorem threads_nil : Threads prev [] := trivial

@[simp] theorem threads_cons {x : κ} {rest : List κ} :
    Threads prev (x :: rest) ↔ prev x = rest.head? ∧ Threads prev rest := Iff.rfl

/-- Pointers that agree on the stack thread it alike. -/
theorem threads_congr {l : List κ} (h : ∀ x ∈ l, prev' x = prev x) :
    Threads prev' l ↔ Threads prev l := by
  induction l with
  | nil => exact Iff.rfl
  | cons x rest ih =>
      have hx : prev' x = prev x := h x List.mem_cons_self
      have hrest := ih (fun y hy => h y (List.mem_cons_of_mem x hy))
      rw [threads_cons, threads_cons, hx, hrest]

/-- **PUSH**: a new top that points to the old one extends the stack. -/
theorem Threads.push {l : List κ} {x : κ} (h : Threads prev l)
    (hx : prev' x = l.head?) (hrest : ∀ y ∈ l, prev' y = prev y) :
    Threads prev' (x :: l) :=
  ⟨hx, (threads_congr hrest).mpr h⟩

/-- **POP**: the rest of a threaded stack is threaded. -/
theorem Threads.pop {l : List κ} {x : κ} (h : Threads prev (x :: l)) : Threads prev l :=
  h.2

/-- Following the pointers from the top reads back the whole stack. -/
theorem Threads.follow_eq {rest : List κ} {x : κ} (h : Threads prev (x :: rest)) {n : Nat}
    (hn : rest.length < n) : follow prev n x = x :: rest := by
  induction rest generalizing x n with
  | nil =>
      obtain ⟨m, rfl⟩ := Nat.exists_eq_succ_of_ne_zero (Nat.ne_of_gt hn)
      have hx : prev x = none := h.1
      show x :: ((prev x).map (follow prev m)).getD [] = [x]
      rw [hx]
      rfl
  | cons y rest ih =>
      obtain ⟨m, rfl⟩ := Nat.exists_eq_succ_of_ne_zero (Nat.ne_of_gt (Nat.zero_lt_of_lt hn))
      have hx : prev x = some y := h.1
      have hm : rest.length < m := by
        have : rest.length + 1 < m + 1 := hn
        omega
      show x :: ((prev x).map (follow prev m)).getD [] = x :: y :: rest
      rw [hx, Option.map_some, Option.getD_some, ih h.2 hm]

end PointerStack
