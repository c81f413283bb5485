import Mathlib.Algebra.GroupWithZero.Nat
import Mathlib.Algebra.Group.Nat.Defs
import Mathlib.Algebra.BigOperators.Group.List.Basic
import OutcomeAssurance.PyDict

/-! # Loops that keep one value for each key

    A loop that files each item under its key, in a dictionary: the value of a
    key is the same loop over the items of that key alone, and a weight that
    every item adds to its key adds up over the dictionary to the weight of all
    items. -/

namespace Tallies

open PyDict

variable {α κ ν : Type*} [DecidableEq κ] {key : α → κ} {add : Option ν → α → ν}

/-- `for x in xs: d[key(x)] = add(d.get(key(x)), x)`. -/
def tally (key : α → κ) (add : Option ν → α → ν) (xs : List α) : Dict κ ν :=
  xs.foldl (fun d x => d.set (key x) (add (d.get (key x)) x)) ∅

theorem tally_concat (xs : List α) (x : α) :
    tally key add (xs ++ [x]) =
      (tally key add xs).set (key x) (add ((tally key add xs).get (key x)) x) := by
  rw [tally, List.foldl_concat]
  rfl

/-- **ONE KEY AT A TIME**: the value of a key is that of its own items. -/
theorem get_tally (xs : List α) (k : κ) :
    (tally key add xs).get k =
      (xs.filter fun x => key x = k).foldl (fun v x => some (add v x)) none := by
  induction xs using List.reverseRecOn with
  | nil => rfl
  | append_singleton xs x ih =>
      rw [tally_concat, Dict.get_set, List.filter_append, List.foldl_append]
      by_cases hk : key x = k
      · have hx : ([x].filter fun x => key x = k) = [x] := by simp [hk]
        rw [if_pos hk.symm, hk, ih, hx]
        rfl
      · have hx : ([x].filter fun x => key x = k) = [] := by simp [hk]
        rw [if_neg (Ne.symm hk), ih, hx]
        rfl

/-- The sum over the values, after one of them is assigned. -/
theorem sum_set (w : ν → Nat) (d : Dict κ ν) (k : κ) (v : ν) :
    ((d.set k v).values.map w).sum + ((d.get k).map w).getD 0 = (d.values.map w).sum + w v := by
  show (((put d.items k v).map Prod.snd).map w).sum + _ = ((d.items.map Prod.snd).map w).sum + _
  rw [Dict.get]
  induction d.items with
  | nil => simp [put]
  | cons p rest ih =>
      rw [put]
      by_cases hp : p.1 = k
      · simp [hp]
        omega
      · simp only [hp, if_false, List.map_cons, List.sum_cons, decide_false, Bool.false_eq_true,
          not_false_eq_true, List.find?_cons_of_neg] at ih ⊢
        omega

/-- **NOTHING IS LOST**: where each item adds its weight to its key, the values
    weigh what the items weigh. -/
theorem sum_tally (w : ν → Nat) (weight : α → Nat)
    (hadd : ∀ v x, w (add v x) = (v.map w).getD 0 + weight x) (xs : List α) :
    ((tally key add xs).values.map w).sum = (xs.map weight).sum := by
  induction xs using List.reverseRecOn with
  | nil => rfl
  | append_singleton xs x ih =>
      have hset := sum_set w (tally key add xs) (key x) (add ((tally key add xs).get (key x)) x)
      rw [hadd, ih] at hset
      rw [tally_concat, List.map_append, List.sum_append, List.map_singleton, List.sum_singleton]
      omega

/-- The weight of the items that satisfy a test. -/
theorem sum_ite (p : α → Bool) (xs : List α) :
    (xs.map fun x => if p x then 1 else 0).sum = xs.countP p := by
  induction xs with
  | nil => rfl
  | cons x xs ih =>
      rw [List.map_cons, List.sum_cons, ih, List.countP_cons, Nat.add_comm]

end Tallies
