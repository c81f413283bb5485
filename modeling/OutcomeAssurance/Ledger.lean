import Mathlib.Algebra.BigOperators.Group.Finset.Basic
import OutcomeAssurance.Runs

/-! # Ledgers — counters that are sums of entries

    A system keeps counters of its own, and every party has an entry in each.
    A step that changes the entries of one party alone, and the counters by as
    much, keeps the books balanced: each counter is the sum of the entries. -/

namespace Ledger

open Runs

variable {S A P K : Type*} [DecidableEq P]

/-- A step posts what it does for a party to the counters. -/
structure Posts (counter : S → K → Int) (entry : S → P → K → Int) (p : P) (s s' : S) : Prop where
  others : ∀ q, q ≠ p → entry s' q = entry s q
  posted : ∀ k, counter s' k - counter s k = entry s' p k - entry s p k

/-- Each counter is the sum of the parties' entries. -/
def Balanced (counter : S → K → Int) (entry : S → P → K → Int) (ps : Finset P) (s : S) : Prop :=
  ∀ k, counter s k = ∑ p ∈ ps, entry s p k

variable {counter : S → K → Int} {entry : S → P → K → Int} {ps : Finset P} {p : P} {s s' : S}

omit [DecidableEq P] in
theorem posts_refl : Posts counter entry p s s := ⟨fun _ _ => rfl, fun _ => by omega⟩

/-- **A POSTED STEP** keeps the books balanced. -/
theorem Posts.balanced (h : Posts counter entry p s s') (hp : p ∈ ps)
    (hs : Balanced counter entry ps s) : Balanced counter entry ps s' := by
  intro k
  have hrest : ∑ q ∈ ps.erase p, entry s' q k = ∑ q ∈ ps.erase p, entry s q k := by
    refine Finset.sum_congr rfl fun q hq => ?_
    rw [h.others q (Finset.ne_of_mem_erase hq)]
  have hbefore := hs k
  have hposted := h.posted k
  rw [← Finset.add_sum_erase ps (fun q => entry s q k) hp] at hbefore
  rw [← Finset.add_sum_erase ps (fun q => entry s' q k) hp, hrest]
  omega

/-- **BALANCED BOOKS**: where every step posts, the books of a run are balanced
    over any parties that include those of its steps. -/
theorem run_balanced {step : S → A → S} {party : A → P}
    (hstep : ∀ s a, Posts counter entry (party a) s (step s a))
    (hs : Balanced counter entry ps s) {as : List A} (has : ∀ a ∈ as, party a ∈ ps) :
    Balanced counter entry ps (run step s as) := by
  induction as generalizing s with
  | nil => exact hs
  | cons a as ih =>
      obtain ⟨ha, has⟩ := List.forall_mem_cons.mp has
      exact ih ((hstep s a).balanced ha hs) has

end Ledger
