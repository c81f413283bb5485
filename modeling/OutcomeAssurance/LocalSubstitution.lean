import Mathlib.Data.List.Basic
import OutcomeAssurance.PatternMatches

/-! # Substitution in parts

    What a pattern does within a text does not depend on what comes after the
    text, as long as no match reaches there.  So a substitution splits at a
    character that no match runs over, and passes unchanged over a stretch in
    which no match begins. -/

namespace Backtracking

variable {isWord : Char → Bool} {r s : Pattern} {b : Option Char} {q u w l : List Char} {c : Char}

/-! ## Ends within a text -/

/-- The place in a longer text. -/
def Place.extend (w : List Char) (place : Place) : Place := ⟨place.before, place.rest ++ w⟩

/-- The ends before the last `n` characters. -/
def within (n : Nat) (places : List Place) : List Place :=
  places.filter fun place => n < place.rest.length

theorem within_append (n : Nat) (ps qs : List Place) :
    within n (ps ++ qs) = within n ps ++ within n qs := List.filter_append ..

theorem within_eq_self {n : Nat} {places : List Place}
    (h : ∀ place ∈ places, n < place.rest.length) : within n places = places :=
  List.filter_eq_self.mpr fun place hplace => decide_eq_true (h place hplace)

theorem within_eq_nil {n : Nat} {places : List Place}
    (h : ∀ place ∈ places, place.rest.length ≤ n) : within n places = [] :=
  List.filter_eq_nil_iff.mpr fun place hplace hlt =>
    Nat.not_lt.mpr (h place hplace) (of_decide_eq_true hlt)

theorem rest_length_le {place : Place} (h : place ∈ ends isWord r ⟨b, l⟩) :
    place.rest.length ≤ l.length := by
  obtain ⟨x, rfl, -⟩ := (mem_ends r b l).mp h
  rw [List.length_append]
  exact Nat.le_add_left _ _

theorem within_here (b : Option Char) (q w : List Char) :
    within w.length [⟨b, q ++ w⟩] = (within 0 [⟨b, q⟩]).map (Place.extend w) := by
  cases q with
  | nil => simp [within]
  | cons c q =>
      rw [within_eq_self, within_eq_self]
      · rfl
      · simp
      · intro place hplace
        obtain rfl := List.mem_singleton.mp hplace
        rw [List.length_append, List.length_cons]
        omega

/-- Once past the last `n` characters, a pattern does not come back. -/
theorem within_flatMap (s : Pattern) (n : Nat) (places : List Place) :
    within n (places.flatMap (ends isWord s))
      = (within n places).flatMap fun place => within n (ends isWord s place) := by
  induction places with
  | nil => rfl
  | cons place places ih =>
      rw [List.flatMap_cons, within_append, ih]
      by_cases hin : n < place.rest.length
      · have hkept : within n (place :: places) = place :: within n places :=
          List.filter_cons_of_pos (decide_eq_true hin)
        rw [hkept, List.flatMap_cons]
      · have hdropped : within n (place :: places) = within n places :=
          List.filter_cons_of_neg fun h => hin (of_decide_eq_true h)
        have hnil : within n (ends isWord s place) = [] :=
          within_eq_nil fun after hafter =>
            Nat.le_trans (rest_length_le hafter) (Nat.not_lt.mp hin)
        rw [hdropped, hnil, List.nil_append]

theorem within_runEnds (p : Char → Bool) (min : Nat) (b : Option Char) (q w : List Char) :
    within w.length (runEnds p min b (q ++ w))
      = (within 0 (runEnds p min b q)).map (Place.extend w) := by
  induction q generalizing min b with
  | nil =>
      have hleft : within w.length (runEnds p min b w) = [] := by
        refine within_eq_nil fun place hplace => ?_
        obtain ⟨x, hx, -⟩ := (mem_runEnds min b w).mp hplace
        rw [hx, List.length_append]
        exact Nat.le_add_left _ _
      have hright : within 0 (runEnds p min b []) = [] := by
        refine within_eq_nil fun place hplace => ?_
        obtain ⟨x, hx, -⟩ := (mem_runEnds min b []).mp hplace
        rw [(List.append_eq_nil_iff.mp hx.symm).2]
        exact Nat.le_refl 0
      rw [List.nil_append, hleft, hright, List.map_nil]
  | cons c q ih =>
      rw [List.cons_append, runEnds, runEnds, within_append, within_append, List.map_append]
      refine congrArg₂ (· ++ ·) ?_ ?_
      · split
        · exact ih _ _
        · rfl
      · split
        · exact within_here b (c :: q) w
        · rfl

theorem within_past (r : Pattern) (b : Option Char) (w : List Char) :
    within w.length (ends isWord r ⟨b, [] ++ w⟩)
      = (within 0 (ends isWord r ⟨b, []⟩)).map (Place.extend w) := by
  have hleft : within w.length (ends isWord r ⟨b, w⟩) = [] := within_eq_nil fun _ => rest_length_le
  have hright : within 0 (ends isWord r ⟨b, []⟩) = [] := within_eq_nil fun _ => rest_length_le
  rw [List.nil_append, hleft, hright, List.map_nil]

/-- **WITHIN A TEXT** a pattern ends where it does when nothing follows, in the
    same order. -/
theorem within_ends (r : Pattern) (b : Option Char) (q w : List Char) :
    within w.length (ends isWord r ⟨b, q ++ w⟩)
      = (within 0 (ends isWord r ⟨b, q⟩)).map (Place.extend w) := by
  induction r generalizing b q with
  | one p =>
      cases q with
      | nil => exact within_past (.one p) b w
      | cons c q =>
          rw [List.cons_append, ends_one_cons, ends_one_cons]
          split
          · exact within_here (some c) q w
          · rfl
  | many min p => exact within_runEnds p min b q w
  | opt r ih =>
      rw [ends, ends, within_append, within_append, List.map_append, ih]
      exact congrArg₂ (· ++ ·) rfl (within_here b q w)
  | seq r s ihr ihs =>
      rw [ends, ends, within_flatMap, within_flatMap, ihr, List.flatMap_map, List.map_flatMap]
      exact congrArg (List.flatMap · _) (funext fun mid => ihs mid.before mid.rest)
  | alt r s ihr ihs =>
      rw [ends, ends, within_append, within_append, List.map_append, ihr, ihs]
  | boundary =>
      cases q with
      | nil => exact within_past .boundary b w
      | cons c q =>
          rw [ends_boundary, ends_boundary, List.cons_append, List.head?_cons, List.head?_cons]
          split
          · exact within_here b (c :: q) w
          · rfl

/-! ## A character that no match runs over -/

variable (isWord) in
/-- No match that has the character goes on into the text after it, or ends
    with it. -/
def Barrier (r : Pattern) (c : Char) (w : List Char) : Prop :=
  ∀ b y z post, w = z ++ post → ¬ Matches isWord r b (y ++ c :: z) post.head?

theorem Barrier.before_end (h : Barrier isWord r c w) {u : List Char} {place : Place}
    (hplace : place ∈ ends isWord r ⟨b, u ++ c :: w⟩) : w.length < place.rest.length := by
  obtain ⟨x, hx, -, hmatch⟩ := (mem_ends r b _).mp hplace
  by_contra hpast
  have hlength := congrArg List.length hx
  rw [List.length_append, List.length_append, List.length_cons] at hlength
  rcases List.append_eq_append_iff.mp hx with ⟨z, rfl, hz⟩ | ⟨z, rfl, hz⟩
  · cases z with
    | nil =>
        have hlen := congrArg List.length hz
        rw [List.nil_append, List.length_cons] at hlen
        omega
    | cons d z =>
        obtain ⟨rfl, hw⟩ := List.cons.inj hz
        exact h b u z place.rest hw hmatch
  · have hlen := congrArg List.length hz
    rw [List.length_append, List.length_cons] at hlen
    omega

theorem ends_barrier (hend : Barrier isWord r c []) (hw : Barrier isWord r c w)
    (b : Option Char) (u : List Char) :
    ends isWord r ⟨b, u ++ c :: w⟩ = (ends isWord r ⟨b, u ++ [c]⟩).map (Place.extend w) := by
  have hlocal : within w.length (ends isWord r ⟨b, (u ++ [c]) ++ w⟩)
      = (within 0 (ends isWord r ⟨b, u ++ [c]⟩)).map (Place.extend w) := within_ends ..
  have hall : ∀ place ∈ ends isWord r ⟨b, u ++ [c]⟩, 0 < place.rest.length :=
    fun place => hend.before_end
  rw [List.append_assoc, List.singleton_append] at hlocal
  rwa [within_eq_self fun place => hw.before_end, within_eq_self hall] at hlocal

/-- **A SUBSTITUTION SPLITS** at the character: what stands before it is
    replaced without regard to what follows. -/
theorem subFrom_barrier {p : Char → Bool} (hneeds : Needs p r) (replacement : List Char)
    (hend : Barrier isWord r c []) (u : List Char) (b : Option Char) (k : Nat)
    (hk : k ≤ u.length) :
    ∃ u', ∀ w, Barrier isWord r c w →
      subFrom isWord r replacement b k (u ++ c :: w)
        = u' ++ c :: subFrom isWord r replacement (some c) 0 w := by
  induction u generalizing b k with
  | nil =>
      obtain rfl := Nat.le_zero.mp hk
      refine ⟨[], fun w hw => ?_⟩
      have hnone : ends isWord r ⟨b, c :: w⟩ = [] := by
        refine ends_eq_nil.mpr fun x post hx hmatch => ?_
        obtain ⟨d, z, rfl⟩ := List.exists_cons_of_ne_nil (hneeds.ne_nil hmatch)
        obtain ⟨rfl, hrest⟩ := List.cons.inj hx
        exact hw b [] z post hrest hmatch
      rw [List.nil_append, List.nil_append, subFrom, hnone]
  | cons d u ih =>
      cases k with
      | succ k =>
          obtain ⟨u', hu'⟩ := ih (some d) k (Nat.le_of_succ_le_succ hk)
          exact ⟨u', hu'⟩
      | zero =>
          have hsame (w : List Char) (hw : Barrier isWord r c w) :=
            ends_barrier hend hw b (d :: u)
          cases hends : ends isWord r ⟨b, d :: (u ++ [c])⟩ with
          | nil =>
              obtain ⟨u', hu'⟩ := ih (some d) 0 (Nat.zero_le _)
              refine ⟨d :: u', fun w hw => ?_⟩
              have hsame := hsame w hw
              rw [List.cons_append, List.cons_append, hends] at hsame
              rw [List.cons_append, subFrom, hsame]
              exact congrArg (d :: ·) (hu' w hw)
          | cons place places =>
              have hplace : place ∈ ends isWord r ⟨b, (d :: u) ++ [c]⟩ := hends ▸ List.mem_cons_self
              have hrest : 0 < place.rest.length := hend.before_end hplace
              obtain ⟨u', hu'⟩ := ih (some d) (u.length + 1 - place.rest.length) (by omega)
              refine ⟨replacement ++ u', fun w hw => ?_⟩
              have hsame := hsame w hw
              rw [List.cons_append, List.cons_append, hends, List.map_cons] at hsame
              rw [List.cons_append, subFrom, hsame, List.append_assoc]
              refine congrArg (replacement ++ ·) (Eq.trans ?_ (hu' w hw))
              have hskip : (u ++ c :: w).length - (place.extend w).rest.length
                  = u.length + 1 - place.rest.length := by
                rw [Place.extend, List.length_append, List.length_append, List.length_cons]
                omega
              show subFrom isWord r replacement (some d) _ _ = _
              rw [hskip]

/-! ## A stretch in which no match begins -/

variable (isWord) in
/-- No match begins in the text, with the other text after it. -/
def Passes (r : Pattern) : Option Char → List Char → List Char → Prop
  | _, [], _ => True
  | b, c :: u, w => ends isWord r ⟨b, c :: (u ++ w)⟩ = [] ∧ Passes r (some c) u w

theorem subFrom_passes (replacement : List Char) (h : Passes isWord r b u w) :
    subFrom isWord r replacement b 0 (u ++ w)
      = u ++ subFrom isWord r replacement (u.getLast?.or b) 0 w := by
  induction u generalizing b with
  | nil => rfl
  | cons c u ih =>
      rw [List.cons_append, subFrom, h.1, last_cons, List.cons_append]
      exact congrArg (c :: ·) (ih h.2)

theorem Passes.append {v : List Char} (hu : Passes isWord r b u (v ++ w))
    (hv : Passes isWord r (u.getLast?.or b) v w) : Passes isWord r b (u ++ v) w := by
  induction u generalizing b with
  | nil => exact hv
  | cons c u ih =>
      refine ⟨?_, ih hu.2 (last_cons c u b ▸ hv)⟩
      show ends isWord r ⟨b, c :: ((u ++ v) ++ w)⟩ = []
      rw [List.append_assoc]
      exact hu.1

theorem passes_of_starts (h : ∀ c ∈ u, ∀ b l, ends isWord r ⟨b, c :: l⟩ = []) :
    Passes isWord r b u w := by
  induction u generalizing b with
  | nil => exact trivial
  | cons c u ih =>
      obtain ⟨hc, hu⟩ := List.forall_mem_cons.mp h
      exact ⟨hc b _, ih hu⟩

theorem passes_of_not_occurs (h : ¬ Occurs isWord r b u) : Passes isWord r b u [] := by
  induction u generalizing b with
  | nil => exact trivial
  | cons c u ih =>
      refine ⟨ends_eq_nil.mpr fun x post hx hmatch => ?_, ih fun hu => ?_⟩
      · rw [List.append_nil] at hx
        exact h ⟨[], x, post, hx, hmatch⟩
      · exact h (Occurs.append [c] hu)

theorem subFrom_of_not_occurs (replacement : List Char) (h : ¬ Occurs isWord r b u) :
    subFrom isWord r replacement b 0 u = u := by
  have hpasses := subFrom_passes replacement (passes_of_not_occurs h)
  rw [List.append_nil, subFrom, List.append_nil] at hpasses
  exact hpasses

/-- A pattern that asks for a word boundary begins no match inside of a word. -/
theorem Passes.word (hu : ∀ d ∈ u, isWord d = true) (hc : isWord c = true) :
    Passes isWord (.seq .boundary s) (some c) u w := by
  induction u generalizing c with
  | nil => exact trivial
  | cons d u ih =>
      obtain ⟨hd, hu⟩ := List.forall_mem_cons.mp hu
      refine ⟨?_, ih hu hd⟩
      rw [ends, ends_boundary, if_neg]
      · rfl
      · simp [hc, hd]

end Backtracking
