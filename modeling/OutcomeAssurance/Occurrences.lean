import Mathlib.Data.List.Infix

/-! # Occurrences of a marker

    Where a marker occurs in a text that is put together from parts, and what
    may follow it there.  The marker's first symbol occurs nowhere else in it,
    so two occurrences never overlap; a symbol the marker lacks separates the
    occurrences before it from those after it. -/

namespace Occurrences

variable {α : Type*} {m : List α} {Q : List α → Prop}

/-- The marker occurs in the text, and what follows it there meets `Q`. -/
def Followed (m : List α) (Q : List α → Prop) (text : List α) : Prop :=
  ∃ before after, text = before ++ (m ++ after) ∧ Q after

theorem followed_prefix_iff {q text : List α} :
    Followed m (q <+: ·) text ↔ m ++ q <:+: text := by
  constructor
  · rintro ⟨before, after, rfl, rest, rfl⟩
    exact ⟨before, rest, by simp only [List.append_assoc]⟩
  · rintro ⟨before, rest, rfl⟩
    exact ⟨before, q ++ rest, by simp only [List.append_assoc], List.prefix_append q rest⟩

theorem not_followed_nil (hm : m ≠ []) : ¬ Followed m Q [] := by
  rintro ⟨before, after, heq, -⟩
  have hnil := (List.append_eq_nil_iff.mp heq.symm).2
  exact hm (List.append_eq_nil_iff.mp hnil).1

/-- **A SEPARATOR** is inside no occurrence. -/
theorem followed_append_cons {c : α} (hc : c ∉ m) (hm : m ≠ []) (x y : List α) :
    Followed m Q (x ++ c :: y) ↔
      Followed m (fun after => Q (after ++ c :: y)) x ∨ Followed m Q y := by
  constructor
  · rintro ⟨before, after, heq, hQ⟩
    rcases List.append_eq_append_iff.mp heq with ⟨t, rfl, hrest⟩ | ⟨t, rfl, hrest⟩
    · -- the occurrence begins at the separator or behind it
      cases t with
      | nil =>
          obtain ⟨d, m', rfl⟩ := List.exists_cons_of_ne_nil hm
          obtain rfl := (List.cons.inj hrest).1
          exact absurd List.mem_cons_self hc
      | cons d t => exact Or.inr ⟨t, after, (List.cons.inj hrest).2, hQ⟩
    · rcases List.append_eq_append_iff.mp hrest with ⟨u, rfl, rfl⟩ | ⟨u, rfl, hafter⟩
      · exact Or.inl ⟨before, u, rfl, hQ⟩
      · cases u with
        | nil =>
            obtain rfl : c :: y = after := hafter
            exact Or.inl ⟨before, [], by rw [List.append_nil, List.append_nil], hQ⟩
        | cons d u =>
            obtain rfl := (List.cons.inj hafter).1
            exact absurd (List.mem_append_right t List.mem_cons_self) hc
  · rintro (⟨before, after, rfl, hQ⟩ | ⟨before, after, rfl, hQ⟩)
    · exact ⟨before, after ++ c :: y, by simp only [List.append_assoc], hQ⟩
    · exact ⟨x ++ c :: before, after, by simp only [List.append_assoc, List.cons_append], hQ⟩

theorem followed_cons {c : α} (hc : c ∉ m) (hm : m ≠ []) (y : List α) :
    Followed m Q (c :: y) ↔ Followed m Q y := by
  have hsplit := followed_append_cons (Q := Q) hc hm [] y
  rw [List.nil_append] at hsplit
  exact hsplit.trans (or_iff_right (not_followed_nil hm))

/-- Symbols the marker lacks may be dropped in front. -/
theorem followed_dropWhile {p : α → Bool} (hp : ∀ c, p c = true → c ∉ m) (hm : m ≠ [])
    (text : List α) : Followed m Q (text.dropWhile p) ↔ Followed m Q text := by
  induction text with
  | nil => rfl
  | cons c text ih =>
      cases hc : p c with
      | true => rw [List.dropWhile_cons_of_pos hc, ih, followed_cons (hp c hc) hm]
      | false => rw [List.dropWhile_cons_of_neg (Bool.eq_false_iff.mp hc)]

/-- **TWO OCCURRENCES** of a marker do not overlap. -/
theorem followed_marker {h : α} {m : List α} (hm : h ∉ m) (y : List α) :
    Followed (h :: m) Q (h :: m ++ y) ↔ Q y ∨ Followed (h :: m) Q y := by
  constructor
  · rintro ⟨before, after, heq, hQ⟩
    cases before with
    | nil =>
        obtain rfl := List.append_cancel_left heq
        exact Or.inl hQ
    | cons d before =>
        have htail := (List.cons.inj heq).2
        rcases List.append_eq_append_iff.mp htail with ⟨t, -, rfl⟩ | ⟨t, rfl, hrest⟩
        · exact Or.inr ⟨t, after, rfl, hQ⟩
        · cases t with
          | nil => exact Or.inr ⟨[], after, hrest.symm, hQ⟩
          | cons e t =>
              obtain rfl : h = e := (List.cons.inj hrest).1
              exact absurd (List.mem_append_right before List.mem_cons_self) hm
  · rintro (hQ | ⟨before, after, rfl, hQ⟩)
    · exact ⟨[], y, rfl, hQ⟩
    · exact ⟨h :: m ++ before, after, by simp only [List.append_assoc], hQ⟩

end Occurrences
