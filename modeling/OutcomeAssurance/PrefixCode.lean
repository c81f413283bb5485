import Mathlib.Data.List.Flatten
import Mathlib.Logic.Function.Basic

/-! # Self-delimiting codes

    A code is self-delimiting when its words can be cut off the front of any
    text.  Such codes compose: one after the other, behind a fixed word, as an
    optional value, or as a separated list up to a stop sign. -/

namespace PrefixCode

variable {α β σ : Type*}

/-- A text that begins with a code word says which, and where the word ends. -/
def Delimited (enc : α → List σ) : Prop :=
  ∀ a b x y, enc a ++ x = enc b ++ y → a = b ∧ x = y

variable {enc : α → List σ} {enc' : β → List σ}

/-- A reader that returns the value and the rest of the text is enough. -/
theorem delimited_of_decode {dec : List σ → Option (α × List σ)}
    (h : ∀ a x, dec (enc a ++ x) = some (a, x)) : Delimited enc := by
  intro a b x y heq
  have hread := h a x
  rw [heq, h b y] at hread
  obtain ⟨hvalue, hrest⟩ := Prod.mk.inj (Option.some.inj hread)
  exact ⟨hvalue.symm, hrest.symm⟩

theorem Delimited.comp (h : Delimited enc) {f : β → α} (hf : Function.Injective f) :
    Delimited fun b => enc (f b) := by
  intro a b x y heq
  obtain ⟨hvalue, hrest⟩ := h (f a) (f b) x y heq
  exact ⟨hf hvalue, hrest⟩

theorem Delimited.after (w : List σ) (h : Delimited enc) : Delimited fun a => w ++ enc a := by
  intro a b x y heq
  simp only [List.append_assoc] at heq
  exact h a b x y (List.append_cancel_left heq)

theorem Delimited.pair (h : Delimited enc) (h' : Delimited enc') :
    Delimited fun p : α × β => enc p.1 ++ enc' p.2 := by
  rintro ⟨a, a'⟩ ⟨b, b'⟩ x y heq
  simp only [List.append_assoc] at heq
  obtain ⟨rfl, htail⟩ := h a b _ _ heq
  obtain ⟨rfl, hrest⟩ := h' a' b' x y htail
  exact ⟨rfl, hrest⟩

/-- Words without the stop sign, closed by it. -/
theorem delimited_stop {stop : σ} (hinj : Function.Injective enc) (hstop : ∀ a, stop ∉ enc a) :
    Delimited fun a => enc a ++ [stop] := by
  intro a b x y heq
  simp only [List.append_assoc, List.singleton_append] at heq
  obtain ⟨hvalue, hrest⟩ : enc a = enc b ∧ x = y := by
    generalize hu : enc a = u at heq
    generalize hv : enc b = v at heq
    have hau : stop ∉ u := hu ▸ hstop a
    have hbv : stop ∉ v := hv ▸ hstop b
    clear hu hv
    induction u generalizing v with
    | nil =>
        cases v with
        | nil => exact ⟨rfl, (List.cons.inj heq).2⟩
        | cons d v => exact absurd ((List.cons.inj heq).1 ▸ List.mem_cons_self) hbv
    | cons c u ih =>
        cases v with
        | nil => exact absurd ((List.cons.inj heq).1 ▸ List.mem_cons_self) hau
        | cons d v =>
            obtain ⟨rfl, htail⟩ := List.cons.inj heq
            obtain ⟨rfl, hrest⟩ := ih v htail (fun hm => hau (List.mem_cons_of_mem c hm))
              (fun hm => hbv (List.mem_cons_of_mem c hm))
            exact ⟨rfl, hrest⟩
  exact ⟨hinj hvalue, hrest⟩

/-- An optional value, its absence a word no other begins with. -/
theorem Delimited.option (h : Delimited enc) {absent : List σ}
    (habsent : ∀ a x y, enc a ++ x ≠ absent ++ y) :
    Delimited fun o : Option α => o.elim absent enc := by
  intro a b x y heq
  cases a with
  | none =>
      cases b with
      | none => exact ⟨rfl, List.append_cancel_left heq⟩
      | some b => exact absurd heq.symm (habsent b y x)
  | some a =>
      cases b with
      | none => exact absurd heq (habsent a x y)
      | some b =>
          obtain ⟨rfl, hrest⟩ := h a b x y heq
          exact ⟨rfl, hrest⟩

/-- Any number of words, closed by a sign with which none of them begins. -/
theorem Delimited.many (h : Delimited enc) {stop : σ}
    (hstop : ∀ a x y, enc a ++ x ≠ stop :: y) :
    Delimited fun as : List α => as.flatMap enc ++ [stop] := by
  intro as bs x y heq
  induction as generalizing bs with
  | nil =>
      cases bs with
      | nil => exact ⟨rfl, (List.cons.inj heq).2⟩
      | cons b bs =>
          simp only [List.flatMap_cons, List.append_assoc] at heq
          exact absurd heq.symm (hstop b _ x)
  | cons a as ih =>
      cases bs with
      | nil =>
          simp only [List.flatMap_cons, List.append_assoc] at heq
          exact absurd heq (hstop a _ y)
      | cons b bs =>
          simp only [List.flatMap_cons, List.append_assoc] at heq
          obtain ⟨rfl, htail⟩ := h a b _ _ heq
          simp only [← List.append_assoc] at htail
          obtain ⟨rfl, hrest⟩ := ih bs htail
          exact ⟨rfl, hrest⟩

theorem intercalate_cons (sep w : List σ) (ws : List (List σ)) :
    sep.intercalate (w :: ws) = w ++ ws.flatMap (sep ++ ·) := by
  induction ws generalizing w with
  | nil => simp
  | cons v ws ih => simp [ih]

/-- A separated list, closed by a sign with which neither a word nor the
    separator begins. -/
theorem Delimited.separated (h : Delimited enc) {sep : List σ} {stop : σ}
    (hstop : ∀ a x y, enc a ++ x ≠ stop :: y) (hsep : ∀ x y, sep ++ x ≠ stop :: y) :
    Delimited fun as : List α => sep.intercalate (as.map enc) ++ [stop] := by
  have htail : Delimited fun as : List α => as.flatMap (fun a => sep ++ enc a) ++ [stop] := by
    refine (h.after sep).many ?_
    intro a x y
    rw [List.append_assoc]
    exact hsep _ y
  intro as bs x y heq
  cases as with
  | nil =>
      cases bs with
      | nil => exact ⟨rfl, (List.cons.inj heq).2⟩
      | cons b bs =>
          simp only [List.map_cons, intercalate_cons, List.append_assoc] at heq
          exact absurd heq.symm (hstop b _ x)
  | cons a as =>
      cases bs with
      | nil =>
          simp only [List.map_cons, intercalate_cons, List.append_assoc] at heq
          exact absurd heq (hstop a _ y)
      | cons b bs =>
          simp only [List.map_cons, intercalate_cons, List.append_assoc, List.flatMap_map] at heq
          obtain ⟨rfl, hmore⟩ := h a b _ _ heq
          simp only [← List.append_assoc] at hmore
          obtain ⟨rfl, hrest⟩ := htail as bs x y hmore
          exact ⟨rfl, hrest⟩

end PrefixCode
