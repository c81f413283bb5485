import Mathlib.Data.List.Basic
import OutcomeAssurance.Backtracking

/-! # What a pattern matches

    The meaning of a pattern without the order of the search: which stretch of
    text it matches, between which two characters.  The search ends exactly at
    the ends of such stretches. -/

namespace Backtracking

variable (isWord : Char → Bool)

/-- `\\b` between the two characters. -/
def Edge (b a : Option Char) : Prop := b.any isWord ≠ a.any isWord

/-- The pattern matches the text after the first character and before the last. -/
def Matches : Pattern → Option Char → List Char → Option Char → Prop
  | .one p, _, x, _ => ∃ c, p c = true ∧ x = [c]
  | .many min p, _, x, _ => min ≤ x.length ∧ ∀ c ∈ x, p c = true
  | .opt r, b, x, a => Matches r b x a ∨ x = []
  | .seq r s, b, x, a =>
      ∃ y z, x = y ++ z ∧ Matches r b y (z.head?.or a) ∧ Matches s (y.getLast?.or b) z a
  | .alt r s, b, x, a => Matches r b x a ∨ Matches s b x a
  | .boundary, b, x, a => x = [] ∧ Edge isWord b a

variable {isWord} {r s : Pattern} {b a : Option Char} {x l : List Char}

theorem matches_seq :
    Matches isWord (.seq r s) b x a ↔ ∃ y z, x = y ++ z ∧
      Matches isWord r b y (z.head?.or a) ∧ Matches isWord s (y.getLast?.or b) z a := Iff.rfl

@[simp] theorem matches_boundary :
    Matches isWord .boundary b x a ↔ x = [] ∧ Edge isWord b a := Iff.rfl

theorem last_cons (c : Char) (x : List Char) (b : Option Char) :
    (c :: x).getLast?.or b = x.getLast?.or (some c) := by
  rw [List.getLast?_cons]
  cases x.getLast? <;> rfl

/-- A sequence that starts with a given character. -/
theorem matches_one_seq {p : Char → Bool} :
    Matches isWord (.seq (.one p) s) b x a ↔
      ∃ c y, p c = true ∧ x = c :: y ∧ Matches isWord s (some c) y a := by
  rw [matches_seq]
  constructor
  · rintro ⟨_, z, rfl, ⟨c, hc, rfl⟩, h⟩
    exact ⟨c, z, hc, rfl, h⟩
  · rintro ⟨c, y, hc, rfl, h⟩
    exact ⟨[c], y, rfl, ⟨c, hc, rfl⟩, h⟩

theorem matches_boundary_seq :
    Matches isWord (.seq .boundary s) b x a ↔
      Edge isWord b (x.head?.or a) ∧ Matches isWord s b x a := by
  rw [matches_seq]
  constructor
  · rintro ⟨_, z, rfl, ⟨rfl, hedge⟩, hs⟩
    exact ⟨hedge, hs⟩
  · rintro ⟨hedge, hs⟩
    exact ⟨[], x, rfl, ⟨rfl, hedge⟩, hs⟩

theorem matches_alt_seq {t : Pattern} :
    Matches isWord (.seq (.alt r s) t) b x a ↔
      Matches isWord (.seq r t) b x a ∨ Matches isWord (.seq s t) b x a := by
  rw [matches_seq]
  constructor
  · rintro ⟨y, z, hx, hr | hs, ht⟩
    · exact Or.inl ⟨y, z, hx, hr, ht⟩
    · exact Or.inr ⟨y, z, hx, hs, ht⟩
  · rintro (⟨y, z, hx, hr, ht⟩ | ⟨y, z, hx, hs, ht⟩)
    · exact ⟨y, z, hx, Or.inl hr, ht⟩
    · exact ⟨y, z, hx, Or.inr hs, ht⟩

theorem matches_seq_seq {t : Pattern} :
    Matches isWord (.seq (.seq r s) t) b x a ↔ Matches isWord (.seq r (.seq s t)) b x a := by
  constructor
  · rintro ⟨_, z, rfl, ⟨y, w, rfl, hr, hs⟩, ht⟩
    rw [List.getLast?_append, Option.or_assoc] at ht
    refine ⟨y, w ++ z, List.append_assoc .., ?_, w, z, rfl, hs, ht⟩
    rwa [List.head?_append, Option.or_assoc]
  · rintro ⟨y, _, rfl, hr, w, z, rfl, hs, ht⟩
    rw [List.head?_append, Option.or_assoc] at hr
    refine ⟨y ++ w, z, (List.append_assoc ..).symm, ⟨y, w, rfl, hr, hs⟩, ?_⟩
    rwa [List.getLast?_append, Option.or_assoc]

theorem matches_times_seq {t : Pattern} (n : Nat) :
    Matches isWord (.seq (.times n r s) t) b x a ↔
      Matches isWord (.times n r (.seq s t)) b x a := by
  induction n generalizing b x a with
  | zero => exact Iff.rfl
  | succ n ih =>
      rw [Pattern.times, matches_seq_seq, Pattern.times, matches_seq, matches_seq]
      constructor
      · rintro ⟨y, z, hx, hr, hs⟩
        exact ⟨y, z, hx, hr, ih.mp hs⟩
      · rintro ⟨y, z, hx, hr, hs⟩
        exact ⟨y, z, hx, hr, ih.mpr hs⟩

theorem matches_opt_one_seq {p : Char → Bool} :
    Matches isWord (.seq (.opt (.one p)) s) b x a ↔ ∃ g y, (g.length ≤ 1 ∧ ∀ c ∈ g, p c = true)
      ∧ x = g ++ y ∧ Matches isWord s (g.getLast?.or b) y a := by
  rw [matches_seq]
  constructor
  · rintro ⟨g, y, rfl, ⟨c, hc, rfl⟩ | rfl, hs⟩
    · refine ⟨[c], y, ⟨Nat.le_refl 1, fun d hd => ?_⟩, rfl, hs⟩
      exact List.mem_singleton.mp hd ▸ hc
    · exact ⟨[], y, ⟨Nat.zero_le 1, fun c hc => absurd hc List.not_mem_nil⟩, rfl, hs⟩
  · rintro ⟨g, y, ⟨hlength, hp⟩, rfl, hs⟩
    refine ⟨g, y, rfl, ?_, hs⟩
    cases g with
    | nil => exact Or.inr rfl
    | cons c g =>
        obtain rfl := List.length_eq_zero_iff.mp (Nat.le_zero.mp (Nat.le_of_succ_le_succ hlength))
        exact Or.inl ⟨c, hp c List.mem_cons_self, rfl⟩

theorem matches_times_one {p : Char → Bool} (n : Nat) :
    Matches isWord (.times n (.one p) s) b x a ↔ ∃ g y, (g.length = n ∧ ∀ c ∈ g, p c = true)
      ∧ x = g ++ y ∧ Matches isWord s (g.getLast?.or b) y a := by
  induction n generalizing b x with
  | zero =>
      rw [Pattern.times]
      constructor
      · intro hs
        exact ⟨[], x, ⟨rfl, fun c hc => absurd hc List.not_mem_nil⟩, rfl, hs⟩
      · rintro ⟨g, y, ⟨hlength, -⟩, rfl, hs⟩
        obtain rfl := List.length_eq_zero_iff.mp hlength
        exact hs
  | succ n ih =>
      rw [Pattern.times, matches_one_seq]
      constructor
      · rintro ⟨c, y, hc, rfl, hy⟩
        obtain ⟨g, z, ⟨hlength, hp⟩, rfl, hs⟩ := ih.mp hy
        refine ⟨c :: g, z, ⟨congrArg Nat.succ hlength, ?_⟩, rfl, ?_⟩
        · exact List.forall_mem_cons.mpr ⟨hc, hp⟩
        · rwa [last_cons]
      · rintro ⟨g, y, ⟨hlength, hp⟩, rfl, hs⟩
        obtain ⟨c, g, rfl⟩ := List.exists_cons_of_length_eq_add_one hlength
        obtain ⟨hc, hp⟩ := List.forall_mem_cons.mp hp
        rw [last_cons] at hs
        exact ⟨c, g ++ y, hc, rfl, ih.mpr ⟨g, y, ⟨Nat.succ.inj hlength, hp⟩, rfl, hs⟩⟩

/-! ## The ends of a search -/

theorem ends_one_cons {p : Char → Bool} {c : Char} :
    ends isWord (.one p) ⟨b, c :: l⟩ = if p c then [⟨some c, l⟩] else [] := rfl

theorem ends_boundary :
    ends isWord .boundary ⟨b, l⟩ = if b.any isWord ≠ l.head?.any isWord then [⟨b, l⟩] else [] :=
  rfl

theorem mem_runEnds {p : Char → Bool} {place : Place} (min : Nat) (b : Option Char)
    (l : List Char) :
    place ∈ runEnds p min b l ↔ ∃ x, l = x ++ place.rest ∧ place.before = x.getLast?.or b
      ∧ min ≤ x.length ∧ ∀ c ∈ x, p c = true := by
  induction l generalizing min b with
  | nil =>
      rw [runEnds]
      constructor
      · intro h
        split at h
        case isTrue hmin =>
          obtain rfl := List.mem_singleton.mp h
          exact ⟨[], rfl, rfl, Nat.le_of_eq hmin, fun c hc => absurd hc List.not_mem_nil⟩
        case isFalse => exact absurd h List.not_mem_nil
      · rintro ⟨x, hx, hbefore, hmin, -⟩
        obtain ⟨rfl, hrest⟩ := List.append_eq_nil_iff.mp hx.symm
        rw [if_pos (Nat.le_zero.mp hmin), List.mem_singleton]
        cases place
        exact congrArg₂ Place.mk hbefore hrest
  | cons c l ih =>
      rw [runEnds, List.mem_append]
      constructor
      · rintro (h | h)
        · split at h
          case isTrue hc =>
            obtain ⟨x, hx, hbefore, hmin, hp⟩ := (ih _ _).mp h
            refine ⟨c :: x, ?_, hbefore.trans (last_cons c x b).symm,
              Nat.sub_le_iff_le_add.mp hmin, List.forall_mem_cons.mpr ⟨hc, hp⟩⟩
            exact congrArg (c :: ·) hx
          case isFalse => exact absurd h List.not_mem_nil
        · split at h
          case isTrue hmin =>
            obtain rfl := List.mem_singleton.mp h
            exact ⟨[], rfl, rfl, Nat.le_of_eq hmin, fun c hc => absurd hc List.not_mem_nil⟩
          case isFalse => exact absurd h List.not_mem_nil
      · rintro ⟨x, hx, hbefore, hmin, hp⟩
        cases x with
        | nil =>
            right
            rw [if_pos (Nat.le_zero.mp hmin), List.mem_singleton]
            cases place
            exact congrArg₂ Place.mk hbefore hx.symm
        | cons d x =>
            left
            obtain ⟨rfl, hrest⟩ := List.cons.inj hx
            obtain ⟨hd, hp⟩ := List.forall_mem_cons.mp hp
            rw [if_pos hd]
            exact (ih _ _).mpr ⟨x, hrest, hbefore.trans (last_cons c x b),
              Nat.sub_le_iff_le_add.mpr hmin, hp⟩

/-- **THE SEARCH** ends exactly where a match ends. -/
theorem mem_ends {place : Place} (r : Pattern) (b : Option Char) (l : List Char) :
    place ∈ ends isWord r ⟨b, l⟩ ↔ ∃ x, l = x ++ place.rest
      ∧ place.before = x.getLast?.or b ∧ Matches isWord r b x place.rest.head? := by
  induction r generalizing b l place with
  | one p =>
      cases l with
      | nil =>
          refine iff_of_false List.not_mem_nil ?_
          rintro ⟨x, hx, -, c, -, rfl⟩
          cases hx
      | cons c l =>
          rw [ends_one_cons]
          constructor
          · intro h
            split at h
            case isTrue hc =>
              obtain rfl := List.mem_singleton.mp h
              exact ⟨[c], rfl, rfl, c, hc, rfl⟩
            case isFalse => exact absurd h List.not_mem_nil
          · rintro ⟨x, hx, hbefore, d, hd, rfl⟩
            obtain ⟨rfl, hrest⟩ := List.cons.inj hx
            rw [if_pos hd, List.mem_singleton]
            cases place
            exact congrArg₂ Place.mk hbefore hrest.symm
  | many min p => exact mem_runEnds min b l
  | opt r ih =>
      rw [ends, List.mem_append, ih, List.mem_singleton]
      constructor
      · rintro (⟨x, hx, hbefore, hmatch⟩ | rfl)
        · exact ⟨x, hx, hbefore, Or.inl hmatch⟩
        · exact ⟨[], rfl, rfl, Or.inr rfl⟩
      · rintro ⟨x, hx, hbefore, hmatch | rfl⟩
        · exact Or.inl ⟨x, hx, hbefore, hmatch⟩
        · right
          cases place
          exact congrArg₂ Place.mk hbefore hx.symm
  | seq r s ihr ihs =>
      rw [ends, List.mem_flatMap]
      constructor
      · rintro ⟨⟨_, _⟩, hmid, hend⟩
        obtain ⟨y, rfl, rfl, hr⟩ := ihr _ _ |>.mp hmid
        obtain ⟨z, rfl, hbefore, hs⟩ := ihs _ _ |>.mp hend
        refine ⟨y ++ z, (List.append_assoc ..).symm, ?_, y, z, rfl, ?_, hs⟩
        · rw [hbefore, List.getLast?_append, Option.or_assoc]
        · rwa [List.head?_append] at hr
      · rintro ⟨_, rfl, hbefore, y, z, rfl, hr, hs⟩
        refine ⟨⟨y.getLast?.or b, z ++ place.rest⟩, ?_, ?_⟩
        · refine (ihr _ _).mpr ⟨y, List.append_assoc .., rfl, ?_⟩
          rwa [List.head?_append]
        · refine (ihs _ _).mpr ⟨z, rfl, ?_, hs⟩
          rw [hbefore, List.getLast?_append, Option.or_assoc]
  | alt r s ihr ihs =>
      rw [ends, List.mem_append, ihr, ihs]
      constructor
      · rintro (⟨x, hx, hbefore, hmatch⟩ | ⟨x, hx, hbefore, hmatch⟩)
        · exact ⟨x, hx, hbefore, Or.inl hmatch⟩
        · exact ⟨x, hx, hbefore, Or.inr hmatch⟩
      · rintro ⟨x, hx, hbefore, hmatch | hmatch⟩
        · exact Or.inl ⟨x, hx, hbefore, hmatch⟩
        · exact Or.inr ⟨x, hx, hbefore, hmatch⟩
  | boundary =>
      rw [ends_boundary]
      constructor
      · intro h
        split at h
        case isTrue hedge =>
          obtain rfl := List.mem_singleton.mp h
          exact ⟨[], rfl, rfl, rfl, hedge⟩
        case isFalse => exact absurd h List.not_mem_nil
      · rintro ⟨_, rfl, hbefore, rfl, hedge⟩
        rw [Edge] at hedge
        rw [List.nil_append, if_pos hedge, List.mem_singleton]
        cases place
        exact congrArg₂ Place.mk hbefore rfl

theorem ends_ne_nil :
    ends isWord r ⟨b, l⟩ ≠ [] ↔ ∃ x post, l = x ++ post ∧ Matches isWord r b x post.head? := by
  constructor
  · intro h
    obtain ⟨place, hplace⟩ := List.exists_mem_of_ne_nil _ h
    obtain ⟨x, hl, -, hmatch⟩ := (mem_ends r b l).mp hplace
    exact ⟨x, place.rest, hl, hmatch⟩
  · rintro ⟨x, post, hl, hmatch⟩
    have hplace : ⟨x.getLast?.or b, post⟩ ∈ ends isWord r ⟨b, l⟩ :=
      (mem_ends r b l).mpr ⟨x, hl, rfl, hmatch⟩
    exact List.ne_nil_of_mem hplace

theorem ends_eq_nil :
    ends isWord r ⟨b, l⟩ = [] ↔
      ∀ x post, l = x ++ post → ¬ Matches isWord r b x post.head? := by
  rw [← not_iff_not, ← ne_eq, ends_ne_nil]
  simp

variable (isWord) in
/-- Somewhere in the text stands a match. -/
def Occurs (r : Pattern) (b : Option Char) (l : List Char) : Prop :=
  ∃ pre x post, l = pre ++ (x ++ post) ∧ Matches isWord r (pre.getLast?.or b) x post.head?

theorem Occurs.append (y : List Char) (h : Occurs isWord r (y.getLast?.or b) l) :
    Occurs isWord r b (y ++ l) := by
  obtain ⟨pre, x, post, rfl, hmatch⟩ := h
  refine ⟨y ++ pre, x, post, (List.append_assoc ..).symm, ?_⟩
  rwa [List.getLast?_append, Option.or_assoc]

theorem searchFrom_iff (r : Pattern) (b : Option Char) (l : List Char) :
    searchFrom isWord r b l = true ↔ Occurs isWord r b l := by
  induction l generalizing b with
  | nil =>
      rw [searchFrom, decide_eq_true_iff, ends_ne_nil]
      constructor
      · rintro ⟨x, post, hl, hmatch⟩
        exact ⟨[], x, post, hl, hmatch⟩
      · rintro ⟨pre, x, post, hl, hmatch⟩
        obtain ⟨rfl, hrest⟩ := List.append_eq_nil_iff.mp hl.symm
        exact ⟨x, post, hrest.symm, hmatch⟩
  | cons c l ih =>
      rw [searchFrom, Bool.or_eq_true, decide_eq_true_iff, ends_ne_nil, ih]
      constructor
      · rintro (⟨x, post, hl, hmatch⟩ | ⟨pre, x, post, rfl, hmatch⟩)
        · exact ⟨[], x, post, hl, hmatch⟩
        · exact ⟨c :: pre, x, post, rfl, (last_cons c pre b).symm ▸ hmatch⟩
      · rintro ⟨pre, x, post, hl, hmatch⟩
        cases pre with
        | nil => exact Or.inl ⟨x, post, hl, hmatch⟩
        | cons d pre =>
            obtain ⟨rfl, hrest⟩ := List.cons.inj hl
            exact Or.inr ⟨pre, x, post, hrest, last_cons c pre b ▸ hmatch⟩

/-! ## The characters of a match -/

/-- Every match has a character of the class. -/
def Needs (p : Char → Bool) : Pattern → Prop
  | .one q => ∀ c, q c = true → p c = true
  | .many min q => 0 < min ∧ ∀ c, q c = true → p c = true
  | .opt _ => False
  | .seq r s => Needs p r ∨ Needs p s
  | .alt r s => Needs p r ∧ Needs p s
  | .boundary => False

/-- Every match is of characters of the class. -/
def Only (p : Char → Bool) : Pattern → Prop
  | .one q => ∀ c, q c = true → p c = true
  | .many _ q => ∀ c, q c = true → p c = true
  | .opt r => Only p r
  | .seq r s => Only p r ∧ Only p s
  | .alt r s => Only p r ∧ Only p s
  | .boundary => True

theorem Needs.exists_mem {p : Char → Bool} (h : Needs p r) (hmatch : Matches isWord r b x a) :
    ∃ c ∈ x, p c = true := by
  induction r generalizing b x a with
  | one q =>
      obtain ⟨c, hc, rfl⟩ := hmatch
      exact ⟨c, List.mem_singleton_self c, h c hc⟩
  | many min q =>
      obtain ⟨c, hc⟩ := List.exists_mem_of_length_pos (Nat.lt_of_lt_of_le h.1 hmatch.1)
      exact ⟨c, hc, h.2 c (hmatch.2 c hc)⟩
  | opt r => exact h.elim
  | seq r s ihr ihs =>
      obtain ⟨y, z, rfl, hr, hs⟩ := hmatch
      rcases h with h | h
      · obtain ⟨c, hc, hp⟩ := ihr h hr
        exact ⟨c, List.mem_append_left z hc, hp⟩
      · obtain ⟨c, hc, hp⟩ := ihs h hs
        exact ⟨c, List.mem_append_right y hc, hp⟩
  | alt r s ihr ihs =>
      rcases hmatch with hmatch | hmatch
      · exact ihr h.1 hmatch
      · exact ihs h.2 hmatch
  | boundary => exact h.elim

theorem Needs.ne_nil {p : Char → Bool} (h : Needs p r) (hmatch : Matches isWord r b x a) :
    x ≠ [] := by
  obtain ⟨c, hc, -⟩ := h.exists_mem hmatch
  exact List.ne_nil_of_mem hc

theorem Only.forall_mem {p : Char → Bool} (h : Only p r) (hmatch : Matches isWord r b x a) :
    ∀ c ∈ x, p c = true := by
  induction r generalizing b x a with
  | one q =>
      obtain ⟨c, hc, rfl⟩ := hmatch
      intro d hd
      obtain rfl := List.mem_singleton.mp hd
      exact h d hc
  | many min q => exact fun c hc => h c (hmatch.2 c hc)
  | opt r ih =>
      rcases hmatch with hmatch | rfl
      · exact ih h hmatch
      · exact fun c hc => absurd hc List.not_mem_nil
  | seq r s ihr ihs =>
      obtain ⟨y, z, rfl, hr, hs⟩ := hmatch
      intro c hc
      rcases List.mem_append.mp hc with hc | hc
      · exact ihr h.1 hr c hc
      · exact ihs h.2 hs c hc
  | alt r s ihr ihs =>
      rcases hmatch with hmatch | hmatch
      · exact ihr h.1 hmatch
      · exact ihs h.2 hmatch
  | boundary =>
      obtain ⟨rfl, -⟩ := hmatch
      exact fun c hc => absurd hc List.not_mem_nil

end Backtracking
