import Mathlib.Data.List.Basic
import Mathlib.Tactic.IntervalCases

/-! # Groups of digits

    A number written in groups of given lengths, with at most one separator
    between two groups.  Such a text meets an unbroken run of digits only at a
    sum of its first lengths, or ends inside of the run. -/

namespace DigitGroups

variable {α : Type} {digit sep : α → Bool}

/-- So many digits. -/
def Digits (digit : α → Bool) (n : Nat) (g : List α) : Prop :=
  g.length = n ∧ ∀ c ∈ g, digit c = true

/-- One element of the class, or nothing. -/
def AtMostOne (p : α → Bool) (g : List α) : Prop := g.length ≤ 1 ∧ ∀ c ∈ g, p c = true

theorem AtMostOne.cases {p : α → Bool} {g : List α} (h : AtMostOne p g) :
    g = [] ∨ ∃ c, p c = true ∧ g = [c] := by
  cases g with
  | nil => exact Or.inl rfl
  | cons c g =>
      have hnil := List.length_eq_zero_iff.mp (Nat.le_zero.mp (Nat.le_of_succ_le_succ h.1))
      exact Or.inr ⟨c, h.2 c List.mem_cons_self, by rw [hnil]⟩

variable (digit sep) in
/-- A text in groups of the given lengths. -/
inductive Grouped : List Nat → List α → Prop where
  | last {n : Nat} {g : List α} : 0 < n → Digits digit n g → Grouped [n] g
  | group {n m : Nat} {ns : List Nat} {g s x : List α} : 0 < n → Digits digit n g →
      AtMostOne sep s → Grouped (m :: ns) x → Grouped (n :: m :: ns) (g ++ (s ++ x))

theorem Digits.eq_cons {n : Nat} {g : List α} (h : Digits digit n g) (hn : 0 < n) :
    ∃ c t, g = c :: t ∧ digit c = true := by
  obtain ⟨c, t, rfl⟩ := List.exists_cons_of_length_pos (h.1 ▸ hn)
  exact ⟨c, t, rfl, h.2 c List.mem_cons_self⟩

theorem Grouped.eq_cons {ns : List Nat} {x : List α} (h : Grouped digit sep ns x) :
    ∃ c t, x = c :: t ∧ digit c = true := by
  cases h with
  | last hn hg => exact hg.eq_cons hn
  | group hn hg hs hx =>
      obtain ⟨c, t, rfl, hc⟩ := hg.eq_cons hn
      exact ⟨c, _, rfl, hc⟩

theorem Grouped.ne_nil {ns : List Nat} {x : List α} (h : Grouped digit sep ns x) : x ≠ [] := by
  obtain ⟨c, t, rfl, -⟩ := h.eq_cons
  exact List.cons_ne_nil c t

theorem Grouped.getLast? {ns : List Nat} {x : List α} (h : Grouped digit sep ns x) :
    ∃ c, x.getLast? = some c ∧ digit c = true := by
  induction h with
  | @last n g hn hg =>
      obtain ⟨c, hc⟩ := List.getLast?_isSome.mpr (List.ne_nil_of_length_pos (hg.1 ▸ hn))
        |> Option.isSome_iff_exists.mp
      exact ⟨c, hc, hg.2 c (List.mem_of_getLast? hc)⟩
  | group hn hg hs hx ih =>
      obtain ⟨c, hc, hdigit⟩ := ih
      refine ⟨c, ?_, hdigit⟩
      rw [List.getLast?_append, List.getLast?_append, hc]
      rfl

/-- No digit stands at the front. -/
def EndsRun (digit : α → Bool) (t : List α) : Prop := ∀ c, t.head? = some c → digit c = false

/-- A group at the front of a run: it is within the run, or is the run. -/
theorem Digits.run {n : Nat} {d rest g t : List α} (hd : Digits digit n d)
    (ht : EndsRun digit t) (h : d ++ rest = g ++ t) : ∃ k, g = d ++ k ∧ rest = k ++ t := by
  rcases List.append_eq_append_iff.mp h with ⟨k, rfl, hk⟩ | ⟨k, rfl, hk⟩
  · exact ⟨k, rfl, hk⟩
  · cases k with
    | nil => exact ⟨[], by simp, by simpa using hk.symm⟩
    | cons c k =>
        have hdigit := hd.2 c (List.mem_append_right g List.mem_cons_self)
        rw [ht c (by rw [hk]; rfl)] at hdigit
        cases hdigit

/-- **MEETING A RUN**: the text ends inside of the run, or the run is its first
    groups. -/
theorem Grouped.run (hsep : ∀ c, digit c = true → sep c = false) {ns : List Nat}
    {x post g t : List α} (hx : Grouped digit sep ns x) (hg : ∀ c ∈ g, digit c = true)
    (ht : EndsRun digit t) (h : x ++ post = g ++ t) :
    (x.length = ns.sum ∧ ∃ k, g = x ++ k ∧ post = k ++ t) ∨
      ∃ j, 0 < j ∧ j < ns.length ∧ g.length = (ns.take j).sum ∧
        ∃ s y, AtMostOne sep s ∧ t = s ++ (y ++ post) ∧ Grouped digit sep (ns.drop j) y := by
  induction hx generalizing g with
  | last hn hd =>
      left
      refine ⟨by simpa using hd.1, hd.run ht h⟩
  | @group n m ns d s x hn hd hs hx ih =>
      rw [List.append_assoc, List.append_assoc] at h
      obtain ⟨k, rfl, hk⟩ := hd.run ht h
      cases k with
      | nil =>
          -- the run is the first group
          right
          refine ⟨1, Nat.one_pos, by simp, by simpa using hd.1, s, x, hs, hk.symm, hx⟩
      | cons c k =>
          have hc := hg c (List.mem_append_right d List.mem_cons_self)
          have hnil : s = [] := by
            rcases hs.cases with hnil | ⟨e, he, rfl⟩
            · exact hnil
            · obtain ⟨rfl, -⟩ := List.cons.inj hk
              rw [hsep e hc] at he
              cases he
          subst hnil
          have hg' : ∀ e ∈ c :: k, digit e = true := fun e he => hg e (List.mem_append_right d he)
          rcases ih hg' hk with ⟨hlength, z, hz, hpost⟩ | ⟨j, hj, hlt, hlength, s, y, hs, hy, hrest⟩
          · left
            refine ⟨?_, z, ?_, hpost⟩
            · rw [List.nil_append, List.length_append, hd.1, hlength]
              rfl
            · rw [hz, List.nil_append, List.append_assoc]
          · right
            refine ⟨j + 1, Nat.succ_pos j, Nat.succ_lt_succ hlt, ?_, s, y, hs, hy, hrest⟩
            rw [List.length_append, hd.1, hlength, List.take_succ_cons, List.sum_cons]

/-- The run that a text of groups begins with, and what comes after it. -/
theorem Grouped.leading_run (hsep : ∀ c, sep c = true → digit c = false) {ns : List Nat}
    {x v : List α} (hx : Grouped digit sep ns x) (hv : EndsRun digit v) :
    ∃ j g t, 0 < j ∧ j ≤ ns.length ∧ x ++ v = g ++ t ∧ (∀ c ∈ g, digit c = true)
      ∧ g.length = (ns.take j).sum ∧ EndsRun digit t
      ∧ (j < ns.length → ∃ c y, t = c :: (y ++ v) ∧ digit c = false
        ∧ Grouped digit sep (ns.drop j) y) := by
  induction hx with
  | @last n g hn hd =>
      refine ⟨1, g, v, Nat.one_pos, Nat.le_refl 1, rfl, hd.2, by simpa using hd.1, hv, fun h => ?_⟩
      exact absurd h (Nat.lt_irrefl 1)
  | @group n m ns d s x hn hd hs hx ih =>
      rcases hs.cases with rfl | ⟨c, hc, rfl⟩
      · obtain ⟨j, g, t, hj, hle, hxv, hg, hlength, ht, hrest⟩ := ih
        refine ⟨j + 1, d ++ g, t, Nat.succ_pos j, Nat.succ_le_succ hle, ?_, ?_, ?_, ht, ?_⟩
        · rw [List.nil_append, List.append_assoc, List.append_assoc, hxv]
        · intro c hc
          rcases List.mem_append.mp hc with hc | hc
          · exact hd.2 c hc
          · exact hg c hc
        · rw [List.length_append, hd.1, hlength, List.take_succ_cons, List.sum_cons]
        · exact fun hlt => hrest (Nat.lt_of_succ_lt_succ hlt)
      · refine ⟨1, d, c :: (x ++ v), Nat.one_pos, by simp, by simp, hd.2, by simpa using hd.1, ?_,
          fun _ => ⟨c, x, rfl, hsep c hc, hx⟩⟩
        rintro e he
        obtain rfl := Option.some.inj he
        exact hsep c hc

/-- Two texts of the same groups at the same place are the same. -/
theorem Grouped.unique (hsep : ∀ c, digit c = true → sep c = false) {ns : List Nat}
    {x y post rest : List α} (hx : Grouped digit sep ns x) (hy : Grouped digit sep ns y)
    (h : x ++ post = y ++ rest) : x = y := by
  induction hx generalizing y with
  | last hn hd =>
      cases hy with
      | last _ he => exact (List.append_inj h (hd.1.trans he.1.symm)).1
  | @group n m ns d s x hn hd hs hx ih =>
      cases hy with
      | @group _ _ _ e s' y _ he hs' hy =>
          rw [List.append_assoc, List.append_assoc, List.append_assoc, List.append_assoc] at h
          obtain ⟨rfl, hrest⟩ := List.append_inj h (hd.1.trans he.1.symm)
          obtain ⟨c, v, rfl, hc⟩ := hx.eq_cons
          obtain ⟨c', v', rfl, hc'⟩ := hy.eq_cons
          rcases hs.cases with rfl | ⟨a, ha, rfl⟩
          · rcases hs'.cases with rfl | ⟨a', ha', rfl⟩
            · rw [ih hy hrest]
            · obtain ⟨rfl, -⟩ := List.cons.inj hrest
              rw [hsep c hc] at ha'
              cases ha'
          · rcases hs'.cases with rfl | ⟨a', ha', rfl⟩
            · obtain ⟨rfl, -⟩ := List.cons.inj hrest
              rw [hsep a hc'] at ha
              cases ha
            · obtain ⟨rfl, hnext⟩ := List.cons.inj hrest
              rw [ih hy hnext]

theorem split_notMem {d rest y z : List α} {c : α} (hc : c ∉ d) (h : d ++ rest = y ++ c :: z) :
    ∃ w, y = d ++ w ∧ rest = w ++ c :: z := by
  rcases List.append_eq_append_iff.mp h with ⟨w, rfl, hw⟩ | ⟨w, rfl, hw⟩
  · exact ⟨w, rfl, hw⟩
  · cases w with
    | nil => exact ⟨[], by simp, by simpa using hw.symm⟩
    | cons e w =>
        obtain ⟨rfl, -⟩ := List.cons.inj hw
        exact absurd (List.mem_append_right y List.mem_cons_self) hc

theorem Digits.notMem {n : Nat} {d : List α} {c : α} (hd : Digits digit n d)
    (hc : digit c = false) : c ∉ d := by
  intro hmem
  rw [hd.2 c hmem] at hc
  cases hc

theorem AtMostOne.split {p : α → Bool} {s rest y z : List α} {c : α} (hs : AtMostOne p s)
    (h : s ++ rest = y ++ c :: z) : rest = z ∨ ∃ w, rest = w ++ c :: z := by
  rcases hs.cases with rfl | ⟨a, -, rfl⟩
  · exact Or.inr ⟨y, h⟩
  · cases y with
    | nil => exact Or.inl (List.cons.inj h).2
    | cons b y => exact Or.inr ⟨y, (List.cons.inj h).2⟩

/-- After a separator come the groups that are left. -/
theorem Grouped.after {ns : List Nat} {x y z : List α} {c : α} (hx : Grouped digit sep ns x)
    (hc : digit c = false) (h : x = y ++ c :: z) :
    ∃ j, 0 < j ∧ j < ns.length ∧ Grouped digit sep (ns.drop j) z := by
  induction hx generalizing y with
  | last hn hd =>
      exact absurd (h ▸ List.mem_append_right y List.mem_cons_self) (hd.notMem hc)
  | @group n m ns d s x hn hd hs hx ih =>
      obtain ⟨w, rfl, hw⟩ := split_notMem (hd.notMem hc) h
      rcases hs.split hw with rfl | ⟨v, hv⟩
      · exact ⟨1, Nat.one_pos, by simp, hx⟩
      · obtain ⟨j, hj, hlt, hrest⟩ := ih hv
        exact ⟨j + 1, Nat.succ_pos j, Nat.succ_lt_succ hlt, hrest⟩

end DigitGroups
