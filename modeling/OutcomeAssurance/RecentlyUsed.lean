import Mathlib.Data.List.Dedup
import Mathlib.Data.List.DropRight

/-! # Recently used — elements by their last use, and the bounded store of them

    The distinct elements of a history stand in the order of their last use.  A
    store that moves an element to the end when it is used, and drops its first
    element when it gets too long, holds the last of them.  An element that
    stays in the store from use to use is used in a row. -/

namespace RecentlyUsed

variable {α : Type*} [DecidableEq α]

/-- The element moved behind the others. -/
def touch (l : List α) (a : α) : List α := l.filter (· ≠ a) ++ [a]

/-- The first element dropped where there are more than `m`. -/
def trim (m : ℕ) (l : List α) : List α := if m < l.length then l.tail else l

/-- The last `m` distinct elements of a history, in the order of their last
    use; `List.dedup` keeps the last of equal elements. -/
def recent (m : ℕ) (history : List α) : List α := history.dedup.rtake m

variable {l history : List α} {a : α} {m : ℕ}

/-! ## One more use -/

theorem length_touch_of_mem (h : l.Nodup) (ha : a ∈ l) : (touch l a).length = l.length := by
  have hfilter : l.filter (· ≠ a) = l.erase a := by
    rw [h.erase_eq_filter]
    simp only [bne, beq_eq_decide, decide_not]
  have hpos : 0 < l.length := List.length_pos_of_mem ha
  rw [touch, hfilter, List.length_append, List.length_erase_of_mem ha, List.length_singleton]
  omega

theorem length_touch_of_notMem (ha : a ∉ l) : (touch l a).length = l.length + 1 := by
  have hfilter : l.filter (· ≠ a) = l := by
    refine List.filter_eq_self.mpr fun b hb => decide_eq_true ?_
    rintro rfl
    exact ha hb
  rw [touch, hfilter, List.length_append, List.length_singleton]

theorem length_touch_le (l : List α) (a : α) : (touch l a).length ≤ l.length + 1 := by
  have hfilter := List.length_filter_le (· ≠ a) l
  rw [touch, List.length_append, List.length_singleton]
  omega

/-- **ONE MORE USE** moves the element behind the others. -/
theorem dedup_concat (history : List α) (a : α) :
    (history ++ [a]).dedup = touch history.dedup a := by
  induction history with
  | nil => rfl
  | cons b history ih =>
      rw [List.cons_append, List.dedup_cons, List.dedup_cons, ih]
      by_cases hmem : b ∈ history
      · rw [if_pos hmem, if_pos (List.mem_append_left _ hmem)]
      · rw [if_neg hmem]
        by_cases heq : b = a
        · obtain rfl := heq
          rw [if_pos (List.mem_append_right _ (List.mem_singleton_self b)), touch, touch,
            List.filter_cons_of_neg (by simp)]
        · have hout : b ∉ history ++ [a] := by
            rw [List.mem_append, List.mem_singleton]
            exact not_or.mpr ⟨hmem, heq⟩
          rw [if_neg hout, touch, touch, List.filter_cons_of_pos (by simpa using heq),
            List.cons_append]

/-! ## The bounded store -/

omit [DecidableEq α] in
theorem rtake_eq_trim (h : l.length ≤ m + 1) : l.rtake m = trim m l := by
  rw [List.rtake, trim]
  by_cases hlong : m < l.length
  · rw [if_pos hlong, show l.length - m = 1 by omega, List.drop_one]
  · rw [if_neg hlong, show l.length - m = 0 by omega, List.drop_zero]

omit [DecidableEq α] in
theorem trim_subset : trim m l ⊆ l := by
  rw [trim]
  split
  · exact (List.tail_suffix l).subset
  · exact List.Subset.refl l

omit [DecidableEq α] in
theorem length_trim_le (h : l.length ≤ m + 1) : (trim m l).length ≤ m := by
  rw [trim]
  split
  · rw [List.length_tail]
    omega
  · omega

omit [DecidableEq α] in
theorem rtake_append_of_le {l₁ l₂ : List α} (h : m ≤ l₂.length) :
    (l₁ ++ l₂).rtake m = l₂.rtake m := by
  rw [List.rtake, List.rtake, List.length_append, Nat.add_sub_assoc h, List.drop_append,
    List.drop_of_length_le (Nat.le_add_right _ _), List.nil_append, Nat.add_sub_cancel_left]

theorem length_recent : (recent m history).length = min m history.dedup.length := by
  rw [recent, List.rtake, List.length_drop]
  omega

theorem nodup_recent (m : ℕ) (history : List α) : (recent m history).Nodup :=
  (List.nodup_dedup history).sublist (List.drop_sublist _ _)

/-- **THE STORE** after one more use: the element at the end, the first one gone
    if there are too many. -/
theorem recent_concat (m : ℕ) (history : List α) (a : α) :
    recent m (history ++ [a]) = trim m (touch (recent m history) a) := by
  have hsplit : history.dedup
      = history.dedup.take (history.dedup.length - m) ++ recent m history :=
    (List.take_append_drop _ _).symm
  have hshort : (recent m history).length ≤ m := by
    rw [length_recent]
    exact min_le_left _ _
  have hnodup := nodup_recent m history
  have hlength : (recent m history).length ≤ (touch (recent m history) a).length
      ∧ (touch (recent m history) a).length ≤ m + 1 := by
    by_cases ha : a ∈ recent m history
    · rw [length_touch_of_mem hnodup ha]
      omega
    · rw [length_touch_of_notMem ha]
      omega
  rw [← rtake_eq_trim hlength.2]
  by_cases hfits : history.dedup.length ≤ m
  · have hall : recent m history = history.dedup := by
      rw [recent, List.rtake, Nat.sub_eq_zero_of_le hfits, List.drop_zero]
    rw [hall, recent, dedup_concat]
  · have hfull : (recent m history).length = m := by
      rw [length_recent]
      omega
    rw [recent, dedup_concat, touch, hsplit, List.filter_append, List.append_assoc]
    exact rtake_append_of_le (hfull.symm.trans_le hlength.1)

/-- **HOW LONG AN ELEMENT STAYS**: until `m` other elements have been used. -/
theorem mem_recent_iff {before after : List α} (ha : a ∉ after) :
    a ∈ recent m (before ++ a :: after) ↔ after.dedup.length < m := by
  obtain ⟨older, hdedup⟩ := List.suffix_union_right before (a :: after).dedup
  rw [← List.dedup_append, List.dedup_cons_of_notMem ha] at hdedup
  have hout : a ∉ after.dedup := fun h => ha (List.mem_dedup.mp h)
  rw [recent, ← hdedup]
  by_cases hlong : m ≤ after.dedup.length
  · rw [List.append_cons, rtake_append_of_le hlong]
    refine iff_of_false (fun hmem => ?_) (by omega)
    exact hout (List.mem_of_mem_drop hmem)
  · refine iff_of_true ?_ (by omega)
    rw [List.rtake, List.drop_append_of_le_length]
    · exact List.mem_append_right _ List.mem_cons_self
    · rw [List.length_append, List.length_cons]
      omega

/-! ## Uses in a row -/

/-- Between two uses of `a` there are fewer than `m` other elements. -/
def Unbroken (m : ℕ) (a : α) (row : List α) : Prop :=
  ∀ gap, a ∉ gap → a :: gap ++ [a] <:+: row → gap.dedup.length < m

/-- The uses of `a` since it last came into the store, the history given from
    its end. -/
def usesBack (m : ℕ) (a : α) : List α → ℕ
  | [] => 0
  | b :: older =>
      if b = a then (if a ∈ recent m older.reverse then usesBack m a older else 0) + 1
      else usesBack m a older

/-- The uses of `a` since it last came into the store. -/
def uses (m : ℕ) (a : α) (history : List α) : ℕ := usesBack m a history.reverse

theorem uses_concat (m : ℕ) (a : α) (history : List α) (b : α) :
    uses m a (history ++ [b]) =
      if b = a then (if a ∈ recent m history then uses m a history else 0) + 1
      else uses m a history := by
  rw [uses, List.reverse_append, List.reverse_singleton, List.singleton_append, usesBack,
    List.reverse_reverse]
  rfl

omit [DecidableEq α] in
/-- What stands behind a list that ends in `b`, and ends in `b` itself. -/
theorem suffix_of_concat_suffix {row : List α} {b : α} (h : row ++ [b] <:+ history ++ [b]) :
    row <:+ history := by
  obtain ⟨older, heq⟩ := h
  rw [← List.append_assoc] at heq
  exact ⟨older, List.append_cancel_right heq⟩

omit [DecidableEq α] in
/-- A list inside one that has been continued ends in the new element, or was
    inside before. -/
theorem infix_concat {part row : List α} {b : α} (h : part <:+: row ++ [b]) :
    part <:+ row ++ [b] ∨ part <:+: row := by
  obtain ⟨older, newer, heq⟩ := h
  rcases List.eq_nil_or_concat' newer with rfl | ⟨newer, c, rfl⟩
  · rw [List.append_nil] at heq
    exact Or.inl ⟨older, heq⟩
  · rw [← List.append_assoc] at heq
    exact Or.inr ⟨older, newer, (List.append_inj' heq rfl).1⟩

theorem Unbroken.of_infix {row part : List α} (h : Unbroken m a row) (hpart : part <:+: row) :
    Unbroken m a part := fun gap hgap hin => h gap hgap (hin.trans hpart)

omit [DecidableEq α] in
/-- The last use of an element. -/
theorem exists_last_use (ha : a ∈ l) : ∃ before after, l = before ++ a :: after ∧ a ∉ after := by
  obtain ⟨after, before, heq, hout⟩ := List.eq_append_cons_of_mem (List.mem_reverse.mpr ha)
  refine ⟨before.reverse, after.reverse, ?_, fun hmem => hout (List.mem_reverse.mp hmem)⟩
  rw [← List.reverse_reverse l, heq, List.reverse_append, List.reverse_cons, List.append_assoc]
  rfl

/-- **A ROW IS COUNTED**: no unbroken row at the end of a history has more uses
    than the store has seen since. -/
theorem count_le_uses {row : List α} (hrow : row <:+ history) (h : Unbroken m a row) :
    row.count a ≤ uses m a history := by
  induction history using List.reverseRecOn generalizing row with
  | nil =>
      rw [List.suffix_nil.mp hrow]
      exact Nat.zero_le _
  | append_singleton history b ih =>
      rcases List.eq_nil_or_concat' row with rfl | ⟨row, c, rfl⟩
      · exact Nat.zero_le _
      obtain rfl : c = b := by
        obtain ⟨older, heq⟩ := hrow
        rw [← List.append_assoc] at heq
        exact List.singleton_injective (List.append_inj' heq rfl).2
      have hsuffix := suffix_of_concat_suffix hrow
      have hcount := ih hsuffix (h.of_infix (List.prefix_append _ _).isInfix)
      rw [uses_concat, List.count_append, List.count_singleton]
      by_cases hc : c = a
      · obtain rfl := hc
        rw [if_pos rfl, beq_self_eq_true, if_pos rfl]
        by_cases hrecent : c ∈ recent m history
        · rw [if_pos hrecent]
          omega
        · -- a use of it in the row would have kept it in the store
          have hout : c ∉ row := by
            intro hmem
            obtain ⟨before, gap, rfl, hgap⟩ := exists_last_use hmem
            obtain ⟨older, rfl⟩ := hsuffix
            refine hrecent ?_
            rw [← List.append_assoc, mem_recent_iff hgap]
            refine h gap hgap ⟨before, [], ?_⟩
            simp only [List.append_assoc, List.cons_append, List.append_nil]
          rw [List.count_eq_zero.mpr hout]
          omega
      · rw [if_neg hc, if_neg (by simpa using hc)]
        exact hcount

/-- **SOME ROW IS AS LONG**: the uses since an element came in are a row. -/
theorem exists_row (m : ℕ) (a : α) (history : List α) :
    ∃ row, row <:+ history ∧ Unbroken m a row ∧ row.count a = uses m a history := by
  induction history using List.reverseRecOn with
  | nil =>
      refine ⟨[], List.suffix_rfl, fun gap _ hin => ?_, rfl⟩
      cases List.eq_nil_of_infix_nil hin
  | append_singleton history b ih =>
      obtain ⟨row, ⟨older, rfl⟩, hunbroken, hcount⟩ := ih
      rw [uses_concat]
      by_cases hb : b = a
      · obtain rfl := hb
        rw [if_pos rfl]
        by_cases hrecent : b ∈ recent m (older ++ row)
        · refine ⟨row ++ [b], ⟨older, (List.append_assoc ..).symm⟩, fun gap hgap hin => ?_, ?_⟩
          · rcases infix_concat hin with hends | hinside
            · -- the gap behind the last use
              obtain ⟨newer, hgaps⟩ := suffix_of_concat_suffix hends
              rw [← hgaps, ← List.append_assoc] at hrecent
              exact (mem_recent_iff hgap).mp hrecent
            · exact hunbroken gap hgap hinside
          · rw [if_pos hrecent, List.count_append, List.count_singleton_self, hcount]
        · refine ⟨[b], List.suffix_append _ _, fun gap hgap hin => ?_, ?_⟩
          · have hlength := hin.length_le
            rw [List.length_append, List.length_cons, List.length_singleton] at hlength
            omega
          · rw [if_neg hrecent, List.count_singleton_self]
      · refine ⟨row ++ [b], ⟨older, (List.append_assoc ..).symm⟩, fun gap hgap hin => ?_, ?_⟩
        · rcases infix_concat hin with ⟨newer, hends⟩ | hinside
          · rw [← List.append_assoc] at hends
            exact absurd (List.singleton_injective (List.append_inj' hends rfl).2).symm hb
          · exact hunbroken gap hgap hinside
        · rw [if_neg hb, List.count_append, List.count_singleton, if_neg (by simpa using hb),
              hcount]
          rfl

/-- No element has more than `n` uses in a row. -/
def Spaced (m n : ℕ) (history : List α) : Prop :=
  ∀ a row, row <:+: history → Unbroken m a row → row.count a ≤ n

/-- **ROWS, ONE USE AFTER THE OTHER**: no row is too long exactly when no use is
    one too many. -/
theorem spaced_iff {n : ℕ} : Spaced m n history ↔
    ∀ before a after, history = before ++ a :: after → uses m a (before ++ [a]) ≤ n := by
  constructor
  · rintro h before a after rfl
    obtain ⟨row, hrow, hunbroken, hcount⟩ := exists_row m a (before ++ [a])
    rw [← hcount]
    refine h a row (hrow.isInfix.trans (List.IsPrefix.isInfix ⟨after, ?_⟩)) hunbroken
    rw [List.append_assoc]
    rfl
  · rintro h a row ⟨older, newer, rfl⟩ hunbroken
    by_cases ha : a ∈ row
    · obtain ⟨before, after, rfl, hout⟩ := exists_last_use ha
      have huses := h (older ++ before) a (after ++ newer)
        (by simp only [List.append_assoc, List.cons_append])
      have hpart : before ++ [a] <:+: before ++ a :: after :=
        List.IsPrefix.isInfix ⟨after, by rw [List.append_assoc]; rfl⟩
      have hcount : (before ++ [a]).count a ≤ uses m a (older ++ before ++ [a]) :=
        count_le_uses ⟨older, (List.append_assoc ..).symm⟩ (hunbroken.of_infix hpart)
      rw [List.count_append, List.count_cons_self, List.count_eq_zero.mpr hout]
      rw [List.count_append, List.count_singleton_self] at hcount
      exact hcount.trans huses
    · rw [List.count_eq_zero.mpr ha]
      exact Nat.zero_le n

end RecentlyUsed
