import Mathlib.Data.List.Basic

/-! # Condition variables — who sleeps and who has been woken

    The waiters of a condition variable, in the order in which they went to
    sleep.  `notify` wakes the first one that sleeps; a waiter that is
    cancelled no longer sleeps, and one that is cancelled after it was woken
    passes nothing on.  All the operations change one waiter, so the rules
    below say what one change does to the numbers of sleeping and of woken
    ones. -/

namespace ConditionQueue

variable {ι : Type*}

/-- A task that waits: whether it has been notified, and whether it has been
    cancelled and is to raise when it resumes. -/
structure Waiter (ι : Type*) where
  task : ι
  notified : Bool := false
  cancelled : Bool := false
  deriving DecidableEq, Repr

def Waiter.asleep (w : Waiter ι) : Bool := !w.notified && !w.cancelled

def Waiter.woken (w : Waiter ι) : Bool := w.notified && !w.cancelled

/-- The waiter is to run again, to go on or to raise. -/
def Waiter.due (w : Waiter ι) : Bool := w.notified || w.cancelled

theorem Waiter.asleep_eq (w : Waiter ι) : w.asleep = !w.due := by
  rw [asleep, due, Bool.not_or]

theorem Waiter.woken_eq (w : Waiter ι) : w.woken = (w.due && !w.cancelled) := by
  rw [woken, due]
  cases w.notified <;> cases w.cancelled <;> rfl

/-- The first item that meets `p`, changed by `f`. -/
def changeFirst {α : Type*} (p : α → Bool) (f : α → α) : List α → List α
  | [] => []
  | x :: xs => if p x then f x :: xs else x :: changeFirst p f xs

/-- `notify()`. -/
def notify : List (Waiter ι) → List (Waiter ι) :=
  changeFirst Waiter.asleep fun w => { w with notified := true }

section Tasks

variable [DecidableEq ι]

def waiterOf (t : ι) (ws : List (Waiter ι)) : Option (Waiter ι) := ws.find? fun w => w.task = t

/-- The wait of a task is cancelled. -/
def cancel (t : ι) : List (Waiter ι) → List (Waiter ι) :=
  changeFirst (fun w => w.task = t) fun w => { w with cancelled := true }

/-- A task that resumes is no longer a waiter. -/
def depart (t : ι) (ws : List (Waiter ι)) : List (Waiter ι) := ws.eraseP fun w => w.task = t

end Tasks

/-! ## One change -/

section Change

variable {α : Type*} {p : α → Bool} {f : α → α} {xs : List α}

theorem changeFirst_of_none (h : ∀ x ∈ xs, p x = false) : changeFirst p f xs = xs := by
  induction xs with
  | nil => rfl
  | cons x xs ih =>
      rw [changeFirst, h x List.mem_cons_self, if_neg Bool.false_ne_true,
        ih fun y hy => h y (List.mem_cons_of_mem x hy)]

theorem changeFirst_append {before after : List α} {x : α} (hbefore : ∀ y ∈ before, p y = false)
    (hx : p x = true) : changeFirst p f (before ++ x :: after) = before ++ f x :: after := by
  induction before with
  | nil => rw [List.nil_append, changeFirst, if_pos hx, List.nil_append]
  | cons y before ih =>
      rw [List.cons_append, changeFirst, hbefore y List.mem_cons_self,
        if_neg Bool.false_ne_true, ih fun z hz => hbefore z (List.mem_cons_of_mem y hz),
        List.cons_append]

/-- Where the change takes place. -/
theorem changeFirst_of_exists (h : ∃ x ∈ xs, p x = true) :
    ∃ before x after, xs = before ++ x :: after ∧ p x = true ∧
      changeFirst p f xs = before ++ f x :: after := by
  obtain ⟨x, hfind⟩ := Option.isSome_iff_exists.mp (List.find?_isSome.mpr h)
  obtain ⟨hx, before, after, rfl, hbefore⟩ := List.find?_eq_some_iff_append.mp hfind
  refine ⟨before, x, after, rfl, hx, changeFirst_append (fun y hy => ?_) hx⟩
  exact Bool.not_eq_true' _ ▸ hbefore y hy

theorem length_changeFirst : (changeFirst p f xs).length = xs.length := by
  by_cases h : ∃ x ∈ xs, p x = true
  · obtain ⟨before, x, after, rfl, -, hchange⟩ := changeFirst_of_exists (f := f) h
    rw [hchange, List.length_append, List.length_append, List.length_cons, List.length_cons]
  · have hnone : ∀ x ∈ xs, p x = false := fun x hx =>
      Bool.eq_false_iff.mpr fun hp => h ⟨x, hx, hp⟩
    rw [changeFirst_of_none hnone]

end Change

/-! ## The numbers of sleeping and of woken waiters -/

/-- Somebody sleeps. -/
def Sleeping (ws : List (Waiter ι)) : Prop := ∃ w ∈ ws, w.asleep = true

instance (ws : List (Waiter ι)) : Decidable (Sleeping ws) :=
  inferInstanceAs (Decidable (∃ w ∈ ws, w.asleep = true))

/-- How many have been woken and are to go on. -/
def wokenCount (ws : List (Waiter ι)) : Nat := ws.countP Waiter.woken

theorem exists_woken {ws : List (Waiter ι)} (h : 0 < wokenCount ws) :
    ∃ w ∈ ws, w.woken = true := by
  rwa [wokenCount, List.countP_pos_iff] at h

theorem sleeping_append {ws vs : List (Waiter ι)} :
    Sleeping (ws ++ vs) ↔ Sleeping ws ∨ Sleeping vs := by
  simp only [Sleeping, List.mem_append, or_and_right, exists_or]

theorem wokenCount_append (ws vs : List (Waiter ι)) :
    wokenCount (ws ++ vs) = wokenCount ws + wokenCount vs := List.countP_append

theorem wokenCount_cons (w : Waiter ι) (ws : List (Waiter ι)) :
    wokenCount (w :: ws) = wokenCount ws + if w.woken = true then 1 else 0 := List.countP_cons ..

theorem sleeping_cons {w : Waiter ι} {ws : List (Waiter ι)} :
    Sleeping (w :: ws) ↔ w.asleep = true ∨ Sleeping ws := by
  simp only [Sleeping, List.mem_cons, or_and_right, exists_or, exists_eq_left]

/-- **A NOTIFICATION** wakes one sleeping waiter, if there is one. -/
theorem wokenCount_notify {ws : List (Waiter ι)} (h : Sleeping ws) :
    wokenCount (notify ws) = wokenCount ws + 1 := by
  obtain ⟨before, w, after, rfl, hw, hchange⟩ := changeFirst_of_exists h
  have hawake : w.woken = false := by
    rw [Waiter.asleep, Bool.and_eq_true, Bool.not_eq_true'] at hw
    rw [Waiter.woken, hw.1, Bool.false_and]
  have hwakes : Waiter.woken { w with notified := true } = true := by
    rw [Waiter.asleep, Bool.and_eq_true] at hw
    rw [Waiter.woken, Bool.true_and, hw.2]
  rw [notify, hchange, wokenCount_append, wokenCount_append, wokenCount_cons, wokenCount_cons,
    hawake, hwakes, if_pos rfl, if_neg Bool.false_ne_true]
  omega

theorem notify_of_not_sleeping {ws : List (Waiter ι)} (h : ¬ Sleeping ws) : notify ws = ws :=
  changeFirst_of_none fun w hw => Bool.eq_false_iff.mpr fun hp => h ⟨w, hw, hp⟩

theorem length_notify (ws : List (Waiter ι)) : (notify ws).length = ws.length :=
  length_changeFirst

section Tasks

variable [DecidableEq ι] {t : ι} {ws : List (Waiter ι)} {w : Waiter ι}

theorem length_cancel (t : ι) (ws : List (Waiter ι)) : (cancel t ws).length = ws.length :=
  length_changeFirst

theorem cancel_of_none (h : waiterOf t ws = none) : cancel t ws = ws :=
  changeFirst_of_none fun w hw => by
    have hne := List.find?_eq_none.mp h w hw
    rwa [Bool.not_eq_true] at hne

/-- The waiter of a task is where a cancellation and a departure strike. -/
theorem split_of_waiterOf (h : waiterOf t ws = some w) :
    ∃ before after, ws = before ++ w :: after ∧ depart t ws = before ++ after ∧
      cancel t ws = before ++ { w with cancelled := true } :: after := by
  obtain ⟨hw, before, after, rfl, hbefore⟩ := List.find?_eq_some_iff_append.mp h
  have hnone : ∀ v ∈ before, decide (v.task = t) = false := fun v hv => by
    have := hbefore v hv
    rwa [Bool.not_eq_true'] at this
  refine ⟨before, after, rfl, ?_, changeFirst_append hnone hw⟩
  rw [depart, List.eraseP_append_right _ fun v hv => Bool.not_eq_true _ ▸ hnone v hv,
    List.eraseP_cons_of_pos (by exact hw)]

theorem length_depart (h : waiterOf t ws = some w) : (depart t ws).length + 1 = ws.length := by
  obtain ⟨before, after, rfl, hdepart, -⟩ := split_of_waiterOf h
  rw [hdepart, List.length_append, List.length_append, List.length_cons]
  omega

/-- **A DEPARTURE** of a waiter that does not sleep. -/
theorem counts_depart (h : waiterOf t ws = some w) (hdue : w.due = true) :
    (Sleeping (depart t ws) ↔ Sleeping ws) ∧
      wokenCount ws = wokenCount (depart t ws) + if w.woken = true then 1 else 0 := by
  obtain ⟨before, after, rfl, hdepart, -⟩ := split_of_waiterOf h
  have hasleep : w.asleep = false := by rw [Waiter.asleep_eq, hdue, Bool.not_true]
  rw [hdepart]
  constructor
  · rw [sleeping_append, sleeping_append, sleeping_cons, hasleep]
    simp only [Bool.false_eq_true, false_or]
  · rw [wokenCount_append, wokenCount_append, wokenCount_cons, Nat.add_assoc]

/-- **A CANCELLATION** puts one waiter out of both counts. -/
theorem counts_cancel (h : waiterOf t ws = some w) :
    (Sleeping (cancel t ws) → Sleeping ws) ∧
      wokenCount ws = wokenCount (cancel t ws) + if w.woken = true then 1 else 0 := by
  obtain ⟨before, after, rfl, -, hcancel⟩ := split_of_waiterOf h
  have hasleep : Waiter.asleep { w with cancelled := true } = false := by
    rw [Waiter.asleep, Bool.not_true, Bool.and_false]
  have hwoken : Waiter.woken { w with cancelled := true } = false := by
    rw [Waiter.woken, Bool.not_true, Bool.and_false]
  rw [hcancel]
  constructor
  · rw [sleeping_append, sleeping_append, sleeping_cons, sleeping_cons, hasleep]
    simp only [Bool.false_eq_true, false_or]
    exact Or.imp_right Or.inr
  · rw [wokenCount_append, wokenCount_append, wokenCount_cons, wokenCount_cons, hwoken,
      if_neg Bool.false_ne_true, Nat.add_zero, Nat.add_assoc]

end Tasks

/-! ## The queue in order -/

/-- The tasks that wait on, in the order of the queue; one whose wait has been
    cancelled has left. -/
def standing (ws : List (Waiter ι)) : List ι :=
  (ws.filter fun w => !w.cancelled).map Waiter.task

theorem standing_append (ws vs : List (Waiter ι)) :
    standing (ws ++ vs) = standing ws ++ standing vs := by
  rw [standing, List.filter_append, List.map_append]
  rfl

theorem standing_cons (w : Waiter ι) (ws : List (Waiter ι)) :
    standing (w :: ws) = if w.cancelled then standing ws else w.task :: standing ws := by
  cases h : w.cancelled with
  | true => rw [standing, List.filter_cons_of_neg (by simp [h]), if_pos rfl, standing]
  | false =>
      rw [standing, List.filter_cons_of_pos (by simp [h]), if_neg Bool.false_ne_true,
        List.map_cons, standing]

theorem standing_sublist (ws : List (Waiter ι)) : (standing ws).Sublist (ws.map Waiter.task) :=
  List.filter_sublist.map _

theorem standing_notify (ws : List (Waiter ι)) : standing (notify ws) = standing ws := by
  by_cases h : Sleeping ws
  · obtain ⟨before, w, after, rfl, -, hchange⟩ :=
      changeFirst_of_exists (f := fun w : Waiter ι => { w with notified := true }) h
    rw [notify, hchange, standing_append, standing_append, standing_cons, standing_cons]
  · rw [notify_of_not_sleeping h]

theorem tasks_notify (ws : List (Waiter ι)) :
    (notify ws).map Waiter.task = ws.map Waiter.task := by
  by_cases h : Sleeping ws
  · obtain ⟨before, w, after, rfl, -, hchange⟩ :=
      changeFirst_of_exists (f := fun w : Waiter ι => { w with notified := true }) h
    rw [notify, hchange, List.map_append, List.map_append, List.map_cons, List.map_cons]
  · rw [notify_of_not_sleeping h]

section Tasks

variable [DecidableEq ι] {t : ι} {ws : List (Waiter ι)} {w : Waiter ι}

theorem not_mem_standing (h : waiterOf t ws = none) : t ∉ standing ws := by
  intro hmem
  obtain ⟨w, hw, rfl⟩ := List.mem_map.mp hmem
  have hne := List.find?_eq_none.mp h w (List.mem_of_mem_filter hw)
  exact hne (decide_eq_true rfl)

theorem not_mem_tasks (h : waiterOf t ws = none) : t ∉ ws.map Waiter.task := by
  intro hmem
  obtain ⟨w, hw, rfl⟩ := List.mem_map.mp hmem
  exact List.find?_eq_none.mp h w hw (decide_eq_true rfl)

theorem tasks_depart (t : ι) (ws : List (Waiter ι)) :
    ((depart t ws).map Waiter.task).Sublist (ws.map Waiter.task) :=
  List.eraseP_sublist.map _

theorem tasks_cancel (h : waiterOf t ws = some w) :
    (cancel t ws).map Waiter.task = ws.map Waiter.task := by
  obtain ⟨before, after, rfl, -, hcancel⟩ := split_of_waiterOf h
  rw [hcancel, List.map_append, List.map_append, List.map_cons, List.map_cons]

theorem standing_depart (t : ι) (ws : List (Waiter ι)) :
    (standing (depart t ws)).Sublist (standing ws) :=
  (List.eraseP_sublist.filter _).map _

theorem standing_cancel (h : waiterOf t ws = some w) :
    (standing (cancel t ws)).Sublist (standing ws) := by
  obtain ⟨before, after, rfl, -, hcancel⟩ := split_of_waiterOf h
  rw [hcancel, standing_append, standing_append, standing_cons, standing_cons, if_pos rfl]
  refine List.Sublist.append_left ?_ _
  split
  · exact List.Sublist.refl _
  · exact List.sublist_cons_self _ _

end Tasks

/-! ## The order of arrival -/

section Arrival

variable [DecidableEq ι]

/-- Who was there keeps the place; who is new stands behind. -/
def keepOrder (line queued : List ι) : List ι :=
  line.filter (· ∈ queued) ++ queued.filter (· ∉ line)

theorem mem_keepOrder {line queued : List ι} {a : ι} :
    a ∈ keepOrder line queued ↔ a ∈ queued := by
  rw [keepOrder, List.mem_append, List.mem_filter, List.mem_filter, decide_eq_true_eq,
    decide_eq_true_eq]
  constructor
  · rintro (⟨-, hmem⟩ | ⟨hmem, -⟩)
    · exact hmem
    · exact hmem
  · intro hmem
    by_cases hold : a ∈ line
    · exact Or.inl ⟨hold, hmem⟩
    · exact Or.inr ⟨hmem, hold⟩

/-- Where some have left, the others keep their order. -/
theorem keepOrder_of_sublist {line queued : List ι} (h : queued.Sublist line)
    (hnodup : line.Nodup) : keepOrder line queued = queued := by
  have hold : queued.filter (· ∉ line) = [] := by
    refine List.filter_eq_nil_iff.mpr fun a ha => ?_
    rw [decide_eq_true_eq, not_not]
    exact h.subset ha
  rw [keepOrder, hold, List.append_nil]
  induction h with
  | slnil => rfl
  | @cons queued line a hsub ih =>
      obtain ⟨hout, hrest⟩ := List.nodup_cons.mp hnodup
      have hleft : a ∉ queued := fun hmem => hout (hsub.subset hmem)
      rw [List.filter_cons_of_neg (by simpa using hleft)]
      exact ih hrest (List.filter_eq_nil_iff.mpr fun b hb => by simpa using hsub.subset hb)
  | @cons_cons queued line a hsub ih =>
      obtain ⟨hout, hrest⟩ := List.nodup_cons.mp hnodup
      rw [List.filter_cons_of_pos (by simp)]
      have hsame : line.filter (· ∈ a :: queued) = line.filter (· ∈ queued) := by
        refine List.filter_congr fun b hb => ?_
        have hne : b ≠ a := fun heq => hout (heq ▸ hb)
        simp [hne]
      rw [hsame, ih hrest (List.filter_eq_nil_iff.mpr fun b hb => by simpa using hsub.subset hb)]

/-- A newcomer stands behind all others. -/
theorem keepOrder_concat {line : List ι} {a : ι} (h : a ∉ line) :
    keepOrder line (line ++ [a]) = line ++ [a] := by
  have hkept : line.filter (· ∈ line ++ [a]) = line :=
    List.filter_eq_self.mpr fun b hb => decide_eq_true (List.mem_append_left _ hb)
  have hnew : (line ++ [a]).filter (· ∉ line) = [a] := by
    rw [List.filter_append, List.filter_cons_of_pos (by simpa using h), List.filter_nil,
      List.filter_eq_nil_iff.mpr fun b hb => by simpa using hb, List.nil_append]
  rw [keepOrder, hkept, hnew]

end Arrival

end ConditionQueue
