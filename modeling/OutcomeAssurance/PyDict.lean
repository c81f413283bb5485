import Mathlib.Data.List.Nodup
import Mathlib.Data.List.Induction

/-! # Python dictionaries

    A `dict` is its items in insertion order, no key twice.  Assigning to a
    stored key keeps the key's place; a comprehension assigns its pairs one
    after the other, so of two pairs with one key the later one stays. -/

namespace PyDict

universe u v

/-- Items in insertion order, with distinct keys. -/
structure Dict (κ : Type u) (ν : Type v) where
  items : List (κ × ν)
  nodup : (items.map Prod.fst).Nodup

variable {κ : Type u} {ν : Type v}

/-- `{}`. -/
def Dict.empty : Dict κ ν := ⟨[], List.nodup_nil⟩

instance : EmptyCollection (Dict κ ν) := ⟨Dict.empty⟩

/-- `d.values()`. -/
def Dict.values (d : Dict κ ν) : List ν := d.items.map Prod.snd

variable [DecidableEq κ]

/-! ## Assignment -/

/-- The items after `d[k] = v`. -/
def put : List (κ × ν) → κ → ν → List (κ × ν)
  | [], k, v => [(k, v)]
  | (k', v') :: rest, k, v => if k' = k then (k', v) :: rest else (k', v') :: put rest k v

theorem mem_keys_put {items : List (κ × ν)} {k a : κ} {v : ν}
    (h : a ∈ (put items k v).map Prod.fst) : a = k ∨ a ∈ items.map Prod.fst := by
  induction items with
  | nil =>
      left
      simpa [put] using h
  | cons p rest ih =>
      rw [put] at h
      split at h
      · right
        exact h
      · rcases List.mem_cons.mp h with rfl | hrest
        · right
          exact List.mem_cons_self
        · rcases ih hrest with heq | hmem
          · exact Or.inl heq
          · exact Or.inr (List.mem_cons_of_mem _ hmem)

/-- A key that is not stored is put behind the others. -/
theorem put_of_notMem {items : List (κ × ν)} {k : κ} (h : k ∉ items.map Prod.fst) (v : ν) :
    put items k v = items ++ [(k, v)] := by
  induction items with
  | nil => rfl
  | cons p rest ih =>
      rw [List.map_cons, List.mem_cons, not_or] at h
      rw [put, if_neg (Ne.symm h.1), ih h.2, List.cons_append]

theorem nodup_put {items : List (κ × ν)} (h : (items.map Prod.fst).Nodup) (k : κ) (v : ν) :
    ((put items k v).map Prod.fst).Nodup := by
  induction items with
  | nil => exact List.nodup_singleton k
  | cons p rest ih =>
      obtain ⟨hp, hrest⟩ := List.nodup_cons.mp h
      rw [put]
      split
      · exact h
      · next hne =>
          refine List.nodup_cons.mpr ⟨?_, ih hrest⟩
          intro hmem
          rcases mem_keys_put hmem with heq | hmem'
          · exact hne heq
          · exact hp hmem'

/-- `d[k] = v`. -/
def Dict.set (d : Dict κ ν) (k : κ) (v : ν) : Dict κ ν :=
  ⟨put d.items k v, nodup_put d.nodup k v⟩

/-! ## Lookup -/

/-- `d.get(k)`. -/
def Dict.get (d : Dict κ ν) (k : κ) : Option ν :=
  (d.items.find? (fun p => p.1 = k)).map Prod.snd

/-- `k in d`. -/
def Dict.has (d : Dict κ ν) (k : κ) : Bool := (d.get k).isSome

@[simp] theorem Dict.get_empty (k : κ) : (∅ : Dict κ ν).get k = none := rfl

theorem Dict.get_set (d : Dict κ ν) (k : κ) (v : ν) (a : κ) :
    (d.set k v).get a = if a = k then some v else d.get a := by
  show ((put d.items k v).find? _).map _ = _
  rw [Dict.get]
  induction d.items with
  | nil =>
      by_cases h : a = k
      · simp [put, h]
      · simp [put, h, Ne.symm h]
  | cons p rest ih =>
      rw [put]
      by_cases hp : p.1 = k
      · rw [if_pos hp]
        by_cases ha : a = k
        · simp [ha, hp]
        · have hne : p.1 ≠ a := fun h => ha (h.symm.trans hp)
          simp [ha, hne]
      · rw [if_neg hp]
        by_cases ha : p.1 = a
        · have hne : a ≠ k := fun h => hp (ha.trans h)
          simp [ha, hne]
        · simpa [ha] using ih

theorem Dict.mem_items {d : Dict κ ν} {k : κ} {v : ν} :
    (k, v) ∈ d.items ↔ d.get k = some v := by
  obtain ⟨items, hnodup⟩ := d
  show _ ↔ (items.find? _).map _ = _
  induction items with
  | nil => simp
  | cons p rest ih =>
      obtain ⟨hp, hrest⟩ := List.nodup_cons.mp hnodup
      by_cases hk : p.1 = k
      · have hout : (k, v) ∉ rest := by
          intro hmem
          exact hp (hk ▸ List.mem_map.mpr ⟨(k, v), hmem, rfl⟩)
        simp [hk, hout, Prod.ext_iff, eq_comm]
      · have hne : (k, v) ≠ p := fun h => hk (by rw [← h])
        simpa [hk, hne] using ih hrest

/-- A value of the dictionary is stored under some key. -/
theorem Dict.mem_values {d : Dict κ ν} {v : ν} :
    v ∈ d.values ↔ ∃ k, d.get k = some v := by
  rw [Dict.values, List.mem_map]
  constructor
  · rintro ⟨⟨k, v'⟩, hmem, rfl⟩
    exact ⟨k, Dict.mem_items.mp hmem⟩
  · rintro ⟨k, h⟩
    exact ⟨(k, v), Dict.mem_items.mpr h, rfl⟩

/-! ## Taking items out -/

/-- `d` after `d.pop(k, ...)`. -/
def Dict.pop (d : Dict κ ν) (k : κ) : Dict κ ν :=
  ⟨d.items.filter fun p => p.1 ≠ k, d.nodup.sublist (List.filter_sublist.map _)⟩

theorem Dict.get_pop (d : Dict κ ν) (k a : κ) :
    (d.pop k).get a = if a = k then none else d.get a := by
  refine Option.ext fun v => ?_
  rw [← Dict.mem_items]
  show (a, v) ∈ d.items.filter _ ↔ _
  rw [List.mem_filter, Dict.mem_items, decide_eq_true_eq]
  by_cases ha : a = k
  · rw [if_pos ha]
    exact iff_of_false (fun h => h.2 ha) (fun h => by cases h)
  · rw [if_neg ha]
    exact and_iff_left ha

/-- What was assigned to a key is gone when the key is taken out. -/
theorem Dict.pop_set (d : Dict κ ν) (k : κ) (v : ν) : (d.set k v).pop k = d.pop k := by
  have hitems : ∀ items : List (κ × ν),
      ((put items k v).filter fun p => p.1 ≠ k) = items.filter fun p => p.1 ≠ k := by
    intro items
    induction items with
    | nil => simp [put]
    | cons p rest ih =>
        rw [put]
        split
        · next hp => simp [hp]
        · rw [List.filter_cons, List.filter_cons, ih]
  rw [Dict.pop, Dict.pop, Dict.mk.injEq]
  exact hitems d.items

/-- An assignment that keeps what `f` sees of the old value keeps what it sees of
    the values. -/
theorem Dict.map_values_set {β : Type*} (f : ν → β) {d : Dict κ ν} {k : κ} {old v : ν}
    (hget : d.get k = some old) (hf : f v = f old) :
    (d.set k v).values.map f = d.values.map f := by
  obtain ⟨items, hnodup⟩ := d
  have hmem : (k, old) ∈ items := Dict.mem_items.mpr hget
  show ((put items k v).map Prod.snd).map f = (items.map Prod.snd).map f
  clear hget
  induction items with
  | nil => exact absurd hmem List.not_mem_nil
  | cons p rest ih =>
      obtain ⟨hp, hrest⟩ := List.nodup_cons.mp hnodup
      rw [put]
      rcases List.mem_cons.mp hmem with heq | hmem
      · rw [← heq, if_pos rfl]
        simp only [List.map_cons, hf]
      · have hne : p.1 ≠ k := fun h => hp (h ▸ List.mem_map.mpr ⟨_, hmem, rfl⟩)
        rw [if_neg hne, List.map_cons, List.map_cons, List.map_cons, List.map_cons, ih hrest hmem]

/-- `d` after `d.popitem(last=False)`, which takes out the oldest item. -/
def Dict.popFirst (d : Dict κ ν) : Dict κ ν :=
  ⟨d.items.tail, d.nodup.sublist ((List.tail_sublist _).map _)⟩

/-- The key of the oldest item. -/
def Dict.firstKey (d : Dict κ ν) : Option κ := d.items.head?.map Prod.fst

theorem Dict.get_popFirst_first {d : Dict κ ν} {a : κ} (h : d.firstKey = some a) :
    d.popFirst.get a = none := by
  refine Option.eq_none_iff_forall_ne_some.mpr fun v hget => ?_
  have hmem : (a, v) ∈ d.items.tail := Dict.mem_items.mpr hget
  obtain ⟨p, hp, rfl⟩ := Option.map_eq_some_iff.mp h
  have hnodup := d.nodup
  rw [List.eq_cons_of_mem_head? hp, List.map_cons] at hnodup
  exact (List.nodup_cons.mp hnodup).1 (List.mem_map.mpr ⟨_, hmem, rfl⟩)

theorem Dict.get_popFirst {d : Dict κ ν} {a : κ} (h : d.firstKey ≠ some a) :
    d.popFirst.get a = d.get a := by
  refine Option.ext fun v => ?_
  rw [← Dict.mem_items, ← Dict.mem_items]
  show (a, v) ∈ d.items.tail ↔ _
  rw [Dict.firstKey] at h
  cases hitems : d.items with
  | nil => exact Iff.rfl
  | cons p rest =>
      rw [hitems] at h
      refine (List.mem_cons.trans (or_iff_right ?_)).symm
      rintro rfl
      exact h rfl

/-! ## Comprehensions -/

/-- `{k: v for k, v in pairs}`. -/
def Dict.ofPairs (pairs : List (κ × ν)) : Dict κ ν :=
  pairs.foldl (fun d p => d.set p.1 p.2) ∅

theorem Dict.ofPairs_concat (pairs : List (κ × ν)) (p : κ × ν) :
    Dict.ofPairs (pairs ++ [p]) = (Dict.ofPairs pairs).set p.1 p.2 :=
  List.foldl_concat ..

theorem Dict.get_ofPairs_eq (pairs : List (κ × ν)) (k : κ) :
    (Dict.ofPairs pairs).get k = (pairs.reverse.find? (fun p => p.1 = k)).map Prod.snd := by
  induction pairs using List.reverseRecOn with
  | nil => rfl
  | append_singleton pairs p ih =>
      rw [Dict.ofPairs_concat, Dict.get_set, List.reverse_concat]
      by_cases hk : p.1 = k
      · simp [hk]
      · rw [if_neg (Ne.symm hk), ih]
        simp [hk]

/-- **LAST WINS**: a comprehension stores under a key the value of the last
    pair that has it. -/
theorem Dict.get_ofPairs {pairs : List (κ × ν)} {k : κ} {v : ν} :
    (Dict.ofPairs pairs).get k = some v ↔
      ∃ before after, pairs = before ++ (k, v) :: after ∧ ∀ p ∈ after, p.1 ≠ k := by
  rw [Dict.get_ofPairs_eq, Option.map_eq_some_iff]
  constructor
  · rintro ⟨⟨k', v'⟩, hfind, rfl⟩
    obtain ⟨hk, after, before, hrev, hafter⟩ := List.find?_eq_some_iff_append.mp hfind
    obtain rfl : k' = k := of_decide_eq_true hk
    refine ⟨before.reverse, after.reverse, ?_, ?_⟩
    · rw [← List.reverse_reverse pairs, hrev]
      simp
    · intro p hp
      simpa using hafter p (List.mem_reverse.mp hp)
  · rintro ⟨before, after, rfl, hafter⟩
    refine ⟨(k, v), ?_, rfl⟩
    rw [List.find?_eq_some_iff_append]
    refine ⟨decide_eq_true rfl, after.reverse, before.reverse, by simp, ?_⟩
    intro p hp
    simpa using hafter p (List.mem_reverse.mp hp)

/-- A comprehension stores every key it is given, and no other. -/
theorem Dict.has_ofPairs {pairs : List (κ × ν)} {k : κ} :
    (Dict.ofPairs pairs).has k = true ↔ ∃ v, (k, v) ∈ pairs := by
  rw [Dict.has, Dict.get_ofPairs_eq, Option.isSome_map, List.find?_isSome]
  constructor
  · rintro ⟨⟨k', v⟩, hmem, hk⟩
    obtain rfl : k' = k := of_decide_eq_true hk
    exact ⟨v, List.mem_reverse.mp hmem⟩
  · rintro ⟨v, hmem⟩
    exact ⟨(k, v), List.mem_reverse.mpr hmem, decide_eq_true rfl⟩

/-- Pairs with distinct keys stay as they are. -/
theorem Dict.items_ofPairs {pairs : List (κ × ν)} (h : (pairs.map Prod.fst).Nodup) :
    (Dict.ofPairs pairs).items = pairs := by
  induction pairs using List.reverseRecOn with
  | nil => rfl
  | append_singleton pairs p ih =>
      rw [List.map_append, List.map_singleton, List.nodup_append] at h
      obtain ⟨hpairs, -, hdisjoint⟩ := h
      have hnew : p.1 ∉ (Dict.ofPairs pairs).items.map Prod.fst := by
        rw [ih hpairs]
        exact fun hmem => hdisjoint _ hmem _ (List.mem_singleton_self _) rfl
      rw [Dict.ofPairs_concat]
      show put _ p.1 p.2 = _
      rw [put_of_notMem hnew, ih hpairs]

end PyDict
