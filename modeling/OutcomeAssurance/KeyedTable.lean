import Mathlib.Data.List.Infix
import Mathlib.Data.List.Pairwise
import Mathlib.Data.List.Nodup

/-! # Tables with uniqueness constraints

    A table is a list of rows no two of which clash.  `Clash` collects every
    uniqueness constraint of the table (primary key, unique columns, partial
    unique indexes), so a table value is a table the database would accept:
    the constraint is a field of the structure, and an insert or update that
    would break it has no result. -/

namespace KeyedTable

universe u v

/-- The uniqueness constraints of a row type. -/
class Constrained (ρ : Type u) where
  Clash : ρ → ρ → Prop
  decClash : DecidableRel Clash
  symm : ∀ {a b : ρ}, Clash a b → Clash b a

export Constrained (Clash)

instance {ρ : Type u} [Constrained ρ] : DecidableRel (Clash (ρ := ρ)) :=
  Constrained.decClash

/-- A row type with a primary key; equal keys clash. -/
class Keyed (ρ : Type u) (κ : outParam (Type v)) extends Constrained ρ where
  key : ρ → κ
  clash_of_key : ∀ {a b : ρ}, key a = key b → Clash a b

export Keyed (key)

/-- Rows, no two of which clash. -/
@[ext] structure Table (ρ : Type u) [Constrained ρ] where
  rows : List ρ
  unclashed : rows.Pairwise (fun a b => ¬ Clash a b)

section Constrained

variable {ρ : Type u} [Constrained ρ]

/-- The empty table. -/
def Table.empty : Table ρ := ⟨[], List.Pairwise.nil⟩

@[simp] theorem Table.rows_empty : (Table.empty : Table ρ).rows = [] := rfl

instance [DecidableEq ρ] : DecidableEq (Table ρ) := fun a b =>
  decidable_of_iff (a.rows = b.rows) (Table.ext_iff).symm

/-- Two rows of a table that clash are one row. -/
theorem Table.eq_of_clash {t : Table ρ} {a b : ρ} (ha : a ∈ t.rows) (hb : b ∈ t.rows)
    (h : Clash a b) : a = b := by
  by_contra hne
  have : Std.Symm (fun x y : ρ => ¬ Clash x y) := ⟨fun _ _ hxy hyx => hxy (Constrained.symm hyx)⟩
  exact t.unclashed.forall ha hb hne h

/-- A statement that replaces the rows; it is refused when the new rows clash. -/
def Table.accept (rows : List ρ) : Option (Table ρ) :=
  if h : rows.Pairwise (fun a b => ¬ Clash a b) then some ⟨rows, h⟩ else none

theorem Table.accept_eq_some {rows : List ρ} {t : Table ρ} :
    Table.accept rows = some t ↔ t.rows = rows := by
  rw [Table.accept]
  constructor
  · intro h
    split at h
    · rw [← Option.some.inj h]
    · cases h
  · intro h
    subst h
    rw [dif_pos t.unclashed]

theorem Table.accept_isSome {rows : List ρ} :
    (∃ t, Table.accept rows = some t) ↔ rows.Pairwise (fun a b => ¬ Clash a b) := by
  constructor
  · rintro ⟨t, h⟩
    rw [← Table.accept_eq_some.mp h]
    exact t.unclashed
  · intro h
    exact ⟨⟨rows, h⟩, Table.accept_eq_some.mpr rfl⟩

/-- `INSERT` of some rows, in order. -/
def Table.insert (t : Table ρ) (new : List ρ) : Option (Table ρ) :=
  Table.accept (t.rows ++ new)

/-- An insert goes through exactly when the new rows clash neither with one
    another nor with a stored row. -/
theorem Table.insert_isSome {t : Table ρ} {new : List ρ} :
    (∃ t', t.insert new = some t') ↔
      new.Pairwise (fun a b => ¬ Clash a b) ∧ ∀ a ∈ t.rows, ∀ b ∈ new, ¬ Clash a b := by
  rw [Table.insert, Table.accept_isSome, List.pairwise_append]
  exact ⟨fun h => h.2, fun h => ⟨t.unclashed, h⟩⟩

theorem Table.rows_of_insert {t t' : Table ρ} {new : List ρ}
    (h : t.insert new = some t') : t'.rows = t.rows ++ new :=
  Table.accept_eq_some.mp h

/-- `DELETE` of the rows that `p` selects. -/
def Table.delete (t : Table ρ) (p : ρ → Bool) : Table ρ :=
  ⟨t.rows.filter (fun r => !p r), t.unclashed.filter _⟩

@[simp] theorem Table.mem_delete {t : Table ρ} {p : ρ → Bool} {r : ρ} :
    r ∈ (t.delete p).rows ↔ r ∈ t.rows ∧ p r = false := by
  simp [Table.delete]

/-- A rewrite of all rows that makes no two of them clash. -/
def Table.rewrite (t : Table ρ) (g : ρ → ρ) (hg : ∀ a b, Clash (g a) (g b) → Clash a b) :
    Table ρ :=
  ⟨t.rows.map g, List.pairwise_map.mpr (t.unclashed.imp fun h hclash => h (hg _ _ hclash))⟩

end Constrained

section Keyed

variable {ρ : Type u} {κ : Type v} [Keyed ρ κ] [DecidableEq κ]

/-- The row with a given primary key. -/
def Table.get (t : Table ρ) (k : κ) : Option ρ :=
  t.rows.find? (fun r => key r = k)

@[simp] theorem Table.get_empty (k : κ) : (Table.empty : Table ρ).get k = none := rfl

theorem Table.get_eq_some {t : Table ρ} {k : κ} {r : ρ} :
    t.get k = some r ↔ r ∈ t.rows ∧ key r = k := by
  constructor
  · intro h
    exact ⟨List.mem_of_find?_eq_some h, by simpa using List.find?_some h⟩
  · rintro ⟨hr, hk⟩
    cases hget : t.get k with
    | none =>
        have := List.find?_eq_none.mp hget r hr
        exact absurd hk (by simpa using this)
    | some r' =>
        -- two rows with one key clash
        have hr' : r' ∈ t.rows := List.mem_of_find?_eq_some hget
        have hk' : key r' = k := by simpa using List.find?_some hget
        rw [Table.eq_of_clash hr' hr (Keyed.clash_of_key (hk'.trans hk.symm))]

theorem Table.get_eq_none {t : Table ρ} {k : κ} :
    t.get k = none ↔ ∀ r ∈ t.rows, key r ≠ k := by
  simp [Table.get, List.find?_eq_none]

/-- A row is found under its own key. -/
theorem Table.get_key {t : Table ρ} {r : ρ} (h : r ∈ t.rows) : t.get (key r) = some r :=
  Table.get_eq_some.mpr ⟨h, rfl⟩

theorem Table.mem_of_get {t : Table ρ} {k : κ} {r : ρ} (h : t.get k = some r) :
    r ∈ t.rows :=
  (Table.get_eq_some.mp h).1

theorem Table.key_of_get {t : Table ρ} {k : κ} {r : ρ} (h : t.get k = some r) :
    key r = k :=
  (Table.get_eq_some.mp h).2

/-- `UPDATE … WHERE key = k`: rewrite the row with primary key `k`. -/
def Table.update (t : Table ρ) (k : κ) (f : ρ → ρ) : Option (Table ρ) :=
  Table.accept (t.rows.map (fun r => if key r = k then f r else r))

/-- A rewrite of all rows that keeps their keys is read key by key. -/
theorem Table.get_of_map {t t' : Table ρ} {g : ρ → ρ} (hg : ∀ r, key (g r) = key r)
    (h : t'.rows = t.rows.map g) (k : κ) : t'.get k = (t.get k).map g := by
  have hpred : ((fun r : ρ => decide (key r = k)) ∘ g) = fun r => decide (key r = k) := by
    funext r
    show decide (key (g r) = k) = decide (key r = k)
    rw [hg r]
  show t'.rows.find? _ = (t.rows.find? _).map _
  rw [h, List.find?_map, hpred]

omit [DecidableEq κ] in
/-- A rewrite of all rows that keeps their keys is accepted exactly when it
    makes no two different rows clash. -/
theorem Table.accept_map_isSome {t : Table ρ} {g : ρ → ρ} :
    (∃ t', Table.accept (t.rows.map g) = some t') ↔
      ∀ a ∈ t.rows, ∀ b ∈ t.rows, a ≠ b → ¬ Clash (g a) (g b) := by
  rw [Table.accept_isSome, List.pairwise_map]
  constructor
  · intro h a ha b hb hne
    have : Std.Symm (fun x y : ρ => ¬ Clash (g x) (g y)) :=
      ⟨fun _ _ hxy hyx => hxy (Constrained.symm hyx)⟩
    exact h.forall ha hb hne
  · intro h
    refine t.unclashed.imp_of_mem ?_
    intro a b ha hb hab
    exact h a ha b hb (fun heq => hab (Keyed.clash_of_key (by rw [heq])))

/-- A freshly inserted row is found; the other keys read as before. -/
theorem Table.get_of_insert {t t' : Table ρ} {r : ρ} (h : t.insert [r] = some t') (k : κ) :
    t'.get k = if k = key r then some r else t.get k := by
  have hrows := Table.rows_of_insert h
  by_cases hk : k = key r
  · rw [if_pos hk]
    exact Table.get_eq_some.mpr ⟨by rw [hrows]; simp, hk.symm⟩
  · rw [if_neg hk]
    show t'.rows.find? _ = t.rows.find? _
    rw [hrows, List.find?_append]
    have hnone : [r].find? (fun r' => decide (key r' = k)) = none := by
      simp [Ne.symm hk]
    rw [hnone, Option.or_none]

/-- `INSERT … ON CONFLICT (key) DO NOTHING`: a row whose key is stored is
    skipped before any other constraint is looked at. -/
def Table.insertOrIgnore (t : Table ρ) (r : ρ) : Option (Table ρ) :=
  match t.get (key r) with
  | some _ => some t
  | none => t.insert [r]

/-- Where the key is the only constraint, such an insert always goes through
    and keeps the stored rows. -/
theorem Table.insertOrIgnore_isSome (hkey : ∀ a b : ρ, Clash a b → key a = key b)
    (t : Table ρ) (r : ρ) : ∃ t', t.insertOrIgnore r = some t' ∧ t.rows <+: t'.rows := by
  rw [Table.insertOrIgnore]
  cases hget : t.get (key r) with
  | some stored => exact ⟨t, rfl, List.prefix_rfl⟩
  | none =>
      obtain ⟨t', ht'⟩ : ∃ t', t.insert [r] = some t' := by
        refine Table.insert_isSome.mpr ⟨List.pairwise_singleton _ _, fun a ha b hb hclash => ?_⟩
        rw [List.mem_singleton.mp hb] at hclash
        exact Table.get_eq_none.mp hget a ha (hkey a r hclash)
      exact ⟨t', ht', Table.rows_of_insert ht' ▸ List.prefix_append _ _⟩

/-- Such an insert keeps a stored row; what is new is found. -/
theorem Table.get_of_insertOrIgnore {t t' : Table ρ} {r : ρ}
    (h : t.insertOrIgnore r = some t') (k : κ) :
    t'.get k = (t.get k).or (if key r = k then some r else none) := by
  rw [Table.insertOrIgnore] at h
  cases hget : t.get (key r) with
  | some stored =>
      rw [hget] at h
      obtain rfl := Option.some.inj h
      by_cases hk : key r = k
      · rw [← hk, hget, Option.some_or]
      · rw [if_neg hk, Option.or_none]
  | none =>
      rw [hget] at h
      rw [Table.get_of_insert h]
      by_cases hk : key r = k
      · rw [if_pos hk.symm, if_pos hk, ← hk, hget, Option.none_or]
      · rw [if_neg (Ne.symm hk), if_neg hk, Option.or_none]

end Keyed

end KeyedTable
