import Mathlib.Data.List.Induction
import Mathlib.Data.List.Nodup
import Mathlib.Data.List.Infix

/-! # Hash chains — binding and cuts

    A chain folds entries into one value, link by link from a seed.  Where the
    links that occur are injective and none of them gives the seed, the last
    value binds all entries, however many there are; and a part of a stamped
    chain checks out link by link only when it is a beginning of the chain. -/

namespace HashChain

variable {D α : Type*} (link : D → α → D)

/-- The value after all entries. -/
def chain (seed : D) (xs : List α) : D := xs.foldl link seed

/-- Each entry, stamped with the value before it. -/
def stamps : D → List α → List (D × α)
  | _, [] => []
  | d, x :: xs => (d, x) :: stamps (link d x) xs

/-- Among the stamped entries of `P` the link is injective and does not lead
    back to the seed. -/
structure Binding (seed : D) (P : D × α → Prop) : Prop where
  inj : ∀ p q, P p → P q → link p.1 p.2 = link q.1 q.2 → p = q
  fresh : ∀ p, P p → link p.1 p.2 ≠ seed

variable {link}

@[simp] theorem chain_nil (d : D) : chain link d [] = d := rfl

theorem chain_concat (d : D) (xs : List α) (x : α) :
    chain link d (xs ++ [x]) = link (chain link d xs) x :=
  List.foldl_concat ..

theorem stamps_concat (d : D) (xs : List α) (x : α) :
    stamps link d (xs ++ [x]) = stamps link d xs ++ [(chain link d xs, x)] := by
  induction xs generalizing d with
  | nil => rfl
  | cons y xs ih =>
      rw [List.cons_append, stamps, ih, stamps]
      rfl

theorem length_stamps (d : D) (xs : List α) : (stamps link d xs).length = xs.length := by
  induction xs generalizing d with
  | nil => rfl
  | cons x xs ih => rw [stamps, List.length_cons, ih, List.length_cons]

@[simp] theorem map_snd_stamps (d : D) (xs : List α) : (stamps link d xs).map Prod.snd = xs := by
  induction xs generalizing d with
  | nil => rfl
  | cons x xs ih => rw [stamps, List.map_cons, ih]

/-- The stamps of a beginning are a beginning of the stamps. -/
theorem stamps_append (d : D) (xs ys : List α) :
    stamps link d (xs ++ ys) = stamps link d xs ++ stamps link (chain link d xs) ys := by
  induction xs generalizing d with
  | nil => rfl
  | cons x xs ih =>
      rw [List.cons_append, stamps, ih, stamps]
      rfl

/-- **THE LAST VALUE BINDS** all entries of a chain, their number included. -/
theorem chain_injective {seed : D} {P : D × α → Prop} (h : Binding link seed P) {xs ys : List α}
    (hxs : ∀ p ∈ stamps link seed xs, P p) (hys : ∀ p ∈ stamps link seed ys, P p)
    (heq : chain link seed xs = chain link seed ys) : xs = ys := by
  -- from the last link back: a shorter chain would have to end in the seed
  induction xs using List.reverseRecOn generalizing ys with
  | nil =>
      cases ys using List.reverseRecOn with
      | nil => rfl
      | append_singleton ys y =>
          rw [stamps_concat] at hys
          rw [chain_nil, chain_concat] at heq
          exact absurd heq.symm (h.fresh (chain link seed ys, y) (hys _ (by simp)))
  | append_singleton xs x ih =>
      rw [stamps_concat] at hxs
      cases ys using List.reverseRecOn with
      | nil =>
          rw [chain_nil, chain_concat] at heq
          exact absurd heq (h.fresh (chain link seed xs, x) (hxs _ (by simp)))
      | append_singleton ys y =>
          rw [stamps_concat] at hys
          rw [chain_concat, chain_concat] at heq
          have hlast := h.inj (chain link seed xs, x) (chain link seed ys, y)
            (hxs _ (by simp)) (hys _ (by simp)) heq
          obtain ⟨hbefore, rfl⟩ := Prod.ext_iff.mp hlast
          rw [ih (fun p hp => hxs p (List.mem_append_left _ hp))
            (fun p hp => hys p (List.mem_append_left _ hp)) hbefore]

/-- No value comes twice in a binding chain. -/
theorem nodup_stamps {seed : D} {P : D × α → Prop} (h : Binding link seed P) {xs : List α}
    (hxs : ∀ p ∈ stamps link seed xs, P p) : ((stamps link seed xs).map Prod.fst).Nodup := by
  induction xs using List.reverseRecOn with
  | nil => exact List.nodup_nil
  | append_singleton xs x ih =>
      have hinit : ∀ p ∈ stamps link seed xs, P p := fun p hp =>
        hxs p (by rw [stamps_concat]; exact List.mem_append_left _ hp)
      rw [stamps_concat, List.map_append]
      refine List.nodup_append.mpr ⟨ih hinit, List.nodup_singleton _, ?_⟩
      rintro d hd d' hd' rfl
      obtain rfl := List.mem_singleton.mp hd'
      obtain ⟨p, hp, hpd⟩ := List.mem_map.mp hd
      -- the earlier entry with this stamp follows a shorter beginning
      obtain ⟨before, after, hsplit⟩ := List.append_of_mem hp
      obtain ⟨l, r, hlr, hl, hr⟩ : ∃ l r, xs = l ++ r ∧ stamps link seed l = before ∧
          stamps link (chain link seed l) r = p :: after := by
        refine ⟨xs.take before.length, xs.drop before.length, (List.take_append_drop ..).symm, ?_⟩
        have hparts := hsplit
        rw [← List.take_append_drop before.length xs, stamps_append] at hparts
        refine List.append_inj hparts ?_
        have hlength := congrArg List.length hsplit
        rw [length_stamps, List.length_append, List.length_cons] at hlength
        rw [length_stamps, List.length_take]
        omega
      cases r with
      | nil => cases hr
      | cons y r =>
          have hstamp : chain link seed l = p.1 := congrArg Prod.fst (List.cons.inj hr).1
          have hshort : l = xs := by
            refine chain_injective h (fun q hq => hinit q ?_) hinit (hstamp.trans hpd)
            rw [hlr, stamps_append]
            exact List.mem_append_left _ hq
          rw [hshort] at hlr
          exact absurd hlr.symm (by simp)

/-- **CUTS**: a part of a stamped chain is stamped right, from the seed on,
    exactly when it is a beginning of the chain. -/
theorem stamps_iff_prefix {d : D} {xs : List α} (hnodup : ((stamps link d xs).map Prod.fst).Nodup)
    {ps : List (D × α)} (hps : ps.Sublist (stamps link d xs)) :
    ps = stamps link d (ps.map Prod.snd) ↔ ps <+: stamps link d xs := by
  constructor
  · intro hright
    induction xs generalizing d ps with
    | nil =>
        rw [List.eq_nil_of_sublist_nil hps]
        exact List.nil_prefix
    | cons x xs ih =>
        rw [stamps] at hps hnodup ⊢
        rw [List.map_cons] at hnodup
        obtain ⟨hout, hnodup⟩ := List.nodup_cons.mp hnodup
        cases hps with
        | cons _ hrest =>
            -- the first entry is cut, so nothing that follows starts at the seed
            cases ps with
            | nil => exact List.nil_prefix
            | cons p ps =>
                rw [List.map_cons, stamps] at hright
                have hstamp : p.1 = d := congrArg Prod.fst (List.cons.inj hright).1
                exact absurd (List.mem_map.mpr ⟨p, hrest.subset List.mem_cons_self, hstamp⟩) hout
        | cons_cons _ hrest =>
            rename_i qs
            rw [List.map_cons, stamps] at hright
            exact (List.prefix_cons_inj _).mpr (ih hnodup hrest (List.cons.inj hright).2)
  · rintro ⟨rest, hsplit⟩
    have hxs := congrArg (List.map Prod.snd) hsplit
    rw [List.map_append, map_snd_stamps] at hxs
    rw [← hxs, stamps_append] at hsplit
    refine (List.append_inj hsplit ?_).1
    rw [length_stamps, List.length_map]

/-- A part of a list whose images are distinct is a beginning exactly when its
    image is. -/
theorem prefix_map_iff {β γ : Type*} (f : β → γ) {whole part : List β}
    (hnodup : (whole.map f).Nodup) (hsub : part.Sublist whole) :
    part.map f <+: whole.map f ↔ part <+: whole := by
  refine ⟨fun h => ?_, fun h => h.map f⟩
  induction whole generalizing part with
  | nil =>
      rw [List.eq_nil_of_sublist_nil hsub]
  | cons x whole ih =>
      rw [List.map_cons] at hnodup
      obtain ⟨hout, hnodup⟩ := List.nodup_cons.mp hnodup
      cases hsub with
      | cons _ hrest =>
          cases part with
          | nil => exact List.nil_prefix
          | cons p part =>
              rw [List.map_cons, List.map_cons, List.cons_prefix_cons] at h
              exact absurd (List.mem_map.mpr ⟨p, hrest.subset List.mem_cons_self, h.1⟩) hout
      | cons_cons _ hrest =>
          rw [List.map_cons, List.map_cons, List.prefix_cons_inj] at h
          exact (List.prefix_cons_inj _).mpr (ih hnodup hrest h)

end HashChain
