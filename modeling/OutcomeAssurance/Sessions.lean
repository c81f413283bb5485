import OutcomeAssurance.Interleaving

/-! # Systems of sessions that do alike

    Two systems of sessions, each over a store of its own, under one schedule.
    The stores are related, and so are the points that each session has reached,
    which may depend on the store of the abstract system.  It is enough that a
    step of one session relates what it leaves, and spares what relates every
    other session. -/

namespace Sessions

open Runs Interleaving

variable {ι Db Pc Db' Pc' : Type*} [DecidableEq ι]

/-- Related sessions step alike, each without disturbing the others. -/
structure Simulation (concrete : ι → Pc → Db → Pc × Db) (abstract : ι → Pc' → Db' → Pc' × Db')
    (stores : Db → Db' → Prop) (points : ι → Db' → Pc → Pc' → Prop) : Prop where
  store : ∀ i {d d' p p'}, stores d d' → points i d' p p' →
    stores (concrete i p d).2 (abstract i p' d').2
  point : ∀ i {d d' p p'}, stores d d' → points i d' p p' →
    points i (abstract i p' d').2 (concrete i p d).1 (abstract i p' d').1
  others : ∀ i {d d' p p'}, stores d d' → points i d' p p' →
    ∀ j {q q'}, points j d' q q' → points j (abstract i p' d').2 q q'

/-- The stores of two systems, and the points of each session in them. -/
structure Related (stores : Db → Db' → Prop) (points : ι → Db' → Pc → Pc' → Prop)
    (σ : Config ι Db Pc) (τ : Config ι Db' Pc') : Prop where
  store : stores σ.db τ.db
  point : ∀ i, points i τ.db (σ.pc i) (τ.pc i)

variable {concrete : ι → Pc → Db → Pc × Db} {abstract : ι → Pc' → Db' → Pc' × Db'}
  {stores : Db → Db' → Prop} {points : ι → Db' → Pc → Pc' → Prop}
  {σ : Config ι Db Pc} {τ : Config ι Db' Pc'}

theorem Simulation.related_fire (h : Simulation concrete abstract stores points)
    (hrel : Related stores points σ τ) (i : ι) :
    Related stores points (fire concrete σ i) (fire abstract τ i) where
  store := h.store i hrel.store (hrel.point i)
  point := by
    intro j
    by_cases hji : j = i
    · subst hji
      rw [fire_pc_self, fire_pc_self]
      exact h.point j hrel.store (hrel.point j)
    · rw [fire_pc_other σ hji, fire_pc_other τ hji]
      exact h.others i hrel.store (hrel.point i) j (hrel.point j)

/-- **RELATED SYSTEMS STAY RELATED** under any schedule. -/
theorem Simulation.related_run (h : Simulation concrete abstract stores points)
    (hrel : Related stores points σ τ) (sched : List ι) :
    Related stores points (run (fire concrete) σ sched) (run (fire abstract) τ sched) := by
  induction sched generalizing σ τ with
  | nil => exact hrel
  | cons i rest ih => exact ih (h.related_fire hrel i)

end Sessions
