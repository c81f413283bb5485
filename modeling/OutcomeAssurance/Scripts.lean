import OutcomeAssurance.Interleaving

/-! # Requests of several commits

    A request that commits more than once leaves its work open to the others
    between two commits: what it does is a script of commits with an answer at
    the end.  A script is safe when its commits only make the store grow and its
    answer is true, whatever has grown in between; then in any interleaving of
    safe scripts the store grows and every answer stays true. -/

namespace Scripts

open Interleaving Runs

variable {ι W S A : Type*} [DecidableEq ι]

/-- What a request has left to do. -/
inductive Script (W S A : Type*) where
  | answered (a : A)
  /-- It reads the store and answers. -/
  | reads (answer : S → A)
  | commits (w : W) (next : Script W S A)

/-- One step of a script; a commit the store refuses is answered `refused`. -/
def step (apply : W → S → Option S) (refused : A) : Script W S A → S → Script W S A × S
  | .answered a, s => (.answered a, s)
  | .reads answer, s => (.answered (answer s), s)
  | .commits w next, s =>
    match apply w s with
    | some s' => (next, s')
    | none => (.answered refused, s)

variable {apply : W → S → Option S} {refused : A} {Grows : S → S → Prop} {Holds : A → S → Prop}
  {k : Script W S A} {s s' : S}

/-- What scripts rely on: growth is a preorder, a true answer stays true, and a
    refusal is always true. -/
structure Lawful (Grows : S → S → Prop) (Holds : A → S → Prop) (refused : A) : Prop where
  refl : ∀ s, Grows s s
  trans : ∀ {s s' s''}, Grows s s' → Grows s' s'' → Grows s s''
  stable : ∀ {a s s'}, Grows s s' → Holds a s → Holds a s'
  refused : ∀ s, Holds refused s

/-- From the store on, the script's commits make it grow and its answer is
    true, however the store grows in between. -/
def Safe (apply : W → S → Option S) (Grows : S → S → Prop) (Holds : A → S → Prop) :
    Script W S A → S → Prop
  | .answered a, s => Holds a s
  | .reads answer, s => ∀ s', Grows s s' → Holds (answer s') s'
  | .commits w next, s => ∀ s', Grows s s' → ∀ s'', apply w s' = some s'' →
      Grows s' s'' ∧ Safe apply Grows Holds next s''

/-- A safe script is safe in every store that has grown. -/
theorem Safe.grown (hlawful : Lawful Grows Holds refused) (h : Safe apply Grows Holds k s)
    (hgrows : Grows s s') : Safe apply Grows Holds k s' := by
  cases k with
  | answered a => exact hlawful.stable hgrows h
  | reads answer =>
      intro s'' hlater
      exact h s'' (hlawful.trans hgrows hlater)
  | commits w next =>
      intro s'' hlater
      exact h s'' (hlawful.trans hgrows hlater)

/-- A step of a safe script makes the store grow and leaves a safe script. -/
theorem Safe.step (hlawful : Lawful Grows Holds refused) (h : Safe apply Grows Holds k s) :
    Grows s (step apply refused k s).2 ∧
      Safe apply Grows Holds (step apply refused k s).1 (step apply refused k s).2 := by
  cases k with
  | answered a => exact ⟨hlawful.refl s, h⟩
  | reads answer => exact ⟨hlawful.refl s, h s (hlawful.refl s)⟩
  | commits w next =>
      rw [Scripts.step]
      cases happly : apply w s with
      | none => exact ⟨hlawful.refl s, hlawful.refused s⟩
      | some s' => exact h s (hlawful.refl s) s' happly

/-- One step of one of the requests. -/
def fire (apply : W → S → Option S) (refused : A) :
    Config ι S (Script W S A) → ι → Config ι S (Script W S A) :=
  Interleaving.fire fun _ => Scripts.step apply refused

/-- **ANY INTERLEAVING** of safe scripts makes the store grow, and leaves every
    script safe. -/
theorem run_safe (hlawful : Lawful Grows Holds refused) {σ : Config ι S (Script W S A)}
    (h : ∀ i, Safe apply Grows Holds (σ.pc i) σ.db) (schedule : List ι) :
    Grows σ.db (run (fire apply refused) σ schedule).db ∧
      ∀ i, Safe apply Grows Holds ((run (fire apply refused) σ schedule).pc i)
        (run (fire apply refused) σ schedule).db := by
  induction schedule generalizing σ with
  | nil => exact ⟨hlawful.refl _, h⟩
  | cons i schedule ih =>
      obtain ⟨hgrows, hleft⟩ := (h i).step hlawful
      have hsafe : ∀ j, Safe apply Grows Holds ((fire apply refused σ i).pc j)
          (fire apply refused σ i).db := by
        intro j
        by_cases hj : j = i
        · rw [hj, fire, fire_pc_self]
          exact hleft
        · rw [fire, fire_pc_other σ hj]
          exact (h j).grown hlawful hgrows
      obtain ⟨hlater, hall⟩ := ih hsafe
      exact ⟨hlawful.trans hgrows hlater, hall⟩

/-- An answer that was given stays true. -/
theorem answer_stays (hlawful : Lawful Grows Holds refused) {σ : Config ι S (Script W S A)}
    (h : ∀ i, Safe apply Grows Holds (σ.pc i) σ.db) (before after : List ι) {i : ι} {a : A}
    (hanswer : (run (fire apply refused) σ before).pc i = .answered a) :
    Holds a (run (fire apply refused) σ (before ++ after)).db := by
  obtain ⟨-, hsafe⟩ := run_safe hlawful h before
  have htrue : Safe apply Grows Holds (.answered a) _ := hanswer ▸ hsafe i
  obtain ⟨hgrows, -⟩ := run_safe hlawful hsafe after
  rw [run_append]
  exact hlawful.stable hgrows htrue

end Scripts
