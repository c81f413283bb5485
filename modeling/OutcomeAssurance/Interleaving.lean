import Mathlib.Logic.Function.Basic
import OutcomeAssurance.Runs

/-! # Sessions over a shared store — interleavings and serial order

    Any number of sessions take steps on one store, one step at a time, in the
    order a schedule lists them.  Transactions (`Txn`) are the special case of
    two steps: a read of the store and a later commit.  The main rule
    is `serial_of_fresh`: when every commit that succeeds acts as if its
    session had read the store at that moment, and every commit that fails
    leaves the store alone, the schedule ends in the store that the successful
    sessions, run one after another in the order in which they finished, end
    in. -/

namespace Interleaving

open Runs

variable {ι Db Pc : Type*} [DecidableEq ι]

/-- The shared store and the point each session has reached. -/
structure Config (ι Db Pc : Type*) where
  db : Db
  pc : ι → Pc

/-- Session `i` takes its next step. -/
def fire (step : ι → Pc → Db → Pc × Db) (σ : Config ι Db Pc) (i : ι) : Config ι Db Pc :=
  ⟨(step i (σ.pc i) σ.db).2, Function.update σ.pc i (step i (σ.pc i) σ.db).1⟩

section Steps

variable {step : ι → Pc → Db → Pc × Db}

@[simp] theorem fire_db (σ : Config ι Db Pc) (i : ι) :
    (fire step σ i).db = (step i (σ.pc i) σ.db).2 := rfl

@[simp] theorem fire_pc_self (σ : Config ι Db Pc) (i : ι) :
    (fire step σ i).pc i = (step i (σ.pc i) σ.db).1 := by
  simp [fire]

theorem fire_pc_other (σ : Config ι Db Pc) {i j : ι} (h : j ≠ i) :
    (fire step σ i).pc j = σ.pc j := by
  simp [fire, h]

end Steps

/-! ## Transactions of one read and one commit -/

/-- A transaction: the read either settles the result or prepares a plan; the
    commit of a plan reports a result and leaves a store. -/
structure Txn (Call Db Plan Res : Type*) where
  read : Call → Db → Res ⊕ Plan
  commit : Call → Plan → Db → Res × Db

/-- The points a session of a transaction can have reached. -/
inductive Phase (Plan Res : Type*) where
  | idle
  | ready (plan : Plan)
  | done (res : Res)

variable {Call Plan Res : Type*}

/-- The next step of a session. -/
def Txn.step (M : Txn Call Db Plan Res) (c : Call) :
    Phase Plan Res → Db → Phase Plan Res × Db
  | .idle, d =>
      match M.read c d with
      | .inl r => (.done r, d)
      | .inr plan => (.ready plan, d)
  | .ready plan, d => (.done (M.commit c plan d).1, (M.commit c plan d).2)
  | .done r, d => (.done r, d)

/-- The transaction executed with nothing in between. -/
def Txn.alone (M : Txn Call Db Plan Res) (c : Call) (d : Db) : Res × Db :=
  match M.read c d with
  | .inl r => (r, d)
  | .inr plan => M.commit c plan d

variable (M : Txn Call Db Plan Res) (call : ι → Call)

/-- One step of one session, in the system of all sessions. -/
def Txn.sched : Config ι Db (Phase Plan Res) → ι → Config ι Db (Phase Plan Res) :=
  fire (fun i => M.step (call i))

variable (ok : Res → Bool)

/-- The session has reported success. -/
def Succeeded : Phase Plan Res → Prop
  | .done r => ok r = true
  | _ => False

instance : ∀ p : Phase Plan Res, Decidable (Succeeded ok p)
  | .idle => .isFalse id
  | .ready _ => .isFalse id
  | .done r => inferInstanceAs (Decidable (ok r = true))

/-- The session has reported some result. -/
def Finished : Phase Plan Res → Prop
  | .done _ => True
  | _ => False

instance : ∀ p : Phase Plan Res, Decidable (Finished p)
  | .idle => .isFalse id
  | .ready _ => .isFalse id
  | .done _ => .isTrue trivial

/-- The sessions that report success along a schedule, in the order in which
    they do. -/
def Txn.successes : Config ι Db (Phase Plan Res) → List ι → List ι
  | _, [] => []
  | σ, i :: rest =>
      if ¬ Finished (σ.pc i) ∧ Succeeded ok ((M.sched call σ i).pc i) then
        i :: Txn.successes (M.sched call σ i) rest
      else Txn.successes (M.sched call σ i) rest

/-- A commit that succeeds is fresh: it does what a read at this moment would
    lead to; a commit that fails leaves the store as it is. -/
def Txn.Fresh (σ : Config ι Db (Phase Plan Res)) (i : ι) : Prop :=
  ∀ plan, σ.pc i = .ready plan →
    if ok (M.commit (call i) plan σ.db).1 then
      M.commit (call i) plan σ.db = M.alone (call i) σ.db
    else (M.commit (call i) plan σ.db).2 = σ.db

variable {M call ok}

theorem Txn.successes_cons (σ : Config ι Db (Phase Plan Res)) (i : ι) (rest : List ι) :
    M.successes call ok σ (i :: rest) =
      if ¬ Finished (σ.pc i) ∧ Succeeded ok ((M.sched call σ i).pc i) then
        i :: M.successes call ok (M.sched call σ i) rest
      else M.successes call ok (M.sched call σ i) rest := rfl

/-- A read that settles the result finishes the session and leaves the store. -/
theorem Txn.step_idle_inl {c : Call} {d : Db} {r : Res} (h : M.read c d = .inl r) :
    M.step c .idle d = (.done r, d) ∧ M.alone c d = (r, d) := by
  simp only [Txn.step, Txn.alone, h, and_self]

/-- A read that prepares a plan leaves the store, and the session ready. -/
theorem Txn.step_idle_inr {c : Call} {d : Db} {plan : Plan} (h : M.read c d = .inr plan) :
    M.step c .idle d = (.ready plan, d) ∧ M.alone c d = M.commit c plan d := by
  simp only [Txn.step, Txn.alone, h, and_self]

/-- No step leads back to the start of a session. -/
theorem Txn.step_ne_idle (c : Call) (p : Phase Plan Res) (d : Db) :
    (M.step c p d).1 ≠ .idle := by
  cases p with
  | idle =>
      cases h : M.read c d with
      | inl r =>
          rw [(Txn.step_idle_inl h).1]
          intro hs
          cases hs
      | inr plan =>
          rw [(Txn.step_idle_inr h).1]
          intro hs
          cases hs
  | ready plan => intro hs; cases hs
  | done r => intro hs; cases hs

theorem Txn.sched_pc_self (σ : Config ι Db (Phase Plan Res)) (i : ι) :
    (M.sched call σ i).pc i = (M.step (call i) (σ.pc i) σ.db).1 :=
  fire_pc_self σ i

theorem Txn.sched_pc_other (σ : Config ι Db (Phase Plan Res)) {i j : ι} (h : j ≠ i) :
    (M.sched call σ i).pc j = σ.pc j :=
  fire_pc_other σ h

/-- A finished session stays finished with the result it reported. -/
theorem Txn.done_stable {σ : Config ι Db (Phase Plan Res)} {i : ι} {r : Res}
    (h : σ.pc i = .done r) (sched : List ι) :
    (run (M.sched call) σ sched).pc i = .done r := by
  refine run_invariant (I := fun τ : Config ι Db (Phase Plan Res) => τ.pc i = .done r)
    ?_ h sched
  intro τ j hτ
  by_cases hj : i = j
  · subst hj
    show (fire _ τ i).pc i = _
    rw [fire_pc_self, hτ]
    rfl
  · show (fire _ τ j).pc i = _
    rw [fire_pc_other τ hj]
    exact hτ

/-- The effect of one fresh step on the store: the serial effect of the session
    when the step reports success, nothing otherwise. -/
theorem Txn.db_of_fresh {σ : Config ι Db (Phase Plan Res)} {i : ι}
    (h : M.Fresh call ok σ i) :
    (M.sched call σ i).db =
      if ¬ Finished (σ.pc i) ∧ Succeeded ok ((M.sched call σ i).pc i) then
        (M.alone (call i) σ.db).2
      else σ.db := by
  have hdb : (M.sched call σ i).db = (M.step (call i) (σ.pc i) σ.db).2 := rfl
  rw [Txn.sched_pc_self, hdb]
  cases hp : σ.pc i with
  | idle =>
      cases hr : M.read (call i) σ.db with
      | inl r =>
          rw [(Txn.step_idle_inl hr).1, (Txn.step_idle_inl hr).2, ite_self]
      | inr plan =>
          rw [(Txn.step_idle_inr hr).1, if_neg (fun hsucc => hsucc.2)]
  | ready plan =>
      have hf := h plan hp
      show (M.commit (call i) plan σ.db).2 = _
      by_cases hok : ok (M.commit (call i) plan σ.db).1 = true
      · rw [if_pos hok] at hf
        rw [if_pos ⟨fun hfin => hfin, hok⟩, hf]
      · rw [if_neg hok] at hf
        rw [if_neg (fun hsucc => hok hsucc.2), hf]
  | done r =>
      rw [if_neg (fun hsucc => hsucc.1 trivial)]
      rfl

/-- **SERIAL ORDER**: along a schedule of fresh steps the store is the one the
    successful sessions, run serially in the order they finished, lead to. -/
theorem Txn.serial_of_fresh {σ : Config ι Db (Phase Plan Res)} {sched : List ι}
    (h : Along (M.sched call) (M.Fresh call ok) σ sched) :
    (run (M.sched call) σ sched).db =
      run (fun d i => (M.alone (call i) d).2) σ.db (M.successes call ok σ sched) := by
  induction sched generalizing σ with
  | nil => rfl
  | cons i rest ih =>
      -- the first step is serial or idle, the rest follows from the store it leaves
      have hdb := Txn.db_of_fresh h.1
      show (run (M.sched call) (M.sched call σ i) rest).db = _
      rw [ih h.2, Txn.successes_cons]
      by_cases hs : ¬ Finished (σ.pc i) ∧ Succeeded ok ((M.sched call σ i).pc i)
      · rw [if_pos hs] at hdb ⊢
        rw [run_cons, hdb]
      · rw [if_neg hs] at hdb ⊢
        rw [hdb]

/-- The listed sessions are those that had not finished before the schedule
    and have reported success after it. -/
theorem Txn.mem_successes {σ : Config ι Db (Phase Plan Res)} {sched : List ι} {i : ι} :
    i ∈ M.successes call ok σ sched ↔
      ¬ Finished (σ.pc i) ∧ Succeeded ok ((run (M.sched call) σ sched).pc i) := by
  induction sched generalizing σ with
  | nil =>
      cases hp : σ.pc i with
      | idle => simp [Txn.successes, Succeeded, hp]
      | ready plan => simp [Txn.successes, Succeeded, hp]
      | done r => simp [Txn.successes, Finished]
  | cons j rest ih =>
      have hcons : i ∈ M.successes call ok σ (j :: rest) ↔
          (i = j ∧ ¬ Finished (σ.pc j) ∧ Succeeded ok ((M.sched call σ j).pc j)) ∨
            i ∈ M.successes call ok (M.sched call σ j) rest := by
        rw [Txn.successes_cons]
        by_cases hs : ¬ Finished (σ.pc j) ∧ Succeeded ok ((M.sched call σ j).pc j)
        · rw [if_pos hs]
          simp [hs]
        · rw [if_neg hs]
          constructor
          · exact Or.inr
          · rintro (⟨_, h⟩ | h)
            · exact absurd h hs
            · exact h
      rw [hcons, ih, run_cons]
      by_cases hij : i = j
      · subst hij
        -- a step never leads back to `idle`, and `ready` is no success yet
        cases hp' : (M.sched call σ i).pc i with
        | done r =>
            rw [Txn.done_stable hp' rest]
            constructor
            · rintro (⟨_, h⟩ | h)
              · exact h
              · exact absurd trivial h.1
            · exact fun h => Or.inl ⟨rfl, h⟩
        | idle =>
            refine absurd ?_ (Txn.step_ne_idle (M := M) (call i) (σ.pc i) σ.db)
            rw [← Txn.sched_pc_self]
            exact hp'
        | ready plan =>
            have hidle : ¬ Finished (σ.pc i) := by
              intro hfin
              cases hp : σ.pc i with
              | idle => rw [hp] at hfin; exact hfin
              | ready plan => rw [hp] at hfin; exact hfin
              | done r =>
                  have hdone : (run (M.sched call) σ [i]).pc i = .done r :=
                    Txn.done_stable hp [i]
                  rw [run_cons, run_nil, hp'] at hdone
                  cases hdone
            constructor
            · rintro (⟨_, _, h⟩ | h)
              · exact absurd h (fun h => h)
              · exact ⟨hidle, h.2⟩
            · intro h
              exact Or.inr ⟨fun h => h, h.2⟩
      · rw [Txn.sched_pc_other σ hij]
        simp [hij]

/-- No session reports success twice. -/
theorem Txn.nodup_successes (σ : Config ι Db (Phase Plan Res)) (sched : List ι) :
    (M.successes call ok σ sched).Nodup := by
  induction sched generalizing σ with
  | nil => exact List.nodup_nil
  | cons j rest ih =>
      rw [Txn.successes_cons]
      by_cases hs : ¬ Finished (σ.pc j) ∧ Succeeded ok ((M.sched call σ j).pc j)
      · rw [if_pos hs]
        refine List.nodup_cons.mpr ⟨?_, ih _⟩
        intro hj
        refine (Txn.mem_successes.mp hj).1 ?_
        cases hp : (M.sched call σ j).pc j with
        | idle => rw [hp] at hs; exact hs.2.elim
        | ready plan => rw [hp] at hs; exact hs.2.elim
        | done r => exact trivial
      · rw [if_neg hs]
        exact ih _

end Interleaving
