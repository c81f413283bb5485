import Mathlib.Algebra.Order.Field.Rat
import OutcomeAssurance.PyDict
import OutcomeAssurance.PyText
import OutcomeAssurance.Runs
import OutcomeAssurance.TokenBucket

/-! # The rate limiter

    `app/serving/rate_limit.py`: one token bucket for each key, in the order of
    the last check, at most `max_tracked_keys` of them.  Clocks and tokens are
    rational numbers; only the capacity is asked whether a `float` can hold it. -/

namespace RateLimiter

open PyDict PyText Runs TokenBucket

/-- What a limiter is constructed with. -/
structure RateLimits where
  capacity : Int
  refillRate : ℚ
  maxTrackedKeys : Int := 10000
  deriving DecidableEq, Repr

def RateLimits.params (c : RateLimits) : Params ℚ := ⟨c.capacity, c.refillRate⟩

/-- `RateLimitExceeded`. -/
structure RateLimitExceeded where
  retryAfterSeconds : ℚ
  deriving DecidableEq, Repr

/-- To the nearest integer, a half to the even one. -/
def roundHalfEven (x : ℚ) : Int :=
  let below := x.floor
  if x - below < 1 / 2 then below
  else if x - below > 1 / 2 then below + 1
  else if below % 2 = 0 then below else below + 1

/-- `f"{x:.2f}"` of a number that is not negative. -/
def twoDecimals (x : ℚ) : String :=
  let hundredths := (roundHalfEven (x * 100)).toNat
  toString (hundredths / 100) ++ "." ++ zeroPad 2 (hundredths % 100)

def RateLimitExceeded.message (e : RateLimitExceeded) : String :=
  "rate limit exceeded, retry after " ++ twoDecimals e.retryAfterSeconds ++ "s"

/-- No `float` is that large: `float(n)` raises, and a quotient is infinite. -/
def BeyondFloat (x : ℚ) : Prop := 2 ^ 1024 - 2 ^ 970 ≤ |x|

instance (x : ℚ) : Decidable (BeyondFloat x) := inferInstanceAs (Decidable (_ ≤ _))

/-- How a check ends. -/
inductive Verdict where
  | admitted
  | exceeded (e : RateLimitExceeded)
  /-- `ZeroDivisionError`. -/
  | zeroDivision
  /-- `OverflowError`. -/
  | overflow
  deriving DecidableEq, Repr

/-- `_buckets`, the least recently checked key first. -/
abbrev Buckets := Dict String (Bucket ℚ)

variable (c : RateLimits)

/-- The bucket of a key, a fresh one where it has none. -/
def bucketOf (buckets : Buckets) (key : String) (now : ℚ) : Bucket ℚ :=
  (buckets.get key).getD (c.params.fresh now)

/-- The tokens a check finds. -/
def tokensAt (buckets : Buckets) (key : String) (now : ℚ) : ℚ :=
  c.params.refill (bucketOf c buckets key now) now

/-- The bucket of the key taken out and put back behind the others. -/
def restored (buckets : Buckets) (key : String) (b : Bucket ℚ) : Buckets :=
  (buckets.pop key).set key b

/-- What `check` does with the `float` of the capacity. -/
def checkTokens (buckets : Buckets) (key : String) (now : ℚ) : Verdict × Buckets :=
  let tokens := tokensAt c buckets key now
  if tokens < 1 then
    -- the division comes before the bucket is put back
    if c.refillRate = 0 then (.zeroDivision, buckets.pop key)
    else (.exceeded ⟨(1 - tokens) / c.refillRate⟩, restored buckets key ⟨tokens, now⟩)
  else
    let stored := restored buckets key ⟨tokens - 1, now⟩
    (.admitted, if stored.items.length > c.maxTrackedKeys then stored.popFirst else stored)

/-- `check`. -/
def check (buckets : Buckets) (key : String) (now : ℚ) : Verdict × Buckets :=
  -- `float(self.capacity)` is an argument of the `pop`
  if BeyondFloat c.capacity then (.overflow, buckets) else checkTokens c buckets key now

/-! ## Any number of checks -/

structure Call where
  key : String
  now : ℚ
  deriving DecidableEq, Repr

/-- One check that has the `float` of the capacity. -/
def step (buckets : Buckets) (call : Call) : Buckets :=
  (checkTokens c buckets call.key call.now).2

def Admits (buckets : Buckets) (call : Call) : Prop :=
  (checkTokens c buckets call.key call.now).1 = .admitted

instance (buckets : Buckets) (call : Call) : Decidable (Admits c buckets call) :=
  inferInstanceAs (Decidable (_ = _))

/-- The key is tracked, or is the one checked, and is not tracked afterwards. -/
def Evicts (buckets : Buckets) (call : Call) (key : String) : Prop :=
  (buckets.has key = true ∨ call.key = key) ∧ (step c buckets call).has key = false

instance (buckets : Buckets) (call : Call) (key : String) :
    Decidable (Evicts c buckets call key) := inferInstanceAs (Decidable (_ ∧ _))

/-- A window of time. -/
structure Window where
  opens : ℚ
  closes : ℚ
  ordered : opens ≤ closes

def Window.Has (w : Window) (now : ℚ) : Prop := w.opens ≤ now ∧ now ≤ w.closes

instance (w : Window) (now : ℚ) : Decidable (w.Has now) := inferInstanceAs (Decidable (_ ∧ _))

/-- A check of the key that is admitted in the window. -/
def Counts (key : String) (w : Window) (buckets : Buckets) (call : Call) : Prop :=
  call.key = key ∧ w.Has call.now ∧ Admits c buckets call

instance (key : String) (w : Window) (buckets : Buckets) (call : Call) :
    Decidable (Counts c key w buckets call) := inferInstanceAs (Decidable (_ ∧ _))

/-- How many checks of the key are admitted in the window. -/
def admittedIn (key : String) (w : Window) : Buckets → List Call → Nat
  | _, [] => 0
  | buckets, call :: calls =>
      (if Counts c key w buckets call then 1 else 0)
        + admittedIn key w (step c buckets call) calls

/-- The key is not evicted in the window. -/
def Stays (key : String) (w : Window) (buckets : Buckets) (call : Call) : Prop :=
  w.Has call.now → ¬ Evicts c buckets call key

instance (key : String) (w : Window) (buckets : Buckets) (call : Call) :
    Decidable (Stays c key w buckets call) := inferInstanceAs (Decidable (_ → _))

variable {c} {buckets : Buckets} {call : Call} {key : String} {w : Window} {n : Nat} {clock : ℚ}

theorem get_restored (buckets : Buckets) (key a : String) (b : Bucket ℚ) :
    (restored buckets key b).get a = if a = key then some b else buckets.get a := by
  rw [restored, Dict.get_set, Dict.get_pop]
  by_cases h : a = key
  · rw [if_pos h, if_pos h]
  · rw [if_neg h, if_neg h, if_neg h]

/-- The bucket a check leaves under its key, the token taken or not. -/
def leftBucket (c : RateLimits) (buckets : Buckets) (call : Call) : Bucket ℚ :=
  let tokens := tokensAt c buckets call.key call.now
  ⟨if tokens < 1 then tokens else tokens - 1, call.now⟩

/-- **ONE CHECK**, seen from a key that is tracked and stays so: its bucket is
    the one the check leaves, or the one it had. -/
theorem get_step (hrate : tokensAt c buckets call.key call.now < 1 → c.refillRate ≠ 0)
    (htracked : buckets.has key = true ∨ call.key = key) (hstays : ¬ Evicts c buckets call key) :
    (step c buckets call).get key =
      if key = call.key then some (leftBucket c buckets call) else buckets.get key := by
  have hhas : (step c buckets call).has key ≠ false := fun h => hstays ⟨htracked, h⟩
  rw [leftBucket]
  rw [step, checkTokens] at hhas ⊢
  by_cases htokens : tokensAt c buckets call.key call.now < 1
  · rw [if_pos htokens, if_neg (hrate htokens), if_pos htokens]
    exact get_restored ..
  · rw [if_neg htokens] at hhas ⊢
    rw [if_neg htokens, ← get_restored]
    show (if _ then _ else _ : Buckets).get key = _
    split
    · next hlong =>
        refine Dict.get_popFirst fun hfirst => hhas ?_
        show Dict.has (if _ then _ else _ : Buckets) key = false
        rw [if_pos hlong, Dict.has, Dict.get_popFirst_first hfirst]
        rfl
    · rfl

theorem admits_iff : Admits c buckets call ↔ 1 ≤ tokensAt c buckets call.key call.now := by
  rw [Admits, checkTokens]
  by_cases htokens : tokensAt c buckets call.key call.now < 1
  · rw [if_pos htokens]
    refine iff_of_false ?_ (not_le.mpr htokens)
    split
    · intro h
      cases h
    · intro h
      cases h
  · rw [if_neg htokens]
    exact iff_of_true rfl (not_lt.mp htokens)

/-! ## The bound -/

/-- With `n` checks of the key admitted in the window by now, the bound is met;
    and until the window closes the bucket covers them. -/
structure Potential (c : RateLimits) (key : String) (w : Window) (buckets : Buckets) (n : Nat)
    (clock : ℚ) : Prop where
  bound : (n : ℚ) ≤ c.capacity + c.refillRate * (w.closes - w.opens)
  covers : clock ≤ w.closes → n = 0 ∨ w.opens ≤ clock ∧
    ∃ b, buckets.get key = some b ∧ c.params.Covers w.opens n b

theorem potential_start (hcapacity : 1 ≤ c.capacity) (hrate : 0 < c.refillRate) (clock : ℚ) :
    Potential c key w buckets 0 clock where
  bound := by
    have hrefilled : 0 ≤ c.refillRate * (w.closes - w.opens) :=
      mul_nonneg hrate.le (sub_nonneg.mpr w.ordered)
    have hfull : (1 : ℚ) ≤ c.capacity := by exact_mod_cast hcapacity
    push_cast
    linarith
  covers _ := Or.inl rfl

/-- The bucket a check of the key finds covers what has been admitted. -/
theorem covers_found (hrate : 0 < c.refillRate) (hopens : w.opens ≤ call.now)
    (hcovers : n = 0 ∨ w.opens ≤ clock ∧
      ∃ b, buckets.get call.key = some b ∧ c.params.Covers w.opens n b) :
    c.params.Covers w.opens n ⟨tokensAt c buckets call.key call.now, call.now⟩ := by
  rcases hcovers with rfl | ⟨-, b, hget, hcovers⟩
  · exact covers_start hrate.le hopens refill_le_capacity rfl
  · rw [tokensAt, bucketOf, hget]
    exact hcovers.refill

/-- **EACH CHECK** keeps the potential. -/
theorem potential_step (hrate : 0 < c.refillRate) (h : Potential c key w buckets n clock)
    (hclock : clock ≤ call.now) (hstays : Stays c key w buckets call) :
    Potential c key w (step c buckets call)
      ((if Counts c key w buckets call then 1 else 0) + n) call.now := by
  by_cases hwindow : w.Has call.now
  · have hcovers := h.covers (hclock.trans hwindow.2)
    have hkept := hstays hwindow
    by_cases hkey : call.key = key
    · -- the key itself is checked in the window
      obtain rfl := hkey
      have hfound := covers_found hrate hwindow.1 hcovers
      have hget := get_step (fun _ => hrate.ne') (Or.inr rfl) hkept
      rw [if_pos rfl, leftBucket] at hget
      by_cases hadmits : Admits c buckets call
      · have htokens := admits_iff.mp hadmits
        have htaken : c.params.Covers w.opens (n + 1)
            ⟨tokensAt c buckets call.key call.now - 1, call.now⟩ := hfound.take
        rw [if_neg (not_lt.mpr htokens)] at hget
        rw [if_pos ⟨rfl, hwindow, hadmits⟩, Nat.add_comm]
        exact {
          bound := htaken.bound hrate.le (sub_nonneg.mpr htokens) hwindow.2
          covers := fun _ => Or.inr ⟨hwindow.1, _, hget, htaken⟩ }
      · have htokens := not_le.mp (mt admits_iff.mpr hadmits)
        rw [if_pos htokens] at hget
        rw [if_neg fun hcounts => hadmits hcounts.2.2, Nat.zero_add]
        exact {
          bound := h.bound
          covers := fun _ => Or.inr ⟨hwindow.1, _, hget, hfound⟩ }
    · rw [if_neg fun hcounts => hkey hcounts.1, Nat.zero_add]
      refine ⟨h.bound, fun _ => hcovers.imp_right ?_⟩
      rintro ⟨hopens, b, hget, hb⟩
      refine ⟨hopens.trans hclock, b, ?_, hb⟩
      have hhas : buckets.has key = true := by rw [Dict.has, hget]; rfl
      rw [get_step (fun _ => hrate.ne') (Or.inl hhas) hkept, if_neg (Ne.symm hkey), hget]
  · rw [if_neg fun hcounts => hwindow hcounts.2.1, Nat.zero_add]
    refine ⟨h.bound, fun hcloses => ?_⟩
    -- before the window opens nothing has been counted
    refine (h.covers (hclock.trans hcloses)).imp_right fun hcovers => ?_
    exact absurd ⟨hcovers.1.trans hclock, hcloses⟩ hwindow

theorem potential_run (hrate : 0 < c.refillRate) {calls : List Call}
    (h : Potential c key w buckets n clock) (hclock : ∀ call ∈ calls, clock ≤ call.now)
    (hsorted : (calls.map Call.now).Pairwise (· ≤ ·))
    (hstays : Along (step c) (Stays c key w) buckets calls) :
    ((admittedIn c key w buckets calls + n : Nat) : ℚ)
      ≤ c.capacity + c.refillRate * (w.closes - w.opens) := by
  induction calls generalizing buckets n clock with
  | nil =>
      rw [admittedIn, Nat.zero_add]
      exact h.bound
  | cons call calls ih =>
      obtain ⟨hfirst, hsorted⟩ := List.pairwise_cons.mp hsorted
      have hnext := potential_step hrate h (hclock call List.mem_cons_self) hstays.1
      have hlater : ∀ later ∈ calls, call.now ≤ later.now := fun later hlater =>
        hfirst later.now (List.mem_map_of_mem hlater)
      rw [admittedIn, Nat.add_right_comm, Nat.add_comm]
      exact ih hnext hlater hsorted hstays.2

/-- **THE RATE LIMIT**: in any window in which a key is not evicted, no more of
    its checks are admitted than its bucket holds and the window refills. -/
theorem rate_bound (c : RateLimits) (hcapacity : 1 ≤ c.capacity) (hrate : 0 < c.refillRate)
    (calls : List Call) (hsorted : (calls.map Call.now).Pairwise (· ≤ ·)) (key : String)
    (w : Window) (hstays : Along (step c) (Stays c key w) ∅ calls) :
    (admittedIn c key w ∅ calls : ℚ)
      ≤ c.capacity + c.refillRate * (w.closes - w.opens) := by
  cases calls with
  | nil =>
      have hstart : Potential c key w ∅ 0 0 := potential_start hcapacity hrate 0
      rw [admittedIn]
      exact hstart.bound
  | cons call calls =>
      have hclock : ∀ later ∈ call :: calls, call.now ≤ later.now := by
        intro later hlater
        rcases List.mem_cons.mp hlater with rfl | hlater
        · exact le_refl _
        · exact (List.pairwise_cons.mp hsorted).1 later.now (List.mem_map_of_mem hlater)
      have hstart : Potential c key w ∅ 0 call.now := potential_start hcapacity hrate call.now
      have hrun := potential_run hrate hstart hclock hsorted hstays
      rwa [Nat.add_zero] at hrun

/-- Four checks of one key and one of another, on buckets of two tokens. -/
def burst : List Call :=
  [⟨"alice", 0⟩, ⟨"alice", 0⟩, ⟨"bob", 0⟩, ⟨"alice", 1 / 2⟩, ⟨"alice", 1⟩]

theorem burst_bounded :
    (admittedIn ⟨2, 1, 10⟩ "alice" ⟨0, 1, by decide⟩ ∅ burst : ℚ)
      ≤ ((2 : Int) : ℚ) + 1 * (1 - 0) :=
  rate_bound ⟨2, 1, 10⟩ (by decide) (by decide) burst (by decide +kernel) "alice"
    ⟨0, 1, by decide⟩ (by decide +kernel)

end RateLimiter
