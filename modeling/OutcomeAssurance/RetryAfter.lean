import Mathlib.Data.Rat.Floor
import OutcomeAssurance.StreamRouter

/-! # Retry-After

    A refused check looks at the bucket and puts it back with the tokens it
    found.  The moment at which the bucket holds a token again is not moved by
    this, so the refusal names it exactly, and the integer header that
    `generate_stream` sends never comes before it. -/

namespace RetryAfter

open PyDict Runs TokenBucket RateLimiter
open StreamRouter (rateLimited truncate)

variable {c : RateLimits} {buckets : Buckets} {call : Call} {key : String}
  {e : RateLimitExceeded}

/-- The key is not evicted and no check of it is admitted. -/
def Waits (c : RateLimits) (key : String) (buckets : Buckets) (call : Call) : Prop :=
  ¬ Evicts c buckets call key ∧ (call.key = key → ¬ Admits c buckets call)

instance (key : String) (buckets : Buckets) (call : Call) :
    Decidable (Waits c key buckets call) := inferInstanceAs (Decidable (_ ∧ (_ → _)))

/-- The bucket of the key holds a token from `ready` on. -/
def ReadyAt (c : RateLimits) (key : String) (ready : ℚ) (buckets : Buckets) : Prop :=
  ∃ b, buckets.get key = some b ∧ c.params.readyAt b = ready

/-! ## Refusals -/

/-- What a refusal says and leaves. -/
theorem refused_cases (h : (checkTokens c buckets call.key call.now).1 = .exceeded e) :
    tokensAt c buckets call.key call.now < 1 ∧ c.refillRate ≠ 0
      ∧ e.retryAfterSeconds = (1 - tokensAt c buckets call.key call.now) / c.refillRate
      ∧ step c buckets call = restored buckets call.key
        ⟨tokensAt c buckets call.key call.now, call.now⟩ := by
  rw [step]
  rw [checkTokens] at h ⊢
  by_cases htokens : tokensAt c buckets call.key call.now < 1
  · rw [if_pos htokens] at h ⊢
    by_cases hzero : c.refillRate = 0
    · rw [if_pos hzero] at h
      cases h
    · rw [if_neg hzero] at h ⊢
      have he := (Verdict.exceeded.inj h).symm
      exact ⟨htokens, hzero, congrArg RateLimitExceeded.retryAfterSeconds he, rfl⟩
  · rw [if_neg htokens] at h
    cases h

/-- **A REFUSAL** leaves a bucket that is ready when it says. -/
theorem readyAt_refused (h : (checkTokens c buckets call.key call.now).1 = .exceeded e) :
    ReadyAt c call.key (call.now + e.retryAfterSeconds) (step c buckets call) := by
  obtain ⟨-, -, hretry, hstep⟩ := refused_cases h
  refine ⟨⟨tokensAt c buckets call.key call.now, call.now⟩, ?_, ?_⟩
  · rw [hstep, get_restored, if_pos rfl]
  · rw [hretry]
    rfl

/-- **EACH CHECK** that is not an admission of the key keeps the moment. -/
theorem readyAt_step (hcapacity : 1 ≤ c.capacity) (hrate : 0 < c.refillRate) {ready : ℚ}
    (h : ReadyAt c key ready buckets) (hwaits : Waits c key buckets call) :
    ReadyAt c key ready (step c buckets call) := by
  obtain ⟨b, hget, hready⟩ := h
  obtain ⟨hkept, hrefused⟩ := hwaits
  have htracked : buckets.has key = true := by
    rw [Dict.has, hget]
    rfl
  have hfull : 1 ≤ c.params.capacity := by
    show (1 : ℚ) ≤ c.capacity
    exact_mod_cast hcapacity
  have hstep := get_step (fun _ => hrate.ne') (Or.inl htracked) hkept
  by_cases hkey : call.key = key
  · have htokens : tokensAt c buckets call.key call.now < 1 :=
      not_le.mp (mt admits_iff.mpr (hrefused hkey))
    rw [if_pos hkey.symm, leftBucket, if_pos htokens] at hstep
    refine ⟨_, hstep, ?_⟩
    obtain rfl := hkey
    rw [tokensAt, bucketOf, hget, Option.getD_some] at htokens ⊢
    rw [readyAt_refill hfull hrate htokens, hready]
  · rw [if_neg (Ne.symm hkey), hget] at hstep
    exact ⟨b, hstep, hready⟩

/-- A check of the key is admitted from the moment on. -/
theorem admits_of_readyAt (hcapacity : 1 ≤ c.capacity) (hrate : 0 < c.refillRate) {ready : ℚ}
    (h : ReadyAt c key ready buckets) (now : ℚ) :
    Admits c buckets ⟨key, now⟩ ↔ ready ≤ now := by
  obtain ⟨b, hget, rfl⟩ := h
  have hfull : 1 ≤ c.params.capacity := by
    show (1 : ℚ) ≤ c.capacity
    exact_mod_cast hcapacity
  rw [admits_iff, tokensAt, bucketOf, hget]
  exact one_le_refill_iff hfull hrate

/-! ## The header -/

/-- The seconds of the `Retry-After` header. -/
def headerSeconds (e : RateLimitExceeded) : Int := max 1 (truncate e.retryAfterSeconds + 1)

theorem rateLimited_retryAfter (e : RateLimitExceeded) :
    (rateLimited e).retryAfter = some (toString (headerSeconds e)) := rfl

/-- **THE HEADER NEVER UNDERCUTS**: it is at least what the refusal says. -/
theorem le_headerSeconds (e : RateLimitExceeded) :
    e.retryAfterSeconds ≤ headerSeconds e := by
  have hone : (1 : ℚ) ≤ headerSeconds e := by
    have hmax : 1 ≤ headerSeconds e := le_max_left _ _
    exact_mod_cast hmax
  by_cases hnonneg : 0 ≤ e.retryAfterSeconds
  · have htruncate : truncate e.retryAfterSeconds = ⌊e.retryAfterSeconds⌋ := if_pos hnonneg
    have hfloor : (⌊e.retryAfterSeconds⌋ + 1 : Int) ≤ headerSeconds e := by
      rw [← htruncate]
      exact le_max_right _ _
    have hcast : ((⌊e.retryAfterSeconds⌋ + 1 : Int) : ℚ) ≤ headerSeconds e := by
      exact_mod_cast hfloor
    push_cast at hcast
    exact (Int.lt_floor_add_one e.retryAfterSeconds).le.trans hcast
  · linarith

/-! ## Retry-After is exact -/

/-- What a client may rely on once a check has been refused with `e`: as long
    as its key waits, a check is admitted exactly from the moment named, hence
    after the seconds of the header. -/
structure ExactAfter (c : RateLimits) (call : Call) (e : RateLimitExceeded) (buckets : Buckets) :
    Prop where
  exact : ∀ now, Admits c buckets ⟨call.key, now⟩ ↔ call.now + e.retryAfterSeconds ≤ now
  header : ∃ n : Int, (rateLimited e).retryAfter = some (toString n) ∧ e.retryAfterSeconds ≤ n
    ∧ ∀ now, call.now + n ≤ now → Admits c buckets ⟨call.key, now⟩

/-- **RETRY-AFTER IS EXACT**, after any number of checks in between that are
    refused or of other keys, whatever the buckets were. -/
theorem retryAfter_exact (c : RateLimits) (hcapacity : 1 ≤ c.capacity) (hrate : 0 < c.refillRate)
    (buckets : Buckets) (call : Call) (e : RateLimitExceeded)
    (hrefused : (checkTokens c buckets call.key call.now).1 = .exceeded e) (later : List Call)
    (hwaits : Along (step c) (Waits c call.key) (step c buckets call) later) :
    ExactAfter c call e (run (step c) (step c buckets call) later) := by
  have hready : ReadyAt c call.key (call.now + e.retryAfterSeconds)
      (run (step c) (step c buckets call) later) :=
    run_invariant_along (fun _ _ h hwait => readyAt_step hcapacity hrate h hwait)
      (readyAt_refused hrefused) hwaits
  have hexact := admits_of_readyAt hcapacity hrate hready
  refine ⟨hexact, headerSeconds e, rateLimited_retryAfter e, le_headerSeconds e, ?_⟩
  intro now hnow
  have hheader := le_headerSeconds e
  exact (hexact now).mpr (by linarith)

/-- One bucket of one token, a token every two seconds. -/
def slow : RateLimits := ⟨1, 1 / 2, 10⟩

/-- The second check of alice is one and a half seconds early; another refusal
    and a check of bob change nothing. -/
theorem second_check_exact :
    ExactAfter slow ⟨"alice", 1 / 2⟩ ⟨3 / 2⟩
      (run (step slow) (step slow (step slow ∅ ⟨"alice", 0⟩) ⟨"alice", 1 / 2⟩)
        [⟨"bob", 1⟩, ⟨"alice", 1⟩]) :=
  retryAfter_exact slow (by decide) (by decide +kernel) (step slow ∅ ⟨"alice", 0⟩)
    ⟨"alice", 1 / 2⟩ ⟨3 / 2⟩ (by decide +kernel) [⟨"bob", 1⟩, ⟨"alice", 1⟩] (by decide +kernel)

end RetryAfter
