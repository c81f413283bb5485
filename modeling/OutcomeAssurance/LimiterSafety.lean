import OutcomeAssurance.BucketStore
import OutcomeAssurance.RetryAfter

/-! # Configurations of the limiter

    None of the three numbers a limiter is constructed with is validated.  A
    capacity that is no `float` lets no check through to a verdict.  Where
    nothing is refilled, an empty bucket is divided by zero and forgotten; where
    a bucket holds no token at all, every check is refused, and a refusal adds a
    bucket without dropping one. -/

namespace LimiterSafety

open PyDict Runs TokenBucket RateLimiter RecentlyUsed BucketStore RetryAfter

variable {c : RateLimits} {buckets : Buckets} {call : Call} {calls pre : List Call}

/-- The buckets a check leaves, however it ends. -/
def checked (c : RateLimits) (buckets : Buckets) (call : Call) : Buckets :=
  (check c buckets call.key call.now).2

/-- A check admits or refuses, keeps what a refusal found, and leaves no more
    buckets than allowed. -/
structure FailsSafely (c : RateLimits) (buckets : Buckets) (call : Call) : Prop where
  verdict : (check c buckets call.key call.now).1 = .admitted
    ∨ ∃ e, (check c buckets call.key call.now).1 = .exceeded e
  kept : ∀ e, (check c buckets call.key call.now).1 = .exceeded e →
    (checked c buckets call).get call.key = some ⟨tokensAt c buckets call.key call.now, call.now⟩
  bounded : ((checked c buckets call).items.length : Int) ≤ c.maxTrackedKeys

/-- Nothing is checked; or the capacity is a `float`, and where nothing is
    refilled no key is checked more often than it has tokens, without as many
    other keys in between as there are places; elsewhere a bucket holds a token,
    or there are no more keys than places. -/
def Configured (c : RateLimits) (calls : List Call) : Prop :=
  calls = [] ∨ ¬ BeyondFloat c.capacity ∧
    if c.refillRate = 0 then Spaced (room c) c.capacity.toNat (calls.map Call.key)
    else 1 ≤ c.capacity ∨ ((calls.map Call.key).dedup.length : Int) ≤ c.maxTrackedKeys

/-! ## One check -/

/-- A capacity that is a `float` is no obstacle. -/
theorem check_of_fits (hfits : ¬ BeyondFloat c.capacity) (buckets : Buckets) (call : Call) :
    check c buckets call.key call.now = checkTokens c buckets call.key call.now := if_neg hfits

theorem checked_of_fits (hfits : ¬ BeyondFloat c.capacity) : checked c = step c := by
  funext buckets call
  rw [checked, check_of_fits hfits, step]

theorem length_items (buckets : Buckets) : (trackedKeys buckets).length = buckets.items.length :=
  List.length_map ..

/-- With a refill the division is harmless, and only the bound is at stake. -/
theorem failsSafely_of_refill (hfits : ¬ BeyondFloat c.capacity) (hrate : c.refillRate ≠ 0) :
    FailsSafely c buckets call ↔
      ((step c buckets call).items.length : Int) ≤ c.maxTrackedKeys := by
  have hchecked := checked_of_fits hfits
  constructor
  · intro h
    rw [← hchecked]
    exact h.bounded
  · intro hbounded
    refine ⟨?_, fun e he => ?_, by rw [hchecked]; exact hbounded⟩
    · rw [check_of_fits hfits]
      by_cases htokens : tokensAt c buckets call.key call.now < 1
      · rw [checkTokens, if_pos htokens, if_neg hrate]
        exact Or.inr ⟨_, rfl⟩
      · exact Or.inl (admits_iff.mpr (not_lt.mp htokens))
    · rw [check_of_fits hfits] at he
      obtain ⟨-, -, -, hstep⟩ := refused_cases he
      rw [hchecked, hstep, get_restored, if_pos rfl]

/-- The bucket of the key holds a token without any refill. -/
def HasToken (c : RateLimits) (buckets : Buckets) (call : Call) : Prop :=
  1 ≤ min (c.capacity : ℚ) (bucketOf c buckets call.key call.now).tokens

/-- Without a refill a check finds what the bucket holds. -/
theorem tokensAt_of_zero (hzero : c.refillRate = 0) :
    tokensAt c buckets call.key call.now
      = min (c.capacity : ℚ) (bucketOf c buckets call.key call.now).tokens := by
  have hrate : c.params.rate = 0 := hzero
  rw [tokensAt, Params.refill, hrate, mul_zero, add_zero]
  rfl

theorem hasToken_iff (hzero : c.refillRate = 0) :
    HasToken c buckets call ↔ 1 ≤ tokensAt c buckets call.key call.now := by
  rw [HasToken, tokensAt_of_zero hzero]

/-- An admitted check keeps the bound. -/
theorem bounded_of_admitted (hmax : 0 ≤ c.maxTrackedKeys)
    (hshort : (buckets.items.length : Int) ≤ c.maxTrackedKeys) (h : Admits c buckets call) :
    ((step c buckets call).items.length : Int) ≤ c.maxTrackedKeys := by
  have hroom : (room c : Int) = c.maxTrackedKeys := Int.toNat_of_nonneg hmax
  have hkeys := trackedKeys_admitted hmax (admits_iff.mp h)
  have htouch := length_touch_le (trackedKeys buckets) call.key
  rw [length_items] at htouch
  rw [← length_items, hkeys]
  have htrim : (trim (room c) (touch (trackedKeys buckets) call.key)).length ≤ room c :=
    length_trim_le (by omega)
  omega

/-- Without a refill a check is safe exactly when a token is left. -/
theorem failsSafely_of_zero (hfits : ¬ BeyondFloat c.capacity) (hzero : c.refillRate = 0)
    (hmax : 0 ≤ c.maxTrackedKeys) (hshort : (buckets.items.length : Int) ≤ c.maxTrackedKeys) :
    FailsSafely c buckets call ↔ HasToken c buckets call := by
  rw [hasToken_iff hzero, ← admits_iff]
  constructor
  · intro h
    by_contra hrefused
    have htokens := not_le.mp (mt admits_iff.mpr hrefused)
    have hverdict := h.verdict
    -- the division by zero
    rw [check_of_fits hfits, checkTokens, if_pos htokens, if_pos hzero] at hverdict
    rcases hverdict with heq | ⟨e, heq⟩
    · exact Verdict.noConfusion heq
    · exact Verdict.noConfusion heq
  · intro h
    have hverdict : (check c buckets call.key call.now).1 = .admitted := by
      rw [check_of_fits hfits]
      exact h
    refine ⟨Or.inl hverdict, fun e he => Verdict.noConfusion (hverdict.symm.trans he), ?_⟩
    rw [checked_of_fits hfits]
    exact bounded_of_admitted hmax hshort h

/-! ## Without a refill -/

/-- After checks that were all admitted, the store holds the keys checked last,
    each with what its uses since it came in have left of a full bucket. -/
structure Spent (c : RateLimits) (pre : List Call) (buckets : Buckets) : Prop where
  keys : trackedKeys buckets = recent (room c) (pre.map Call.key)
  tokens : ∀ key b, buckets.get key = some b →
    b.tokens = c.capacity - uses (room c) key (pre.map Call.key)

theorem spent_start : Spent c [] ∅ where
  keys := by
    rw [List.map_nil, recent, List.dedup_nil, List.rtake_nil]
    rfl
  tokens := by
    intro key b hget
    cases hget

/-- **WHAT A CHECK FINDS**: the capacity less the uses in a row before it. -/
theorem Spent.found (h : Spent c pre buckets) (call : Call) :
    min (c.capacity : ℚ) (bucketOf c buckets call.key call.now).tokens =
      c.capacity - uses (room c) call.key (pre.map Call.key ++ [call.key]) + 1 := by
  have hrecent : call.key ∈ recent (room c) (pre.map Call.key) ↔ buckets.has call.key = true := by
    rw [← h.keys, mem_trackedKeys]
  rw [uses_concat, if_pos rfl, bucketOf]
  cases hget : buckets.get call.key with
  | none =>
      have hout : call.key ∉ recent (room c) (pre.map Call.key) := by
        rw [hrecent, Dict.has, hget]
        exact Bool.false_ne_true
      rw [if_neg hout, Option.getD_none, Params.fresh]
      show min (c.capacity : ℚ) c.capacity = _
      rw [min_self]
      push_cast
      ring
  | some b =>
      have hin : call.key ∈ recent (room c) (pre.map Call.key) := by
        rw [hrecent, Dict.has, hget]
        rfl
      have hnonneg : (0 : ℚ) ≤ uses (room c) call.key (pre.map Call.key) := Nat.cast_nonneg _
      rw [if_pos hin, Option.getD_some, h.tokens call.key b hget, min_eq_right (by linarith)]
      push_cast
      ring

/-- A check has a token exactly when it is not one use too many. -/
theorem Spent.hasToken_iff (h : Spent c pre buckets) (call : Call) :
    HasToken c buckets call ↔
      uses (room c) call.key (pre.map Call.key ++ [call.key]) ≤ c.capacity.toNat := by
  have hfound := h.found call
  have hpos : 1 ≤ uses (room c) call.key (pre.map Call.key ++ [call.key]) := by
    rw [uses_concat, if_pos rfl]
    exact Nat.le_add_left _ _
  generalize uses (room c) call.key (pre.map Call.key ++ [call.key]) = n at hfound hpos ⊢
  have hcast : n ≤ c.capacity.toNat ↔ (n : ℚ) ≤ c.capacity := by
    have hint : n ≤ c.capacity.toNat ↔ (n : Int) ≤ c.capacity := by omega
    rw [hint]
    exact_mod_cast Iff.rfl
  rw [HasToken, hcast]
  constructor
  · intro hle
    linarith
  · intro hle
    linarith

/-- **EACH CHECK** that finds a token is one more use of its key. -/
theorem Spent.step (hmax : 0 ≤ c.maxTrackedKeys) (hzero : c.refillRate = 0)
    (h : Spent c pre buckets) (htoken : HasToken c buckets call) :
    Spent c (pre ++ [call]) (step c buckets call) := by
  have htokens := (LimiterSafety.hasToken_iff hzero).mp htoken
  have hkeys : trackedKeys (RateLimiter.step c buckets call)
      = recent (room c) ((pre ++ [call]).map Call.key) := by
    rw [trackedKeys_admitted hmax htokens, h.keys, List.map_append, List.map_singleton,
      recent_concat]
  refine ⟨hkeys, fun key b hget => ?_⟩
  have htracked : (RateLimiter.step c buckets call).has key = true := by
    rw [Dict.has, hget]
    rfl
  have hbefore : buckets.has key = true ∨ call.key = key := by
    have hmem := mem_trackedKeys.mpr htracked
    rw [trackedKeys_admitted hmax htokens] at hmem
    rcases List.mem_append.mp (trim_subset hmem) with hold | hnew
    · exact Or.inl (mem_trackedKeys.mp (List.mem_of_mem_filter hold))
    · exact Or.inr (List.mem_singleton.mp hnew).symm
  have hstays : ¬ Evicts c buckets call key := fun hevicts =>
    Bool.false_ne_true (hevicts.2.symm.trans htracked)
  rw [get_step (fun hlow => absurd hlow (not_lt.mpr htokens)) hbefore hstays] at hget
  rw [List.map_append, List.map_singleton]
  split at hget
  · next hkey =>
      subst hkey
      obtain rfl := (Option.some.inj hget).symm
      have hfound := h.found call
      show (if _ then _ else _ : ℚ) = _
      rw [if_neg (not_lt.mpr htokens), tokensAt_of_zero hzero]
      linarith
  · next hkey =>
      rw [h.tokens key b hget, uses_concat, if_neg (Ne.symm hkey)]

/-- A run in which every check finds a token. -/
theorem spent_run (hmax : 0 ≤ c.maxTrackedKeys) (hzero : c.refillRate = 0)
    (h : Along (RateLimiter.step c) (HasToken c) ∅ calls) :
    Spent c calls (run (RateLimiter.step c) ∅ calls) := by
  induction calls using List.reverseRecOn with
  | nil => exact spent_start
  | append_singleton calls call ih =>
      have hbefore := ((along_append _ _ _ _).mp h).1
      rw [run_snoc]
      exact (ih hbefore).step hmax hzero h.at

/-- **EVERY CHECK FINDS A TOKEN** exactly when no key is checked too often in a
    row. -/
theorem hasToken_along_iff (hmax : 0 ≤ c.maxTrackedKeys) (hzero : c.refillRate = 0)
    (calls : List Call) : Along (RateLimiter.step c) (HasToken c) ∅ calls ↔
      Spaced (room c) c.capacity.toNat (calls.map Call.key) := by
  rw [spaced_iff]
  constructor
  · rintro h before key after hsplit
    obtain ⟨pre, rest, rfl, rfl, hrest⟩ := List.map_eq_append_iff.mp hsplit
    obtain ⟨call, post, rfl, rfl, rfl⟩ := List.map_eq_cons_iff.mp hrest
    have hspent := spent_run hmax hzero ((along_append _ _ _ _).mp h).1
    exact (hspent.hasToken_iff call).mp h.at
  · intro h
    by_contra hnot
    obtain ⟨pre, call, post, rfl, hpre, hbroken⟩ := exists_first_break hnot
    have hspent := spent_run hmax hzero hpre
    refine hbroken ((hspent.hasToken_iff call).mpr (h _ call.key (post.map Call.key) ?_))
    rw [List.map_append, List.map_cons]

/-! ## Runs -/

/-- A run without a refill. -/
theorem safe_of_zero (hfits : ¬ BeyondFloat c.capacity) (hzero : c.refillRate = 0)
    (hmax : 0 ≤ c.maxTrackedKeys) (calls : List Call) :
    Along (step c) (FailsSafely c) ∅ calls ↔ Along (step c) (HasToken c) ∅ calls := by
  have hstart : (((∅ : Buckets).items.length : Nat) : Int) ≤ c.maxTrackedKeys := hmax
  have hbounded : ∀ buckets call, FailsSafely c buckets call →
      ((step c buckets call).items.length : Int) ≤ c.maxTrackedKeys := by
    intro buckets call hsafe
    rw [← checked_of_fits hfits]
    exact hsafe.bounded
  constructor
  · intro h
    refine Along.imp (I := fun buckets => (buckets.items.length : Int) ≤ c.maxTrackedKeys)
      (fun buckets call _ hsafe => hbounded buckets call hsafe)
      (fun buckets call hshort hsafe => ?_) hstart h
    exact (failsSafely_of_zero hfits hzero hmax hshort).mp hsafe
  · intro h
    refine Along.imp (I := fun buckets => (buckets.items.length : Int) ≤ c.maxTrackedKeys)
      (fun buckets call hshort htoken => ?_) (fun buckets call hshort htoken => ?_) hstart h
    · exact hbounded _ _ ((failsSafely_of_zero hfits hzero hmax hshort).mpr htoken)
    · exact (failsSafely_of_zero hfits hzero hmax hshort).mpr htoken

/-- With a refill and room for a token every run is safe. -/
theorem safe_of_capacity (hfits : ¬ BeyondFloat c.capacity) (hcapacity : 1 ≤ c.capacity)
    (hrate : c.refillRate ≠ 0) (hmax : 0 ≤ c.maxTrackedKeys) (calls : List Call) :
    Along (step c) (FailsSafely c) ∅ calls := by
  have hroom : (room c : Int) = c.maxTrackedKeys := Int.toNat_of_nonneg hmax
  refine along_of_forall_at fun pre call post _ => (failsSafely_of_refill hfits hrate).mpr ?_
  have hkeys := trackedKeys_run hcapacity hrate hmax (pre ++ [call])
  rw [run_snoc] at hkeys
  rw [← length_items, hkeys, length_recent]
  omega

/-- Where a bucket holds no token, every key that is checked stays. -/
theorem trackedKeys_refusing (hcapacity : c.capacity < 1) (hrate : c.refillRate ≠ 0)
    (calls : List Call) : trackedKeys (run (step c) ∅ calls) = (calls.map Call.key).dedup := by
  induction calls using List.reverseRecOn with
  | nil => rfl
  | append_singleton calls call ih =>
      have hlow : (c.capacity : ℚ) < 1 := by exact_mod_cast hcapacity
      have htokens : tokensAt c (run (step c) ∅ calls) call.key call.now < 1 :=
        lt_of_le_of_lt refill_le_capacity hlow
      rw [run_snoc, trackedKeys_refused hrate htokens, ih, List.map_append, List.map_singleton,
        dedup_concat]

/-- So such a run is safe exactly when there are places for all its keys. -/
theorem safe_of_refusing (hfits : ¬ BeyondFloat c.capacity) (hcapacity : c.capacity < 1)
    (hrate : c.refillRate ≠ 0) (hmax : 0 ≤ c.maxTrackedKeys) (calls : List Call) :
    Along (step c) (FailsSafely c) ∅ calls ↔
      ((calls.map Call.key).dedup.length : Int) ≤ c.maxTrackedKeys := by
  have hsafe : ∀ pre call, FailsSafely c (run (step c) ∅ pre) call ↔
      (((pre ++ [call]).map Call.key).dedup.length : Int) ≤ c.maxTrackedKeys := by
    intro pre call
    have hstep : step c (run (step c) ∅ pre) call = run (step c) ∅ (pre ++ [call]) :=
      (run_snoc ..).symm
    rw [failsSafely_of_refill hfits hrate, hstep, ← length_items,
      trackedKeys_refusing hcapacity hrate]
  constructor
  · intro h
    rcases List.eq_nil_or_concat' calls with rfl | ⟨pre, call, rfl⟩
    · exact hmax
    · exact (hsafe pre call).mp h.at
  · intro h
    refine along_of_forall_at fun pre call post heq => (hsafe pre call).mpr ?_
    -- no prefix has more keys than the whole
    have hsub : ((pre ++ [call]).map Call.key).dedup ⊆ (calls.map Call.key).dedup := by
      intro k hk
      rw [List.mem_dedup] at hk ⊢
      rw [heq, List.append_cons, List.map_append]
      exact List.mem_append_left _ hk
    have hle := (List.nodup_dedup _).length_le_of_subset hsub
    omega

/-- Where the capacity is no `float`, the first check raises. -/
theorem safe_of_beyond (hbeyond : BeyondFloat c.capacity) (calls : List Call) :
    Along (checked c) (FailsSafely c) ∅ calls ↔ calls = [] := by
  cases calls with
  | nil => exact iff_of_true trivial rfl
  | cons call calls =>
      refine iff_of_false (fun h => ?_) (List.cons_ne_nil _ _)
      have hverdict := h.1.verdict
      rw [check, if_pos hbeyond] at hverdict
      rcases hverdict with heq | ⟨e, heq⟩
      · exact Verdict.noConfusion heq
      · exact Verdict.noConfusion heq

/-- **WHEN THE LIMITER FAILS SAFELY**: exactly in the runs that are configured
    for. -/
theorem failsSafely_iff (c : RateLimits) (hmax : 1 ≤ c.maxTrackedKeys) (calls : List Call) :
    Along (checked c) (FailsSafely c) ∅ calls ↔ Configured c calls := by
  have hnonneg : 0 ≤ c.maxTrackedKeys := le_trans (by decide) hmax
  rw [Configured]
  by_cases hbeyond : BeyondFloat c.capacity
  · rw [safe_of_beyond hbeyond, or_iff_left fun h => h.1 hbeyond]
  rw [and_iff_right hbeyond, checked_of_fits hbeyond]
  rcases calls with _ | ⟨call, rest⟩
  · exact iff_of_true trivial (Or.inl rfl)
  rw [or_iff_right (List.cons_ne_nil _ _)]
  split
  · next hzero =>
      rw [safe_of_zero hbeyond hzero hnonneg, hasToken_along_iff hnonneg hzero]
  · next hrate =>
      by_cases hcapacity : 1 ≤ c.capacity
      · exact iff_of_true (safe_of_capacity hbeyond hcapacity hrate hnonneg _) (Or.inl hcapacity)
      · rw [or_iff_right hcapacity]
        exact safe_of_refusing hbeyond (not_le.mp hcapacity) hrate hnonneg _

/-! ## A limiter that never refills -/

/-- Two checks of one key on one token that is never refilled. -/
def unrefilled : List Call := [⟨"alice", 0⟩, ⟨"alice", 1⟩]

theorem unrefilled_iff :
    Along (checked ⟨1, 0, 10000⟩) (FailsSafely ⟨1, 0, 10000⟩) ∅ unrefilled ↔
      Configured ⟨1, 0, 10000⟩ unrefilled :=
  failsSafely_iff ⟨1, 0, 10000⟩ (by decide) unrefilled

/-- The second check divides by zero, and its bucket is gone. -/
theorem second_check_raises :
    ¬ Along (checked ⟨1, 0, 10000⟩) (FailsSafely ⟨1, 0, 10000⟩) ∅ unrefilled := by
  rintro ⟨-, hsecond, -⟩
  have hraised : (check ⟨1, 0, 10000⟩ (checked ⟨1, 0, 10000⟩ ∅ ⟨"alice", 0⟩) "alice" 1).1
      = .zeroDivision := by decide +kernel
  rcases hsecond.verdict with heq | ⟨e, heq⟩
  · exact Verdict.noConfusion (hraised.symm.trans heq)
  · exact Verdict.noConfusion (hraised.symm.trans heq)

end LimiterSafety
