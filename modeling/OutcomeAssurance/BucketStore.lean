import OutcomeAssurance.RateLimiter
import OutcomeAssurance.RecentlyUsed

/-! # The bucket store

    A check takes the bucket of its key out and puts it back behind the others;
    only an admitted check drops the first bucket when there are too many.  A
    key without a bucket finds a full one, so with room for a token it is always
    admitted, and the store holds exactly the keys checked last. -/

namespace BucketStore

open PyDict Runs TokenBucket RateLimiter RecentlyUsed

/-- The keys with a bucket, in the order of `_buckets`. -/
def trackedKeys (buckets : Buckets) : List String := buckets.items.map Prod.fst

/-- `max_tracked_keys`, which is not negative. -/
def room (c : RateLimits) : ℕ := c.maxTrackedKeys.toNat

variable {c : RateLimits} {buckets : Buckets} {call : Call} {key : String}

/-! ## One check -/

theorem mem_trackedKeys : key ∈ trackedKeys buckets ↔ buckets.has key = true := by
  rw [trackedKeys, List.mem_map, Dict.has, Option.isSome_iff_exists]
  constructor
  · rintro ⟨⟨k, b⟩, hmem, rfl⟩
    exact ⟨b, Dict.mem_items.mp hmem⟩
  · rintro ⟨b, hget⟩
    exact ⟨(key, b), Dict.mem_items.mpr hget, rfl⟩

theorem nodup_trackedKeys (buckets : Buckets) : (trackedKeys buckets).Nodup := buckets.nodup

/-- **TAKEN OUT AND PUT BACK**: the key is behind the others. -/
theorem trackedKeys_restored (buckets : Buckets) (key : String) (b : Bucket ℚ) :
    trackedKeys (restored buckets key b) = touch (trackedKeys buckets) key := by
  have hkeys : (buckets.pop key).items.map Prod.fst = (trackedKeys buckets).filter (· ≠ key) := by
    rw [trackedKeys, List.filter_map]
    rfl
  have hout : key ∉ (buckets.pop key).items.map Prod.fst := by
    rw [hkeys, List.mem_filter]
    rintro ⟨-, hne⟩
    exact of_decide_eq_true hne rfl
  show (put (buckets.pop key).items key b).map Prod.fst = _
  rw [put_of_notMem hout, List.map_append, hkeys]
  rfl

/-- A key without a bucket finds the tokens of a full one. -/
theorem tokensAt_of_untracked (h : buckets.has key = false) (now : ℚ) :
    tokensAt c buckets key now = c.capacity := by
  have hnone : buckets.get key = none := by
    rw [Dict.has, Option.isSome_eq_false_iff, Option.isNone_iff_eq_none] at h
    exact h
  rw [tokensAt, bucketOf, hnone, Option.getD_none, Params.refill, Params.fresh, sub_self,
    zero_mul, add_zero, min_self]
  rfl

/-- **A NEW KEY IS ADMITTED** where a bucket holds a token at all. -/
theorem tracked_of_refused (hcapacity : 1 ≤ c.capacity)
    (h : tokensAt c buckets call.key call.now < 1) : call.key ∈ trackedKeys buckets := by
  rw [mem_trackedKeys]
  by_contra hnot
  rw [tokensAt_of_untracked (Bool.not_eq_true _ ▸ hnot)] at h
  have hone : (1 : ℚ) ≤ c.capacity := by exact_mod_cast hcapacity
  linarith

/-- An admitted check moves its key to the end and drops the first one if there
    are too many. -/
theorem trackedKeys_admitted (hmax : 0 ≤ c.maxTrackedKeys)
    (h : 1 ≤ tokensAt c buckets call.key call.now) :
    trackedKeys (step c buckets call) = trim (room c) (touch (trackedKeys buckets) call.key) := by
  rw [step, checkTokens, if_neg (not_lt.mpr h), trim,
    ← trackedKeys_restored buckets call.key ⟨tokensAt c buckets call.key call.now - 1, call.now⟩]
  show trackedKeys (if _ then _ else _ : Buckets) = _
  have hroom : (room c : Int) = c.maxTrackedKeys := Int.toNat_of_nonneg hmax
  have hlength : ∀ d : Buckets, (trackedKeys d).length = d.items.length := fun d =>
    List.length_map ..
  rw [hlength]
  split
  · rw [if_pos (by omega)]
    exact List.map_tail ..
  · rw [if_neg (by omega)]

/-- A refused check moves its key to the end and drops none. -/
theorem trackedKeys_refused (hrate : c.refillRate ≠ 0)
    (h : tokensAt c buckets call.key call.now < 1) :
    trackedKeys (step c buckets call) = touch (trackedKeys buckets) call.key := by
  rw [step, checkTokens, if_pos h, if_neg hrate]
  exact trackedKeys_restored ..

/-- **EACH CHECK** of a store within its bounds is one more use of the key,
    whether it is admitted or refused. -/
theorem trackedKeys_step (hcapacity : 1 ≤ c.capacity) (hrate : c.refillRate ≠ 0)
    (hmax : 0 ≤ c.maxTrackedKeys) (hshort : (trackedKeys buckets).length ≤ room c) :
    trackedKeys (step c buckets call) = trim (room c) (touch (trackedKeys buckets) call.key) := by
  by_cases htokens : tokensAt c buckets call.key call.now < 1
  · have hmem := tracked_of_refused hcapacity htokens
    rw [trackedKeys_refused hrate htokens, trim, if_neg]
    rw [length_touch_of_mem (nodup_trackedKeys buckets) hmem]
    omega
  · exact trackedKeys_admitted hmax (not_lt.mp htokens)

/-! ## The store after any checks -/

/-- **THE STORE HOLDS THE KEYS CHECKED LAST.** -/
theorem trackedKeys_run (hcapacity : 1 ≤ c.capacity) (hrate : c.refillRate ≠ 0)
    (hmax : 0 ≤ c.maxTrackedKeys) (calls : List Call) :
    trackedKeys (run (step c) ∅ calls) = recent (room c) (calls.map Call.key) := by
  induction calls using List.reverseRecOn with
  | nil =>
      rw [List.map_nil, recent, List.dedup_nil, List.rtake_nil]
      rfl
  | append_singleton calls call ih =>
      have hshort : (trackedKeys (run (step c) ∅ calls)).length ≤ room c := by
        rw [ih, length_recent]
        exact min_le_left _ _
      rw [run_snoc, trackedKeys_step hcapacity hrate hmax hshort, ih, List.map_append,
        List.map_singleton, recent_concat]

/-- **WHEN A KEY LOSES ITS BUCKET**: once as many other keys have been checked
    as there are places. -/
theorem untracked_iff (hcapacity : 1 ≤ c.capacity) (hrate : c.refillRate ≠ 0)
    (hmax : 0 ≤ c.maxTrackedKeys) {before after : List Call}
    (hout : call.key ∉ after.map Call.key) :
    (run (step c) ∅ (before ++ call :: after)).has call.key = false ↔
      c.maxTrackedKeys ≤ (after.map Call.key).dedup.length := by
  have hroom : (room c : Int) = c.maxTrackedKeys := Int.toNat_of_nonneg hmax
  have hkeys := trackedKeys_run hcapacity hrate hmax (before ++ call :: after)
  rw [List.map_append, List.map_cons] at hkeys
  rw [← Bool.not_eq_true, ← mem_trackedKeys, hkeys, mem_recent_iff hout]
  omega

/-- Until then it has the bucket that its last check left. -/
theorem get_until_untracked (hcapacity : 1 ≤ c.capacity) (hrate : c.refillRate ≠ 0)
    (hmax : 0 ≤ c.maxTrackedKeys) {before after : List Call}
    (hout : call.key ∉ after.map Call.key)
    (hfew : ((after.map Call.key).dedup.length : Int) < c.maxTrackedKeys) :
    (run (step c) ∅ (before ++ call :: after)).get call.key =
      some (leftBucket c (run (step c) ∅ before) call) := by
  have hkept : ∀ after : List Call, call.key ∉ after.map Call.key →
      ((after.map Call.key).dedup.length : Int) < c.maxTrackedKeys →
      (run (step c) ∅ (before ++ call :: after)).has call.key ≠ false := by
    intro after hout hfew hgone
    have hmany := (untracked_iff hcapacity hrate hmax hout).mp hgone
    omega
  induction after using List.reverseRecOn with
  | nil =>
      have hstep := hkept [] hout hfew
      rw [run_snoc] at hstep ⊢
      rw [get_step (fun _ => hrate) (Or.inr rfl) fun h => hstep h.2, if_pos rfl]
  | append_singleton after other ih =>
      have hstep := hkept (after ++ [other]) hout hfew
      rw [List.map_append, List.mem_append, not_or, List.map_singleton, List.mem_singleton] at hout
      have hfewer : ((after.map Call.key).dedup.length : Int) < c.maxTrackedKeys := by
        have hsub : (after.map Call.key).dedup.length
            ≤ ((after ++ [other]).map Call.key).dedup.length := by
          refine (List.nodup_dedup _).length_le_of_subset fun k hk => ?_
          rw [List.mem_dedup] at hk ⊢
          rw [List.map_append]
          exact List.mem_append_left _ hk
        omega
      have hget := ih hout.1 hfewer
      have htracked : (run (step c) ∅ (before ++ call :: after)).has call.key = true :=
        Bool.not_eq_false _ ▸ hkept after hout.1 hfewer
      rw [← List.cons_append, ← List.append_assoc, run_snoc] at hstep ⊢
      rw [get_step (fun _ => hrate) (Or.inl htracked) fun h => hstep h.2, if_neg hout.2, hget]

/-- The bucket store as a bounded store of the keys used last: the tracked keys
    are the last `min(n, max_tracked_keys)` of the `n` distinct keys, and a key
    starts afresh only after `max_tracked_keys` other keys. -/
structure ExactlyRecent (c : RateLimits) (calls : List Call) : Prop where
  keys : trackedKeys (run (step c) ∅ calls) =
    (calls.map Call.key).dedup.drop ((calls.map Call.key).dedup.length - c.maxTrackedKeys.toNat)
  count : ((trackedKeys (run (step c) ∅ calls)).length : Int) =
    min ((calls.map Call.key).dedup.length : Int) c.maxTrackedKeys
  reset : ∀ before call after, calls = before ++ call :: after →
    call.key ∉ after.map Call.key →
    (run (step c) ∅ calls).get call.key =
      if c.maxTrackedKeys ≤ (after.map Call.key).dedup.length then none
      else some (leftBucket c (run (step c) ∅ before) call)

/-- **AN EXACT BOUNDED STORE** of the keys checked last, after every sequence of
    checks. -/
theorem exactly_recent (c : RateLimits) (hcapacity : 1 ≤ c.capacity) (hrate : 0 < c.refillRate)
    (hmax : 1 ≤ c.maxTrackedKeys) (calls : List Call) : ExactlyRecent c calls := by
  have hnonneg : 0 ≤ c.maxTrackedKeys := le_trans (by decide) hmax
  have hroom : (room c : Int) = c.maxTrackedKeys := Int.toNat_of_nonneg hnonneg
  have hkeys := trackedKeys_run hcapacity hrate.ne' hnonneg calls
  refine ⟨hkeys, ?_, ?_⟩
  · rw [hkeys, length_recent]
    omega
  · rintro before call after rfl hout
    split
    · next hmany =>
        have hgone : (run (step c) ∅ (before ++ call :: after)).has call.key = false :=
          (untracked_iff hcapacity hrate.ne' hnonneg hout).mpr hmany
        exact Option.isNone_iff_eq_none.mp (Option.isSome_eq_false_iff.mp hgone)
    · next hfew => exact get_until_untracked hcapacity hrate.ne' hnonneg hout (by omega)

/-- Three keys on two places: the one checked least recently is gone. -/
theorem oldest_key_dropped : ExactlyRecent ⟨2, 1, 2⟩
    [⟨"alice", 0⟩, ⟨"bob", 0⟩, ⟨"alice", 1⟩, ⟨"carol", 1⟩] :=
  exactly_recent ⟨2, 1, 2⟩ (by decide) (by decide +kernel) (by decide) _

end BucketStore
