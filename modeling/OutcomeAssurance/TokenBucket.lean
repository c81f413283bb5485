import Mathlib.Algebra.Order.Field.Basic
import Mathlib.Tactic.FieldSimp
import Mathlib.Tactic.Linarith
import Mathlib.Tactic.Ring

/-! # Token buckets — what a bucket has given out

    A bucket of tokens that refills at a constant rate up to its capacity.  The
    tokens given out since a moment and those that are left were in the bucket
    at that moment or have been refilled since: refilling keeps this, taking a
    token keeps it, and it bounds what can be given out in any window.  A bucket
    with less than one token holds one again at a moment that looking at it
    does not move. -/

namespace TokenBucket

variable {K : Type*}

/-- How much a bucket holds, and how fast it refills. -/
structure Params (K : Type*) where
  capacity : K
  rate : K

/-- The tokens a bucket held when it was last looked at. -/
structure Bucket (K : Type*) where
  tokens : K
  last : K
  deriving DecidableEq, Repr

variable [Field K] [LinearOrder K] [IsStrictOrderedRing K]

/-- A bucket nobody has taken from. -/
def Params.fresh (p : Params K) (now : K) : Bucket K := ⟨p.capacity, now⟩

/-- The tokens of the bucket at a later moment. -/
def Params.refill (p : Params K) (b : Bucket K) (now : K) : K :=
  min p.capacity (b.tokens + (now - b.last) * p.rate)

variable {p : Params K} {b : Bucket K} {s t now : K} {n : Nat}

/-- `n` tokens given out since `s` and those left are covered by a full bucket
    at `s` and what has been refilled since. -/
def Params.Covers (p : Params K) (s : K) (n : Nat) (b : Bucket K) : Prop :=
  n + b.tokens ≤ p.capacity + p.rate * (b.last - s)

omit [IsStrictOrderedRing K] in
theorem refill_le_capacity : p.refill b now ≤ p.capacity := min_le_left _ _

omit [IsStrictOrderedRing K] in
theorem refill_le : p.refill b now ≤ b.tokens + (now - b.last) * p.rate := min_le_right _ _

/-- **FROM THE START** of the window any bucket is covered. -/
theorem covers_start (hrate : 0 ≤ p.rate) (hs : s ≤ now) (hfull : b.tokens ≤ p.capacity)
    (hlast : b.last = now) : p.Covers s 0 b := by
  have hrefilled : 0 ≤ p.rate * (now - s) := mul_nonneg hrate (sub_nonneg.mpr hs)
  rw [Params.Covers, hlast, Nat.cast_zero, zero_add]
  linarith

/-- **A REFILL** is covered by the time that has passed. -/
theorem Params.Covers.refill (h : p.Covers s n b) : p.Covers s n ⟨p.refill b now, now⟩ := by
  have hrefill : p.refill b now ≤ b.tokens + (now - b.last) * p.rate := refill_le
  rw [Params.Covers] at h ⊢
  calc (n : K) + p.refill b now
      ≤ n + (b.tokens + (now - b.last) * p.rate) := by linarith
    _ ≤ p.capacity + p.rate * (b.last - s) + (now - b.last) * p.rate := by linarith
    _ = p.capacity + p.rate * (now - s) := by ring

/-- **A TOKEN TAKEN** is one more given out and one less left. -/
theorem Params.Covers.take {x : K} (h : p.Covers s n ⟨x, now⟩) :
    p.Covers s (n + 1) ⟨x - 1, now⟩ := by
  rw [Params.Covers] at h ⊢
  push_cast
  linarith

/-- **THE BOUND**: what has been given out up to some moment of the window. -/
theorem Params.Covers.bound (h : p.Covers s n b) (hrate : 0 ≤ p.rate) (htokens : 0 ≤ b.tokens)
    (ht : b.last ≤ t) : (n : K) ≤ p.capacity + p.rate * (t - s) := by
  have hgrows : p.rate * (b.last - s) ≤ p.rate * (t - s) :=
    mul_le_mul_of_nonneg_left (sub_le_sub_right ht s) hrate
  rw [Params.Covers] at h
  linarith

/-! ## When a token is there again -/

/-- The moment at which the bucket holds one token, were it not for its
    capacity. -/
def Params.readyAt (p : Params K) (b : Bucket K) : K := b.last + (1 - b.tokens) / p.rate

/-- **WHEN A TOKEN IS THERE**: from that moment on. -/
theorem one_le_refill_iff (hcapacity : 1 ≤ p.capacity) (hrate : 0 < p.rate) :
    1 ≤ p.refill b now ↔ p.readyAt b ≤ now := by
  rw [Params.refill, le_min_iff, and_iff_right hcapacity, Params.readyAt,
    ← le_sub_iff_add_le', div_le_iff₀ hrate]
  exact sub_le_iff_le_add'.symm

omit [IsStrictOrderedRing K] in
/-- **LOOKING IS FREE**: a bucket found with less than one token is put back
    with the same moment ahead of it. -/
theorem readyAt_refill (hcapacity : 1 ≤ p.capacity) (hrate : 0 < p.rate)
    (h : p.refill b now < 1) : p.readyAt ⟨p.refill b now, now⟩ = p.readyAt b := by
  -- below one token the capacity does not cut the refill
  have hrefill : p.refill b now = b.tokens + (now - b.last) * p.rate := by
    rw [Params.refill, min_lt_iff, or_iff_right (not_lt.mpr hcapacity)] at h
    exact min_eq_right (h.le.trans hcapacity)
  rw [Params.readyAt, Params.readyAt, hrefill]
  field_simp
  ring

end TokenBucket
