import OutcomeAssurance.PyText

/-! # What the interpreter supplies

    The pipeline calls into Python's own tables and libraries: Unicode case
    folding and character classes, `repr`, SHA-256 and floating point.  The
    model takes them as a parameter with the facts about ASCII text that the
    rules below rely on; every result holds for each such runtime. -/

namespace PyRuntime

open PyText

/-- The arithmetic of `app/retrieval.py`; `sum` and `round` are the built-ins. -/
structure Numerics (R : Type) where
  ofNat : Nat → R
  add : R → R → R
  mul : R → R → R
  div : R → R → R
  sum : List R → R
  log : R → R
  sqrt : R → R
  isZero : R → Bool
  lt : R → R → Bool
  round : R → Nat → R

structure Runtime (R : Type) where
  /-- `str.lower`. -/
  lower : String → String
  lower_ascii : ∀ s, IsAscii s → lower s = asciiLower s
  /-- `\\w` in a pattern. -/
  isWord : Char → Bool
  isWord_ascii : ∀ c : Char, c.toNat < 128 → isWord c = (c.isAlphanum || c = '_')
  /-- `\\d` in a pattern. -/
  isDigit : Char → Bool
  isDigit_ascii : ∀ c : Char, c.toNat < 128 → isDigit c = c.isDigit
  /-- `repr` of a string. -/
  repr : String → String
  /-- The hex digest of the UTF-8 encoding. -/
  sha256 : String → String
  numerics : Numerics R

/-- Double precision arithmetic, up to the rounding of `sum` and `round`. -/
def doubles : Numerics Float where
  ofNat := Float.ofNat
  add := (· + ·)
  mul := (· * ·)
  div := (· / ·)
  sum := List.foldl (· + ·) 0
  log := Float.log
  sqrt := Float.sqrt
  isZero x := x == 0
  lt x y := decide (x < y)
  round x digits := (x * 10 ^ Float.ofNat digits).round / 10 ^ Float.ofNat digits

/-- A runtime for ASCII text: what lies outside ASCII is kept as it is, and
    digests are the text itself. -/
instance : Inhabited (Runtime Float) where
  default :=
    { lower := asciiLower
      lower_ascii := fun _ _ => rfl
      isWord := fun c => c.isAlphanum || c = '_'
      isWord_ascii := fun _ _ => rfl
      isDigit := Char.isDigit
      isDigit_ascii := fun _ _ => rfl
      repr := fun s => "'" ++ s ++ "'"
      sha256 := id
      numerics := doubles }

/-! ## Truth values of optional strings -/

/-- `if d.get(key):` for a string value. -/
def truthy : Option String → Bool
  | none => false
  | some s => s ≠ ""

end PyRuntime
