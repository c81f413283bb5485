import Mathlib.Data.List.Infix

/-! # Python strings

    The operations of `str` the repository uses, on Lean strings: `strip`,
    the substring test, and zero padding.  Case folding is here for ASCII only;
    the rest of it is the interpreter's. -/

namespace PyText

/-- `str.isspace` of one character. -/
def isSpace (c : Char) : Bool :=
  c.toNat ∈ [0x09, 0x0a, 0x0b, 0x0c, 0x0d, 0x1c, 0x1d, 0x1e, 0x1f, 0x20, 0x85, 0xa0, 0x1680,
    0x2000, 0x2001, 0x2002, 0x2003, 0x2004, 0x2005, 0x2006, 0x2007, 0x2008, 0x2009, 0x200a,
    0x2028, 0x2029, 0x202f, 0x205f, 0x3000]

/-- `s.strip()`. -/
def strip (s : String) : String :=
  String.ofList ((s.toList.dropWhile isSpace).reverse.dropWhile isSpace).reverse

/-- `sub in s`. -/
def occursIn (sub s : String) : Bool := sub.toList <:+: s.toList

/-- `s.lower()` of an ASCII string. -/
def asciiLower (s : String) : String := String.ofList (s.toList.map Char.toLower)

def IsAscii (s : String) : Prop := ∀ c ∈ s.toList, c.toNat < 128

instance (s : String) : Decidable (IsAscii s) :=
  List.decidableBAll (fun c : Char => c.toNat < 128) s.toList

/-- `f"{n:0{width}d}"`. -/
def zeroPad (width n : Nat) : String :=
  String.ofList (List.replicate (width - (Nat.toDigits 10 n).length) '0' ++ Nat.toDigits 10 n)

/-! ## Reading composed names back -/

theorem not_mem_zeroPad (width n : Nat) : '-' ∉ (zeroPad width n).toList := by
  rw [zeroPad, String.toList_ofList, List.mem_append]
  rintro (h | h)
  · exact absurd (List.eq_of_mem_replicate h) (by decide)
  · exact absurd (Nat.isDigit_of_mem_toDigits (by decide) (by decide) h) (by decide)

theorem zeroPad_injective {width m n : Nat} (h : zeroPad width m = zeroPad width n) : m = n := by
  have hread : ∀ k, Nat.ofDigitChars 10 (zeroPad width k).toList 0 = k := by
    intro k
    rw [zeroPad, String.toList_ofList, Nat.ofDigitChars_append, Nat.ofDigitChars_replicate_zero,
      Nat.mul_zero, Nat.ofDigitChars_ten_toDigits]
  rw [← hread m, h, hread n]

/-- The last separator of a name splits it. -/
theorem append_dash_inj {a a' b b' : String} (hb : '-' ∉ b.toList) (hb' : '-' ∉ b'.toList)
    (h : a ++ "-" ++ b = a' ++ "-" ++ b') : a = a' ∧ b = b' := by
  have hlist : a.toList ++ '-' :: b.toList = a'.toList ++ '-' :: b'.toList := by
    simpa using congrArg String.toList h
  rcases List.append_eq_append_iff.mp hlist with ⟨t, hpre, hpost⟩ | ⟨t, hpre, hpost⟩
  · cases t with
    | nil =>
        refine ⟨String.toList_inj.mp (by simpa using hpre.symm), String.toList_inj.mp ?_⟩
        exact (List.cons.inj hpost).2
    | cons x t =>
        refine absurd ?_ hb
        rw [(List.cons.inj hpost).2]
        simp
  · cases t with
    | nil =>
        refine ⟨String.toList_inj.mp (by simpa using hpre), String.toList_inj.mp ?_⟩
        exact (List.cons.inj hpost).2.symm
    | cons x t =>
        refine absurd ?_ hb'
        rw [(List.cons.inj hpost).2]
        simp

end PyText
