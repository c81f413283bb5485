import OutcomeAssurance.DigitGroups
import OutcomeAssurance.LocalSubstitution
import OutcomeAssurance.RedactionComplete

/-! # The patterns for numbers

    What `AU_PHONE` and `CREDIT_CARD` match, in groups of digits.  A number of
    either kind begins with a digit or with `+`, and after a space inside of it
    come digits. -/

namespace MobileNumbers

open DigitGroups PyRuntime PyText Backtracking Guardrails RedactedDisplay RedactionComplete

variable {R : Type} {rt : Runtime R} {b a : Option Char} {x : List Char}

/-! ## The two written forms -/

inductive Form where
  /-- `04dd ddd ddd`. -/
  | trunk
  /-- `+61 4dd ddd ddd`. -/
  | international
  deriving DecidableEq, Repr

/-- A separator of `AU_PHONE`. -/
def isSeparator (c : Char) : Bool := isSpace c || c = '-'

/-- The digits after the `4`, with the separators the pattern allows. -/
structure EightDigits (rt : Runtime R) where
  first : List Char
  firstGap : List Char
  second : List Char
  secondGap : List Char
  third : List Char
  first_digits : Digits rt.isDigit 2 first
  firstGap_separates : AtMostOne isSeparator firstGap
  second_digits : Digits rt.isDigit 3 second
  secondGap_separates : AtMostOne isSeparator secondGap
  third_digits : Digits rt.isDigit 3 third

def EightDigits.chars (n : EightDigits rt) : List Char :=
  n.first ++ (n.firstGap ++ (n.second ++ (n.secondGap ++ n.third)))

/-- What stands before them. -/
inductive Lead : Form → List Char → Prop where
  | trunk : Lead .trunk ['0', '4']
  | international (gap : List Char) :
      AtMostOne isSpace gap → Lead .international ('+' :: '6' :: '1' :: (gap ++ ['4']))

/-- A mobile number as it is written. -/
structure Mobile (rt : Runtime R) extends EightDigits rt where
  form : Form
  lead : List Char
  lead_written : Lead form lead

def Mobile.chars (m : Mobile rt) : List Char := m.lead ++ m.toEightDigits.chars

def Mobile.text (m : Mobile rt) : String := String.ofList m.chars

/-! ## What `AU_PHONE` matches -/

/-- The part of `AU_PHONE` after the `4`. -/
def eightDigits (rt : Runtime R) : Pattern :=
  let digit := Pattern.one rt.isDigit
  let separator := Pattern.opt (.one isSeparator)
  .times 2 digit (.seq separator (.times 3 digit (.seq separator (.times 3 digit .boundary))))

theorem eightDigits_iff : Matches rt.isWord (eightDigits rt) b x a ↔
    ∃ n : EightDigits rt, x = n.chars ∧ Edge rt.isWord (x.getLast?.or b) a := by
  have hlast (n : EightDigits rt) : n.third.getLast?.or (n.secondGap.getLast?.or
      (n.second.getLast?.or (n.firstGap.getLast?.or (n.first.getLast?.or b))))
        = n.chars.getLast?.or b := by
    simp only [EightDigits.chars, List.getLast?_append, Option.or_assoc]
  simp only [eightDigits, matches_times_one, matches_opt_one_seq, matches_boundary]
  constructor
  · rintro ⟨g, _, hg, rfl, s, _, hs, rfl, h, _, hh, rfl, t, _, ht, rfl, k, _, hk, rfl, rfl, hedge⟩
    let n : EightDigits rt := ⟨g, s, h, t, k, hg, hs, hh, ht, hk⟩
    rw [List.append_nil]
    exact ⟨n, rfl, hlast n ▸ hedge⟩
  · rintro ⟨n, rfl, hedge⟩
    rw [← hlast n] at hedge
    exact ⟨n.first, _, n.first_digits, rfl, n.firstGap, _, n.firstGap_separates, rfl,
      n.second, _, n.second_digits, rfl, n.secondGap, _, n.secondGap_separates, rfl,
      n.third, [], n.third_digits, (List.append_nil _).symm, rfl, hedge⟩

/-- The part of `AU_PHONE` up to the `4`. -/
def leadPattern : Form → Pattern
  | .trunk => .seq (.one (· = '0')) (.one (· = '4'))
  | .international => .seq (.one (· = '+')) (.seq (.one (· = '6')) (.seq (.one (· = '1'))
      (.seq (.opt (.one isSpace)) (.one (· = '4')))))

theorem Lead.getLast? {f : Form} {lead : List Char} (h : Lead f lead) :
    lead.getLast? = some '4' := by
  cases h with
  | trunk => rfl
  | international gap => simp [List.getLast?_cons]

theorem leadPattern_iff (f : Form) {s : Pattern} :
    Matches rt.isWord (.seq (leadPattern f) s) b x a ↔
      ∃ lead y, Lead f lead ∧ x = lead ++ y ∧ Matches rt.isWord s (some '4') y a := by
  cases f with
  | trunk =>
      simp only [leadPattern, matches_seq_seq, matches_one_seq, decide_eq_true_eq]
      constructor
      · rintro ⟨_, _, rfl, rfl, _, y, rfl, rfl, hs⟩
        exact ⟨_, y, .trunk, rfl, hs⟩
      · rintro ⟨_, y, ⟨⟩, rfl, hs⟩
        exact ⟨'0', '4' :: y, rfl, rfl, '4', y, rfl, rfl, hs⟩
  | international =>
      simp only [leadPattern, matches_seq_seq, matches_one_seq, matches_opt_one_seq,
        decide_eq_true_eq]
      constructor
      · rintro ⟨_, _, rfl, rfl, _, _, rfl, rfl, _, _, rfl, rfl, gap, _, hgap, rfl, _, y, rfl, rfl,
          hs⟩
        exact ⟨_, y, .international gap hgap, by simp, hs⟩
      · rintro ⟨_, y, hlead, rfl, hs⟩
        cases hlead with
        | international gap hgap =>
            exact ⟨'+', _, rfl, rfl, '6', _, rfl, rfl, '1', _, rfl, rfl, gap, '4' :: y, hgap,
              by simp, '4', y, rfl, rfl, hs⟩

/-- `AU_PHONE` matches the numbers of both forms, between word boundaries. -/
theorem auPhone_iff : Matches rt.isWord (auPhone rt) b x a ↔ ∃ m : Mobile rt, x = m.chars
    ∧ Edge rt.isWord b (x.head?.or a) ∧ Edge rt.isWord (x.getLast?.or b) a := by
  have hlast {f : Form} {lead : List Char} (hlead : Lead f lead) (y : List Char) :
      (lead ++ y).getLast?.or b = y.getLast?.or (some '4') := by
    rw [List.getLast?_append, hlead.getLast?, Option.or_assoc]
    rfl
  rw [show auPhone rt = .seq .boundary (.seq (.alt (leadPattern .international)
    (leadPattern .trunk)) (eightDigits rt)) from rfl, matches_boundary_seq, matches_alt_seq,
    leadPattern_iff, leadPattern_iff]
  constructor
  · rintro ⟨hfirst, ⟨lead, y, hlead, rfl, hdigits⟩ | ⟨lead, y, hlead, rfl, hdigits⟩⟩
    all_goals
      obtain ⟨n, rfl, hedge⟩ := eightDigits_iff.mp hdigits
      exact ⟨⟨n, _, lead, hlead⟩, rfl, hfirst, hlast hlead n.chars ▸ hedge⟩
  · rintro ⟨⟨n, f, lead, hlead⟩, rfl, hfirst, hedge⟩
    have hdigits : Matches rt.isWord (eightDigits rt) (some '4') n.chars a :=
      eightDigits_iff.mpr ⟨n, rfl, hlast hlead n.chars ▸ hedge⟩
    refine ⟨hfirst, ?_⟩
    cases f with
    | trunk => exact Or.inr ⟨lead, n.chars, hlead, rfl, hdigits⟩
    | international => exact Or.inl ⟨lead, n.chars, hlead, rfl, hdigits⟩

/-! ## Character classes -/

/-- What Unicode says of the classes of `re`: a decimal digit is alphanumeric, a
    white space is not. -/
structure UnicodeClasses (rt : Runtime R) : Prop where
  word_of_digit : ∀ c, rt.isDigit c = true → rt.isWord c = true
  not_word_of_space : ∀ c, isSpace c = true → rt.isWord c = false

theorem ascii_digit (rt : Runtime R) {c : Char} (hascii : c.toNat < 128)
    (hdigit : c.isDigit = true) : rt.isDigit c = true := by
  rw [rt.isDigit_ascii c hascii, hdigit]

theorem ascii_other (rt : Runtime R) {c : Char} (hascii : c.toNat < 128)
    (hword : (c.isAlphanum || c = '_') = false) : rt.isWord c = false := by
  rw [rt.isWord_ascii c hascii, hword]

namespace UnicodeClasses

variable (hrt : UnicodeClasses rt)
include hrt

theorem not_digit {c : Char} (h : rt.isWord c = false) : rt.isDigit c = false := by
  by_contra hdigit
  rw [hrt.word_of_digit c (Bool.not_eq_false _ ▸ hdigit)] at h
  cases h

theorem not_word_of_separator {c : Char} (h : isSeparator c = true) : rt.isWord c = false := by
  rcases Bool.or_eq_true_iff.mp h with h | h
  · exact hrt.not_word_of_space c h
  · obtain rfl := of_decide_eq_true h
    exact ascii_other rt (by decide) (by decide)

theorem not_separator {c : Char} (h : rt.isDigit c = true) : isSeparator c = false := by
  by_contra hsep
  have hother := hrt.not_digit (hrt.not_word_of_separator (Bool.not_eq_false _ ▸ hsep))
  rw [h] at hother
  cases hother

end UnicodeClasses

/-! ## Numbers in groups -/

variable {m : Mobile rt}

theorem EightDigits.grouped (n : EightDigits rt) {k : Nat} {g : List Char}
    (hg : Digits rt.isDigit k g) :
    Grouped rt.isDigit isSeparator [k + 2, 3, 3] (g ++ n.chars) := by
  have hfirst : Digits rt.isDigit (k + 2) (g ++ n.first) := by
    refine ⟨by rw [List.length_append, hg.1, n.first_digits.1], fun c hc => ?_⟩
    rcases List.mem_append.mp hc with hc | hc
    · exact hg.2 c hc
    · exact n.first_digits.2 c hc
  rw [EightDigits.chars, ← List.append_assoc]
  exact .group (Nat.succ_pos _) hfirst n.firstGap_separates
    (.group (by decide) n.second_digits n.secondGap_separates (.last (by decide) n.third_digits))

theorem digits_zero_four (rt : Runtime R) : Digits rt.isDigit 2 ['0', '4'] := by
  refine ⟨rfl, List.forall_mem_cons.mpr ⟨?_, List.forall_mem_singleton.mpr ?_⟩⟩
  · exact ascii_digit rt (by decide) (by decide)
  · exact ascii_digit rt (by decide) (by decide)

theorem digits_four (rt : Runtime R) : Digits rt.isDigit 1 ['4'] :=
  ⟨rfl, List.forall_mem_singleton.mpr (ascii_digit rt (by decide) (by decide))⟩

/-- A number with `04`: ten digits in groups. -/
theorem Mobile.grouped (h : m.form = .trunk) :
    Grouped rt.isDigit isSeparator [4, 3, 3] m.chars := by
  obtain ⟨n, f, lead, hlead⟩ := m
  cases hlead with
  | trunk => exact n.grouped (digits_zero_four rt)
  | international gap hgap => cases h

/-- A number with `+61`: nine more digits in groups. -/
theorem Mobile.grouped_after (h : m.form = .international) : ∃ gap y, AtMostOne isSpace gap ∧
    m.chars = '+' :: '6' :: '1' :: (gap ++ y)
      ∧ Grouped rt.isDigit isSeparator (List.replicate 3 3) y := by
  obtain ⟨n, f, lead, hlead⟩ := m
  cases hlead with
  | trunk => cases h
  | international gap hgap =>
      refine ⟨gap, '4' :: n.chars, hgap, ?_, n.grouped (digits_four rt)⟩
      simp [Mobile.chars]

/-- The separators of `CREDIT_CARD`. -/
def isCardSeparator (c : Char) : Bool := c = ' ' || c = '-'

theorem UnicodeClasses.not_cardSeparator (hrt : UnicodeClasses rt) {c : Char}
    (h : rt.isDigit c = true) : isCardSeparator c = false := by
  refine Bool.eq_false_iff.mpr fun hsep => ?_
  have hseparator : isSeparator c = true := by
    rcases Bool.or_eq_true_iff.mp hsep with hc | hc
    · obtain rfl := of_decide_eq_true hc
      decide
    · exact Bool.or_eq_true_iff.mpr (Or.inr hc)
  rw [hrt.not_separator h] at hseparator
  cases hseparator

theorem groups_of_four (k : Nat)
    (h : Matches rt.isWord (.times k (.times 4 (.one rt.isDigit) (.opt (.one isCardSeparator)))
      (.times 4 (.one rt.isDigit) .boundary)) b x a) :
    Grouped rt.isDigit isCardSeparator (List.replicate (k + 1) 4) x := by
  induction k generalizing b x with
  | zero =>
      obtain ⟨g, y, hg, rfl, rfl, -⟩ := (matches_times_one 4).mp h
      rw [List.append_nil]
      exact .last (by decide) hg
  | succ k ih =>
      obtain ⟨g, y, hg, rfl, hy⟩ := (matches_times_one 4).mp ((matches_times_seq 4).mp h)
      obtain ⟨s, z, hs, rfl, hz⟩ := matches_opt_one_seq.mp hy
      exact .group (by decide) hg hs (ih hz)

/-- `CREDIT_CARD` matches four groups of four digits. -/
theorem creditCard_grouped (h : Matches rt.isWord (creditCard rt) b x a) :
    Grouped rt.isDigit isCardSeparator (List.replicate 4 4) x :=
  groups_of_four 3 (matches_boundary_seq.mp h).2

/-! ## Where a match begins, and what comes after a space -/

theorem auPhone_start {c : Char} {l : List Char} (hplus : c ≠ '+') (hzero : c ≠ '0') :
    ends rt.isWord (auPhone rt) ⟨b, c :: l⟩ = [] := by
  refine ends_eq_nil.mpr fun x post hx hmatch => ?_
  obtain ⟨⟨n, f, lead, hlead⟩, rfl, -⟩ := auPhone_iff.mp hmatch
  cases hlead with
  | trunk => exact hzero (List.cons.inj hx).1
  | international gap hgap => exact hplus (List.cons.inj hx).1

theorem creditCard_start {c : Char} {l : List Char} (hc : rt.isDigit c = false) :
    ends rt.isWord (creditCard rt) ⟨b, c :: l⟩ = [] := by
  refine ends_eq_nil.mpr fun x post hx hmatch => ?_
  obtain ⟨d, y, rfl, hd⟩ := (creditCard_grouped hmatch).eq_cons
  obtain ⟨rfl, -⟩ := List.cons.inj hx
  rw [hc] at hd
  cases hd

theorem space_not_digit (rt : Runtime R) : rt.isDigit ' ' = false :=
  rt.isDigit_ascii ' ' (by decide)

/-- After a space in a mobile number come groups of three digits. -/
theorem Mobile.after_space (m : Mobile rt) {y z : List Char} (h : m.chars = y ++ ' ' :: z) :
    ∃ k, 0 < k ∧ k ≤ 3 ∧ Grouped rt.isDigit isSeparator (List.replicate k 3) z := by
  cases hform : m.form with
  | trunk =>
      obtain ⟨j, hj, hlt, hz⟩ := (m.grouped hform).after (space_not_digit rt) h
      rw [List.length_cons, List.length_cons, List.length_singleton] at hlt
      interval_cases j
      · exact ⟨2, by omega, by omega, hz⟩
      · exact ⟨1, by omega, by omega, hz⟩
  | international =>
      -- none of `+61` is a space
      obtain ⟨gap, w, hgap, hchars, hgroups⟩ := m.grouped_after hform
      have hplus : ' ' ∉ ['+', '6', '1'] := by decide
      obtain ⟨v, -, hv⟩ := split_notMem hplus (hchars.symm.trans h)
      rcases hgap.split hv with rfl | ⟨u, hu⟩
      · exact ⟨3, by omega, by omega, hgroups⟩
      · obtain ⟨j, hj, hlt, hz⟩ := hgroups.after (space_not_digit rt) hu
        rw [List.length_replicate] at hlt
        rw [List.drop_replicate] at hz
        exact ⟨3 - j, by omega, by omega, hz⟩

/-- Only a digit comes after a space in a match. -/
def DigitAfterSpace (rt : Runtime R) (r : Pattern) : Prop :=
  ∀ b a x y z, Matches rt.isWord r b x a → x = y ++ ' ' :: z →
    ∃ c t, z = c :: t ∧ rt.isDigit c = true

theorem auPhone_digitAfterSpace (rt : Runtime R) : DigitAfterSpace rt (auPhone rt) := by
  intro b a x y z hmatch hx
  obtain ⟨m, rfl, -⟩ := auPhone_iff.mp hmatch
  obtain ⟨k, -, -, hz⟩ := m.after_space hx
  exact hz.eq_cons

theorem creditCard_digitAfterSpace (rt : Runtime R) : DigitAfterSpace rt (creditCard rt) := by
  intro b a x y z hmatch hx
  obtain ⟨j, -, -, hz⟩ := (creditCard_grouped hmatch).after (space_not_digit rt) hx
  exact hz.eq_cons

theorem DigitAfterSpace.barrier {r : Pattern} {w : List Char} (h : DigitAfterSpace rt r)
    (hw : EndsRun rt.isDigit w) : Barrier rt.isWord r ' ' w := by
  rintro b y z post rfl hmatch
  obtain ⟨c, t, rfl, hc⟩ := h b _ _ y z hmatch rfl
  rw [hw c rfl] at hc
  cases hc

theorem email_only_space : Only (fun c => c ≠ ' ') email := by
  refine ⟨?_, ?_, ?_, ?_, ?_⟩
  all_goals
    intro c hc
    refine decide_eq_true ?_
    rintro rfl
    cases hc

theorem email_barrier {w : List Char} : Barrier rt.isWord email ' ' w := by
  intro b y z post _ hmatch
  have hspace := email_only_space.forall_mem hmatch ' '
    (List.mem_append_right y List.mem_cons_self)
  exact of_decide_eq_true hspace rfl

/-- A number with `04` in a run of four, seven or ten digits is not reached from
    a space before it. -/
theorem auPhone_barrier_of_run (hrt : UnicodeClasses rt) {g t : List Char}
    (hg : ∀ c ∈ g, rt.isDigit c = true) (ht : EndsRun rt.isDigit t) (hlength : g.length % 3 = 1) :
    Barrier rt.isWord (auPhone rt) ' ' (g ++ t) := by
  intro b y z post hw hmatch
  obtain ⟨m, hx, -, hedge⟩ := auPhone_iff.mp hmatch
  obtain ⟨k, hk, hle, hz⟩ := m.after_space hx.symm
  rcases hz.run (fun c => hrt.not_separator) hg ht hw.symm with
    ⟨hsum, r, rfl, rfl⟩ | ⟨j, hj, hlt, hsum, -⟩
  · -- the number ends in front of another digit
    rw [List.sum_replicate_nat] at hsum
    cases r with
    | nil =>
        rw [List.append_nil, hsum] at hlength
        omega
    | cons d r =>
        obtain ⟨c, hc, hdigit⟩ := hz.getLast?
        refine hedge ?_
        rw [List.getLast?_append, Option.or_assoc, last_cons, hc]
        show rt.isWord c = rt.isWord d
        rw [hrt.word_of_digit c hdigit,
          hrt.word_of_digit d (hg d (List.mem_append_right z List.mem_cons_self))]
  · rw [List.length_replicate] at hlt
    rw [List.take_replicate, Nat.min_eq_left hlt.le, List.sum_replicate_nat] at hsum
    omega

end MobileNumbers
