import OutcomeAssurance.MobilePatterns
import OutcomeAssurance.RedactionComplete

/-! # Mobile numbers

    `AU_PHONE` has two written forms behind one `\b`.  In front of a digit the
    boundary is there at the start of a text and after a space; in front of
    `+` it is not.  So of a number that stands alone the form with `04` is
    always redacted, and the form with `+61` never is. -/

namespace MobileNumbers

open DigitGroups PyRuntime PyText Backtracking Guardrails RedactedDisplay RedactionComplete

variable {R : Type} {rt : Runtime R} {m : Mobile rt} {b : Option Char} {u v w : List Char}

/-! ## Standing alone -/

/-- Empty, or with a space at the end. -/
def EndsSpaced (u : List Char) : Prop := u = [] ∨ ∃ t, u = t ++ [' ']

/-- Empty, or with a space at the front. -/
def StartsSpaced (v : List Char) : Prop := v = [] ∨ ∃ t, v = ' ' :: t

/-- No word is about to go on. -/
def Outside (rt : Runtime R) (b : Option Char) : Prop := b.any rt.isWord = false

theorem outside_space (rt : Runtime R) : Outside rt (some ' ') :=
  ascii_other rt (by decide) (by decide)

theorem StartsSpaced.endsRun (hv : StartsSpaced v) : EndsRun rt.isDigit v := by
  rcases hv with rfl | ⟨t, rfl⟩
  · rintro c ⟨⟩
  · rintro c ⟨⟩
    exact space_not_digit rt

theorem StartsSpaced.outside (rt : Runtime R) (hv : StartsSpaced v) : Outside rt v.head? := by
  rcases hv with rfl | ⟨t, rfl⟩
  · rfl
  · exact outside_space rt

theorem EndsSpaced.outside (rt : Runtime R) (hu : EndsSpaced u) :
    Outside rt (u.getLast?.or none) := by
  rcases hu with rfl | ⟨t, rfl⟩
  · rfl
  · rw [List.getLast?_concat]
    exact outside_space rt

/-! ## No match begins in a number with `+61` -/

section Passing

variable {s : Pattern} (hrt : UnicodeClasses rt)
include hrt

/-- A run of digits in which no match begins at the front. -/
theorem passes_run {g : List Char} (hg : ∀ c ∈ g, rt.isDigit c = true)
    (h : ends rt.isWord (.seq .boundary s) ⟨b, g ++ w⟩ = []) :
    Passes rt.isWord (.seq .boundary s) b g w := by
  cases g with
  | nil => exact trivial
  | cons c g =>
      refine ⟨h, .word (fun d hd => ?_) (hrt.word_of_digit c (hg c List.mem_cons_self))⟩
      exact hrt.word_of_digit d (hg d (List.mem_cons_of_mem c hd))

end Passing

/-- No match begins at a run of three, six or nine digits. -/
def SkipsRuns (rt : Runtime R) (r : Pattern) : Prop :=
  ∀ b g t, (∀ c ∈ g, rt.isDigit c = true) → EndsRun rt.isDigit t → g.length % 3 = 0 →
    0 < g.length → g.length < 10 → ends rt.isWord r ⟨b, g ++ t⟩ = []

theorem passes_grouped (hrt : UnicodeClasses rt) {s : Pattern}
    (hruns : SkipsRuns rt (.seq .boundary s))
    (hsep : ∀ c, isSeparator c = true → ∀ b l, ends rt.isWord (.seq .boundary s) ⟨b, c :: l⟩ = [])
    (hv : StartsSpaced v) {k : Nat} (hk : k ≤ 3) {x : List Char}
    (hx : Grouped rt.isDigit isSeparator (List.replicate k 3) x) :
    Passes rt.isWord (.seq .boundary s) b x v := by
  have hfront {b : Option Char} {k : Nat} (hk : k ≤ 3) {x : List Char}
      (hx : Grouped rt.isDigit isSeparator (List.replicate k 3) x) :
      ends rt.isWord (.seq .boundary s) ⟨b, x ++ v⟩ = [] := by
    obtain ⟨j, g, t, hj, hle, hxv, hg, hlength, ht, -⟩ := hx.leading_run
      (fun c hc => hrt.not_digit (hrt.not_word_of_separator hc)) hv.endsRun
    rw [List.length_replicate] at hle
    rw [List.take_replicate, Nat.min_eq_left hle, List.sum_replicate_nat] at hlength
    rw [hxv]
    exact hruns b g t hg ht (by omega) (by omega) (by omega)
  generalize hns : List.replicate k 3 = ns at hx
  induction hx generalizing b k with
  | @last n g hn hd =>
      have hgrouped : Grouped rt.isDigit isSeparator [n] g := .last hn hd
      exact passes_run hrt hd.2 (hfront hk (hns ▸ hgrouped))
  | @group n m ns d s x hn hd hs hx ih =>
      have hgrouped := Grouped.group hn hd hs hx
      have hfront := hfront (b := b) hk (hns ▸ hgrouped)
      rw [List.append_assoc] at hfront
      refine (passes_run hrt hd.2 hfront).append ?_
      refine (passes_of_starts fun c hc => hsep c (hs.2 c hc)).append ?_
      cases k with
      | zero => cases hns
      | succ k => exact ih (by omega) (List.cons.inj hns).2

theorem sixty_digits (rt : Runtime R) : ∀ c ∈ ['6', '1'], rt.isDigit c = true := by
  intro c hc
  rcases List.mem_cons.mp hc with rfl | hc
  · exact ascii_digit rt (by decide) (by decide)
  · obtain rfl := List.mem_singleton.mp hc
    exact ascii_digit rt (by decide) (by decide)

/-- No match begins in a number with `+61`, if none begins at the `6`. -/
theorem passes_international (hrt : UnicodeClasses rt) {s : Pattern}
    (hruns : SkipsRuns rt (.seq .boundary s))
    (hsep : ∀ c, isSeparator c = true → ∀ b l, ends rt.isWord (.seq .boundary s) ⟨b, c :: l⟩ = [])
    (hb : Outside rt b) (hv : StartsSpaced v) {gap y : List Char} (hgap : AtMostOne isSpace gap)
    (hy : Grouped rt.isDigit isSeparator (List.replicate 3 3) y)
    (hsix : ends rt.isWord (.seq .boundary s) ⟨some '+', '6' :: '1' :: (gap ++ (y ++ v))⟩ = []) :
    Passes rt.isWord (.seq .boundary s) b ('+' :: '6' :: '1' :: (gap ++ y)) v := by
  refine ⟨?_, ?_⟩
  · -- there is no boundary in front of the `+`
    have hplus : Outside rt (some '+') := ascii_other rt (by decide) (by decide)
    rw [ends, ends_boundary, if_neg]
    · rfl
    · rw [List.head?_cons, hb, hplus, not_ne_iff]
  · have hhead : Passes rt.isWord (.seq .boundary s) (some '+') ['6', '1'] ((gap ++ y) ++ v) :=
      passes_run hrt (sixty_digits rt) (by rw [List.append_assoc]; exact hsix)
    refine hhead.append ((passes_of_starts fun c hc => hsep c ?_).append ?_)
    · exact Bool.or_eq_true_iff.mpr (Or.inl (hgap.2 c hc))
    · exact passes_grouped hrt hruns hsep hv (k := 3) (Nat.le_refl 3) hy

theorem auPhone_skipsRuns (hrt : UnicodeClasses rt) : SkipsRuns rt (auPhone rt) := by
  intro b g t hg ht hmod hpos hlt
  refine ends_eq_nil.mpr fun x post hx hmatch => ?_
  obtain ⟨m, rfl, -⟩ := auPhone_iff.mp hmatch
  cases hform : m.form with
  | trunk =>
      rcases (m.grouped hform).run (fun c => hrt.not_separator) hg ht hx.symm with
        ⟨hsum, k, rfl, -⟩ | ⟨j, hj, hjlt, hsum, -⟩
      · have hten : m.chars.length = 10 := hsum
        rw [List.length_append] at hlt
        omega
      · rw [List.length_cons, List.length_cons, List.length_singleton] at hjlt
        interval_cases j
        · have hfour : g.length = 4 := hsum
          omega
        · have hseven : g.length = 7 := hsum
          omega
  | international =>
      -- the `+` is no digit
      obtain ⟨gap, y, -, hchars, -⟩ := m.grouped_after hform
      obtain ⟨c, g, rfl⟩ := List.exists_cons_of_length_pos hpos
      rw [hchars] at hx
      obtain ⟨rfl, -⟩ := List.cons.inj hx
      have hplus := hg '+' List.mem_cons_self
      rw [rt.isDigit_ascii '+' (by decide)] at hplus
      cases hplus

/-- Groups of four do not begin at a shorter run of another length. -/
theorem fours_run (hrt : UnicodeClasses rt) {k : Nat} {x post g t : List Char}
    (hx : Grouped rt.isDigit isCardSeparator (List.replicate k 4) x) (h : x ++ post = g ++ t)
    (hg : ∀ c ∈ g, rt.isDigit c = true) (ht : EndsRun rt.isDigit t) (hmod : g.length % 4 ≠ 0) :
    4 * k ≤ g.length := by
  rcases hx.run (fun c => hrt.not_cardSeparator) hg ht h with
    ⟨hsum, y, rfl, -⟩ | ⟨j, hj, hlt, hsum, -⟩
  · rw [List.sum_replicate_nat] at hsum
    rw [List.length_append]
    omega
  · rw [List.length_replicate] at hlt
    rw [List.take_replicate, Nat.min_eq_left hlt.le, List.sum_replicate_nat] at hsum
    omega

theorem creditCard_run (hrt : UnicodeClasses rt) {g t : List Char}
    (hg : ∀ c ∈ g, rt.isDigit c = true) (ht : EndsRun rt.isDigit t) (hmod : g.length % 4 ≠ 0)
    (hlt : g.length < 16) : ends rt.isWord (creditCard rt) ⟨b, g ++ t⟩ = [] := by
  refine ends_eq_nil.mpr fun x post hx hmatch => ?_
  have hlong := fours_run hrt (k := 4) (creditCard_grouped hmatch) hx.symm hg ht hmod
  omega

theorem creditCard_skipsRuns (hrt : UnicodeClasses rt) : SkipsRuns rt (creditCard rt) := by
  intro b g t hg ht hmod hpos hlt
  exact creditCard_run hrt hg ht (by omega) (by omega)

/-- Nor at the run of eight in `+614dd ddd`, which has three digits after it. -/
theorem creditCard_eight (hrt : UnicodeClasses rt) (hv : StartsSpaced v) {g y : List Char}
    {c : Char} (hg : ∀ c ∈ g, rt.isDigit c = true) (hlength : g.length = 8)
    (hc : rt.isDigit c = false) (hy : Grouped rt.isDigit isSeparator [3] y) :
    ends rt.isWord (creditCard rt) ⟨b, g ++ c :: (y ++ v)⟩ = [] := by
  refine ends_eq_nil.mpr fun x post hx hmatch => ?_
  have ht : EndsRun rt.isDigit (c :: (y ++ v)) := by
    rintro d ⟨⟩
    exact hc
  rcases (creditCard_grouped hmatch).run (fun c => hrt.not_cardSeparator) hg ht hx.symm with
    ⟨hsum, k, rfl, -⟩ | ⟨j, hj, hlt, hsum, s, z, hs, hcz, hz⟩
  · have hsum : x.length = 16 := hsum
    rw [List.length_append] at hlength
    omega
  · have hj : j = 2 := by
      rw [List.length_replicate] at hlt
      rw [List.take_replicate, Nat.min_eq_left hlt.le, List.sum_replicate_nat] at hsum
      omega
    subst hj
    have hz : Grouped rt.isDigit isCardSeparator (List.replicate 2 4) z := hz
    rcases hs.cases with rfl | ⟨d, -, rfl⟩
    · obtain ⟨d, z, rfl, hd⟩ := hz.eq_cons
      obtain ⟨rfl, -⟩ := List.cons.inj hcz
      rw [hc] at hd
      cases hd
    · cases hy with
      | last _ hthree =>
          have hlong := fours_run hrt hz (List.cons.inj hcz).2.symm hthree.2 hv.endsRun
          rw [hthree.1] at hlong
          omega

theorem creditCard_six (hrt : UnicodeClasses rt) (hv : StartsSpaced v) {gap y : List Char}
    (hgap : AtMostOne isSpace gap) (hy : Grouped rt.isDigit isSeparator (List.replicate 3 3) y) :
    ends rt.isWord (creditCard rt) ⟨b, '6' :: '1' :: (gap ++ (y ++ v))⟩ = [] := by
  have hother (c : Char) (hc : isSeparator c = true) : rt.isDigit c = false :=
    hrt.not_digit (hrt.not_word_of_separator hc)
  rcases hgap.cases with rfl | ⟨c, hc, rfl⟩
  · obtain ⟨j, g, t, hj, hle, hyv, hg, hlength, ht, hrest⟩ := hy.leading_run hother hv.endsRun
    have hrun : ∀ c ∈ ['6', '1'] ++ g, rt.isDigit c = true := by
      intro c hc
      rcases List.mem_append.mp hc with hc | hc
      · exact sixty_digits rt c hc
      · exact hg c hc
    rw [List.nil_append, hyv]
    rw [List.length_replicate] at hle hrest
    rw [List.take_replicate, Nat.min_eq_left hle, List.sum_replicate_nat] at hlength
    have hlength : (['6', '1'] ++ g).length = j * 3 + 2 := by
      rw [List.length_append, hlength, Nat.add_comm]
      rfl
    by_cases htwo : j = 2
    · subst htwo
      obtain ⟨c, z, rfl, hc, hz⟩ := hrest (by decide)
      exact creditCard_eight hrt hv hrun hlength hc hz
    · exact creditCard_run hrt hrun ht (by omega) (by omega)
  · refine creditCard_run hrt (t := c :: (y ++ v)) (sixty_digits rt) ?_ (by decide) (by decide)
    rintro d ⟨⟩
    exact hother c (Bool.or_eq_true_iff.mpr (Or.inl hc))

/-! ## One pattern on a text around a number -/

/-- The marker of a category. -/
def markerOf (category : String) : List Char := ("[REDACTED_" ++ category ++ "]").toList

/-- The text after one pattern. -/
def stage (rt : Runtime R) (p : String × Pattern) (l : List Char) : List Char :=
  subFrom rt.isWord p.2 (markerOf p.1) none 0 l

theorem toList_redactStep (acc : String × List String) (p : String × Pattern) :
    (redactStep rt acc p).1.toList = stage rt p acc.1.toList := by
  rw [redactStep]
  split
  case isTrue => exact String.toList_ofList
  case isFalse hnone =>
    exact (subFrom_of_not_occurs _ (search_eq_false.mp (Bool.not_eq_true _ ▸ hnone))).symm

theorem toList_foldl (patterns : List (String × Pattern)) (acc : String × List String) :
    (patterns.foldl (redactStep rt) acc).1.toList
      = patterns.foldl (fun l p => stage rt p l) acc.1.toList := by
  induction patterns generalizing acc with
  | nil => rfl
  | cons p patterns ih => rw [List.foldl_cons, List.foldl_cons, ih, toList_redactStep]

/-- No match of the pattern begins or ends at a space. -/
structure Spaced (rt : Runtime R) (r : Pattern) : Prop where
  needs : Needs (piiChar rt) r
  start : ∀ b l, ends rt.isWord r ⟨b, ' ' :: l⟩ = []
  stop : Barrier rt.isWord r ' ' []

theorem Spaced.starts {p : String × Pattern} (hp : Spaced rt p.2) (hv : StartsSpaced v) :
    StartsSpaced (stage rt p v)
      ∧ ∀ b, subFrom rt.isWord p.2 (markerOf p.1) b 0 v = stage rt p v := by
  rcases hv with rfl | ⟨t, rfl⟩
  · exact ⟨Or.inl rfl, fun b => rfl⟩
  · have hspace (b : Option Char) : subFrom rt.isWord p.2 (markerOf p.1) b 0 (' ' :: t)
        = ' ' :: subFrom rt.isWord p.2 (markerOf p.1) (some ' ') 0 t := by
      rw [subFrom, hp.start b t]
    exact ⟨Or.inr ⟨_, hspace none⟩, fun b => (hspace b).trans (hspace none).symm⟩

theorem Spaced.ends {p : String × Pattern} (hp : Spaced rt p.2) (hu : EndsSpaced u) :
    EndsSpaced (stage rt p u) ∧ ∀ w, Barrier rt.isWord p.2 ' ' w → ∃ b, Outside rt b ∧
      stage rt p (u ++ w) = stage rt p u ++ subFrom rt.isWord p.2 (markerOf p.1) b 0 w := by
  rcases hu with rfl | ⟨t, rfl⟩
  · exact ⟨Or.inl rfl, fun w _ => ⟨none, rfl, rfl⟩⟩
  · obtain ⟨t', ht'⟩ := subFrom_barrier hp.needs (markerOf p.1) hp.stop t none 0 (Nat.zero_le _)
    have hend : stage rt p (t ++ [' ']) = t' ++ [' '] := ht' [] hp.stop
    refine ⟨Or.inr ⟨t', hend⟩, fun w hw => ⟨some ' ', outside_space rt, ?_⟩⟩
    rw [hend, List.append_assoc, List.append_assoc]
    exact ht' w hw

/-- Between two texts, the pattern turns the one into the other. -/
def Turns (rt : Runtime R) (p : String × Pattern) (m m' : List Char) : Prop :=
  ∀ u v, EndsSpaced u → StartsSpaced v →
    stage rt p (u ++ (m ++ v)) = stage rt p u ++ (m' ++ stage rt p v)

/-- A pattern turns what stands alone into what it makes of it there. -/
theorem Spaced.turns {p : String × Pattern} (hp : Spaced rt p.2) {m m' : List Char}
    (hw : ∀ v, StartsSpaced v → Barrier rt.isWord p.2 ' ' (m ++ v))
    (hm : ∀ b v, Outside rt b → StartsSpaced v → ∃ b',
      subFrom rt.isWord p.2 (markerOf p.1) b 0 (m ++ v)
        = m' ++ subFrom rt.isWord p.2 (markerOf p.1) b' 0 v) : Turns rt p m m' := by
  intro u v hu hv
  obtain ⟨b, hb, hsplit⟩ := (hp.ends hu).2 (m ++ v) (hw v hv)
  obtain ⟨b', hmiddle⟩ := hm b v hb hv
  rw [hsplit, hmiddle, (hp.starts hv).2 b']

theorem Spaced.turns_self {p : String × Pattern} (hp : Spaced rt p.2) {m : List Char}
    (hw : ∀ v, StartsSpaced v → Barrier rt.isWord p.2 ' ' (m ++ v))
    (hm : ∀ b v, Outside rt b → StartsSpaced v → Passes rt.isWord p.2 b m v) :
    Turns rt p m m :=
  hp.turns hw fun b v hb hv => ⟨_, subFrom_passes (markerOf p.1) (hm b v hb hv)⟩

/-! ## The three patterns -/

theorem spaced_email (rt : Runtime R) : Spaced rt email where
  needs := email_redactable.needs
  start b l := ends_eq_nil.mpr fun x post hx hmatch => by
    have hneeds : Needs (piiChar rt) email := email_redactable.needs
    obtain ⟨c, y, rfl⟩ := List.exists_cons_of_ne_nil (hneeds.ne_nil hmatch)
    obtain ⟨rfl, -⟩ := List.cons.inj hx
    exact email_barrier b [] y post rfl hmatch
  stop := email_barrier

theorem spaced_auPhone (rt : Runtime R) : Spaced rt (auPhone rt) where
  needs := auPhone_redactable.needs
  start _ _ := auPhone_start (by decide) (by decide)
  stop := (auPhone_digitAfterSpace rt).barrier (StartsSpaced.endsRun (Or.inl rfl))

theorem spaced_creditCard (rt : Runtime R) : Spaced rt (creditCard rt) where
  needs := creditCard_redactable.needs
  start _ _ := creditCard_start (space_not_digit rt)
  stop := (creditCard_digitAfterSpace rt).barrier (StartsSpaced.endsRun (Or.inl rfl))

/-- An address has its `@` and no space, so it does not reach a number that
    stands alone. -/
theorem email_passes {l : List Char} (hat : '@' ∉ l) (hv : StartsSpaced v) :
    Passes rt.isWord email b l v := by
  induction l generalizing b with
  | nil => exact trivial
  | cons c l ih =>
      refine ⟨ends_eq_nil.mpr fun x post hx hmatch => ?_,
        ih fun h => hat (List.mem_cons_of_mem c h)⟩
      have hspace : ' ' ∉ x := fun h =>
        of_decide_eq_true (email_only_space.forall_mem hmatch ' ' h) rfl
      have hneeds : Needs (fun c => c = '@') email := Or.inr (Or.inl fun c hc => hc)
      obtain ⟨d, hd, hdat⟩ := hneeds.exists_mem hmatch
      obtain rfl := of_decide_eq_true hdat
      rcases List.append_eq_append_iff.mp (show (c :: l) ++ v = x ++ post from hx) with
        ⟨k, rfl, hk⟩ | ⟨k, hk, -⟩
      · rcases hv with rfl | ⟨t, rfl⟩
        · obtain ⟨rfl, -⟩ := List.append_eq_nil_iff.mp hk.symm
          exact hat (by simpa using hd)
        · cases k with
          | nil => exact hat (by simpa using hd)
          | cons e k =>
              obtain ⟨rfl, -⟩ := List.cons.inj hk
              exact hspace (List.mem_append_right _ List.mem_cons_self)
      · exact hat (hk ▸ List.mem_append_left k hd)

/-- The characters of a number. -/
theorem Mobile.mem_chars {c : Char} (h : c ∈ m.chars) :
    c = '+' ∨ rt.isDigit c = true ∨ isSeparator c = true := by
  obtain ⟨n, f, lead, hlead⟩ := m
  rcases List.mem_append.mp h with hc | hc
  · cases hlead with
    | trunk => exact Or.inr (Or.inl ((digits_zero_four rt).2 c hc))
    | international gap hgap =>
        rcases List.mem_cons.mp hc with hplus | hc
        · exact Or.inl hplus
        · rcases List.mem_append.mp (show c ∈ ['6', '1'] ++ (gap ++ ['4']) from hc) with hc | hc
          · exact Or.inr (Or.inl (sixty_digits rt c hc))
          · rcases List.mem_append.mp hc with hc | hc
            · exact Or.inr (Or.inr (Bool.or_eq_true_iff.mpr (Or.inl (hgap.2 c hc))))
            · exact Or.inr (Or.inl ((digits_four rt).2 c hc))
  · rcases List.mem_append.mp hc with hc | hc
    · exact Or.inr (Or.inl (n.first_digits.2 c hc))
    · rcases List.mem_append.mp hc with hc | hc
      · exact Or.inr (Or.inr (n.firstGap_separates.2 c hc))
      · rcases List.mem_append.mp hc with hc | hc
        · exact Or.inr (Or.inl (n.second_digits.2 c hc))
        · rcases List.mem_append.mp hc with hc | hc
          · exact Or.inr (Or.inr (n.secondGap_separates.2 c hc))
          · exact Or.inr (Or.inl (n.third_digits.2 c hc))

theorem email_turns (m : Mobile rt) : Turns rt ("EMAIL", email) m.chars m.chars := by
  have hp : Spaced rt ("EMAIL", email).2 := spaced_email rt
  refine hp.turns_self (fun v hv => email_barrier) fun b v hb hv => email_passes (fun hat => ?_) hv
  rcases m.mem_chars hat with h | h | h
  · cases h
  · rw [rt.isDigit_ascii '@' (by decide)] at h
    cases h
  · exact absurd h (by decide)

section International

variable (hrt : UnicodeClasses rt)
include hrt

theorem plus_endsRun (w : List Char) : EndsRun rt.isDigit ('+' :: w) := by
  rintro c ⟨⟩
  exact hrt.not_digit (ascii_other rt (by decide) (by decide))

theorem auPhone_keeps (h : m.form = .international) :
    Turns rt ("AU_PHONE", auPhone rt) m.chars m.chars := by
  have hp : Spaced rt ("AU_PHONE", auPhone rt).2 := spaced_auPhone rt
  obtain ⟨gap, y, hgap, hchars, hy⟩ := m.grouped_after h
  rw [hchars]
  refine hp.turns_self (fun v hv => ?_) fun b v hb hv => ?_
  · exact (auPhone_digitAfterSpace rt).barrier (plus_endsRun hrt _)
  · refine passes_international hrt (auPhone_skipsRuns hrt) (fun c hc b l => ?_) hb hv hgap hy ?_
    · refine auPhone_start ?_ ?_
      · rintro rfl
        exact absurd hc (by decide)
      · rintro rfl
        exact absurd hc (by decide)
    · exact auPhone_start (by decide) (by decide)

theorem creditCard_keeps (h : m.form = .international) :
    Turns rt ("CREDIT_CARD", creditCard rt) m.chars m.chars := by
  have hp : Spaced rt ("CREDIT_CARD", creditCard rt).2 := spaced_creditCard rt
  obtain ⟨gap, y, hgap, hchars, hy⟩ := m.grouped_after h
  rw [hchars]
  refine hp.turns_self (fun v hv => ?_) fun b v hb hv => ?_
  · exact (creditCard_digitAfterSpace rt).barrier (plus_endsRun hrt _)
  · refine passes_international hrt (creditCard_skipsRuns hrt) (fun c hc b l => ?_) hb hv hgap hy
      (creditCard_six hrt hv hgap hy)
    exact creditCard_start (hrt.not_digit (hrt.not_word_of_separator hc))

end International

section Trunk

variable (hrt : UnicodeClasses rt)
include hrt

theorem auPhone_matches (h : m.form = .trunk) (hb : Outside rt b) (hv : StartsSpaced v) :
    Matches rt.isWord (auPhone rt) b m.chars v.head? := by
  have hm := m.grouped h
  obtain ⟨c, y, hc, hfirst⟩ := hm.eq_cons
  obtain ⟨d, hd, hlast⟩ := hm.getLast?
  refine auPhone_iff.mpr ⟨m, rfl, ?_, ?_⟩
  · rw [Edge, hb, hc]
    exact fun h => Bool.false_ne_true (h.trans (hrt.word_of_digit c hfirst))
  · rw [Edge, hd, hv.outside rt]
    exact fun h => Bool.false_ne_true (h.symm.trans (hrt.word_of_digit d hlast))

/-- The number is the only match that begins where it does. -/
theorem auPhone_unique (h : m.form = .trunk) {x post : List Char} {a : Option Char}
    (hmatch : Matches rt.isWord (auPhone rt) b x a) (hx : m.chars ++ v = x ++ post) : post = v := by
  obtain ⟨m', rfl, -⟩ := auPhone_iff.mp hmatch
  cases hform : m'.form with
  | trunk =>
      have hsame := (m.grouped h).unique (fun c => hrt.not_separator) (m'.grouped hform) hx
      rw [hsame] at hx
      exact (List.append_cancel_left hx).symm
  | international =>
      obtain ⟨gap, y, -, hchars, -⟩ := m'.grouped_after hform
      obtain ⟨c, w, hc, hdigit⟩ := (m.grouped h).eq_cons
      rw [hchars, hc] at hx
      obtain ⟨rfl, -⟩ := List.cons.inj hx
      rw [rt.isDigit_ascii '+' (by decide)] at hdigit
      cases hdigit

theorem auPhone_replaces (h : m.form = .trunk) :
    Turns rt ("AU_PHONE", auPhone rt) m.chars (markerOf "AU_PHONE") := by
  have hp : Spaced rt ("AU_PHONE", auPhone rt).2 := spaced_auPhone rt
  refine hp.turns (fun v hv => ?_) fun b v hb hv => ⟨m.chars.getLast?.or b, ?_⟩
  · -- the run at the front of the number has four, seven or ten digits
    obtain ⟨j, g, t, hj, hle, hmv, hg, hlength, ht, -⟩ := (m.grouped h).leading_run
      (fun c hc => hrt.not_digit (hrt.not_word_of_separator hc)) hv.endsRun
    rw [hmv]
    refine auPhone_barrier_of_run hrt hg ht ?_
    rw [hlength]
    rw [show [4, 3, 3].length = 3 from rfl] at hle
    interval_cases j
    · rfl
    · rfl
    · rfl
  · have hmatch := auPhone_matches hrt h hb hv
    cases hends : ends rt.isWord (auPhone rt) ⟨b, m.chars ++ v⟩ with
    | nil => exact absurd hmatch (ends_eq_nil.mp hends m.chars v rfl)
    | cons place places =>
        have hplace : place ∈ ends rt.isWord (auPhone rt) ⟨b, m.chars ++ v⟩ :=
          hends ▸ List.mem_cons_self
        obtain ⟨x, hx, -, hother⟩ := (mem_ends _ b _).mp hplace
        obtain rfl := auPhone_unique hrt h hother hx
        exact subFrom_match (markerOf "AU_PHONE") (m.grouped h).ne_nil hends

end Trunk

theorem creditCard_keeps_marker (rt : Runtime R) :
    Turns rt ("CREDIT_CARD", creditCard rt) (markerOf "AU_PHONE") (markerOf "AU_PHONE") := by
  have hp : Spaced rt ("CREDIT_CARD", creditCard rt).2 := spaced_creditCard rt
  have hmarker : ∀ c ∈ markerOf "AU_PHONE", rt.isDigit c = false := by
    intro c hc
    have hplain : (markerOf "AU_PHONE").all (fun c => c.toNat < 128 && !c.isDigit) = true := rfl
    obtain ⟨hascii, hdigit⟩ := Bool.and_eq_true_iff.mp (List.all_eq_true.mp hplain c hc)
    rw [rt.isDigit_ascii c (of_decide_eq_true hascii)]
    exact Bool.not_eq_true' _ ▸ hdigit
  refine hp.turns_self (fun v hv => ?_) fun b v hb hv => ?_
  · refine (creditCard_digitAfterSpace rt).barrier ?_
    rintro c ⟨⟩
    exact hmarker '[' List.mem_cons_self
  · exact passes_of_starts fun c hc b l => creditCard_start (hmarker c hc)

/-! ## What is reported and what is left -/

/-- What the patterns turn in between, the redaction turns. -/
theorem redactPii_between {m m₁ m₂ m₃ : List Char} (hemail : Turns rt ("EMAIL", email) m m₁)
    (hphone : Turns rt ("AU_PHONE", auPhone rt) m₁ m₂)
    (hcard : Turns rt ("CREDIT_CARD", creditCard rt) m₂ m₃) {u v : String}
    (hu : EndsSpaced u.toList) (hv : StartsSpaced v.toList) :
    (redactPii rt (u ++ String.ofList m ++ v)).1
      = (redactPii rt u).1 ++ String.ofList m₃ ++ (redactPii rt v).1 := by
  have hu₁ := ((spaced_email rt).ends (p := ("EMAIL", email)) hu).1
  have hv₁ := ((spaced_email rt).starts (p := ("EMAIL", email)) hv).1
  have hu₂ := ((spaced_auPhone rt).ends (p := ("AU_PHONE", auPhone rt)) hu₁).1
  have hv₂ := ((spaced_auPhone rt).starts (p := ("AU_PHONE", auPhone rt)) hv₁).1
  refine String.toList_inj.mp ?_
  rw [String.toList_append, String.toList_append, String.toList_ofList, redactPii_eq, redactPii_eq,
    redactPii_eq, toList_foldl, toList_foldl, toList_foldl, String.toList_append,
    String.toList_append, String.toList_ofList, List.append_assoc, List.append_assoc]
  simp only [piiPatterns, List.foldl_cons, List.foldl_nil]
  rw [hemail _ _ hu hv, hphone _ _ hu₁ hv₁, hcard _ _ hu₂ hv₂]

/-- The number is still there, after what is left of the text before it. -/
def StillThere (rt : Runtime R) (u m v : String) : Prop :=
  ∃ rest, (redactPii rt (u ++ m ++ v)).1 = (redactPii rt u).1 ++ m ++ rest

/-- The number is reported and taken out. -/
def Redacted (rt : Runtime R) (u m v : String) : Prop :=
  "AU_PHONE" ∈ (redactPii rt (u ++ m ++ v)).2 ∧ ¬ StillThere rt u m v

/-- A number with `+61` that stands alone is left as it is. -/
theorem international_kept (hrt : UnicodeClasses rt) (h : m.form = .international) {u v : String}
    (hu : EndsSpaced u.toList) (hv : StartsSpaced v.toList) :
    (redactPii rt (u ++ m.text ++ v)).1 = (redactPii rt u).1 ++ m.text ++ (redactPii rt v).1 :=
  redactPii_between (email_turns m) (auPhone_keeps hrt h) (creditCard_keeps hrt h) hu hv

/-- A number with `04` that stands alone becomes a marker. -/
theorem trunk_replaced (hrt : UnicodeClasses rt) (h : m.form = .trunk) {u v : String}
    (hu : EndsSpaced u.toList) (hv : StartsSpaced v.toList) :
    (redactPii rt (u ++ m.text ++ v)).1
      = (redactPii rt u).1 ++ "[REDACTED_AU_PHONE]" ++ (redactPii rt v).1 :=
  redactPii_between (email_turns m) (auPhone_replaces hrt h) (creditCard_keeps_marker rt) hu hv

/-- What `AU_PHONE` finds after the addresses are gone is reported. -/
theorem auPhone_reported {text : String}
    (h : search rt.isWord (auPhone rt) (redactStep rt (text, []) ("EMAIL", email)).1 = true) :
    "AU_PHONE" ∈ (redactPii rt text).2 := by
  rw [redactPii_eq, piiPatterns, List.foldl_cons, List.foldl_cons]
  refine found_mono _ _ ?_
  generalize redactStep rt (text, []) ("EMAIL", email) = acc at h ⊢
  rw [redactStep, if_pos h]
  exact List.mem_append_right _ List.mem_cons_self

theorem trunk_reported (hrt : UnicodeClasses rt) (h : m.form = .trunk) {u v : String}
    (hu : EndsSpaced u.toList) (hv : StartsSpaced v.toList) :
    "AU_PHONE" ∈ (redactPii rt (u ++ m.text ++ v)).2 := by
  have hu₁ := ((spaced_email rt).ends (p := ("EMAIL", email)) hu).1
  have hv₁ := ((spaced_email rt).starts (p := ("EMAIL", email)) hv).1
  refine auPhone_reported ?_
  rw [search, searchFrom_iff, toList_redactStep, Mobile.text, String.toList_append,
    String.toList_append, String.toList_ofList, List.append_assoc, email_turns m _ _ hu hv]
  exact ⟨_, m.chars, _, rfl, auPhone_matches hrt h (hu₁.outside rt) hv₁⟩

theorem trunk_gone (hrt : UnicodeClasses rt) (h : m.form = .trunk) {u v : String}
    (hu : EndsSpaced u.toList) (hv : StartsSpaced v.toList) : ¬ StillThere rt u m.text v := by
  rintro ⟨rest, hrest⟩
  rw [trunk_replaced hrt h hu hv] at hrest
  have hchars := congrArg String.toList hrest
  have htext : m.text.toList = m.chars := String.toList_ofList
  rw [String.toList_append, String.toList_append, String.toList_append, String.toList_append,
    List.append_assoc, List.append_assoc, List.append_cancel_left_eq, htext] at hchars
  obtain ⟨n, f, lead, hlead⟩ := m
  cases hlead with
  | trunk =>
      have hfirst : some '[' = some '0' := congrArg List.head? hchars
      exact absurd hfirst (by decide)
  | international gap hgap => cases h

/-- **WHICH MOBILE NUMBERS ARE REDACTED** when they stand alone: those with
    `04`, whatever surrounds them.  No address reaches such a number, so there
    is no need to exclude one. -/
theorem redacted_alone_iff (rt : Runtime R) (hrt : UnicodeClasses rt) (m : Mobile rt)
    (u v : String) (hu : EndsSpaced u.toList) (hv : StartsSpaced v.toList) :
    Redacted rt u m.text v ↔ m.form = .trunk := by
  constructor
  · rintro ⟨-, hgone⟩
    cases hform : m.form with
    | trunk => rfl
    | international => exact absurd ⟨_, international_kept hrt hform hu hv⟩ hgone
  · intro h
    exact ⟨trunk_reported hrt h hu hv, trunk_gone hrt h hu hv⟩

/-! ## Both forms of one number -/

theorem ascii_classes : UnicodeClasses (default : Runtime Float) where
  word_of_digit c hc := by
    have halphanum : c.isAlphanum = true := Bool.or_eq_true_iff.mpr (Or.inr hc)
    exact Bool.or_eq_true_iff.mpr (Or.inl halphanum)
  not_word_of_space c hc := by
    have hspaces : ∀ n ∈ [0x09, 0x0a, 0x0b, 0x0c, 0x0d, 0x1c, 0x1d, 0x1e, 0x1f, 0x20, 0x85, 0xa0,
        0x1680, 0x2000, 0x2001, 0x2002, 0x2003, 0x2004, 0x2005, 0x2006, 0x2007, 0x2008, 0x2009,
        0x200a, 0x2028, 0x2029, 0x202f, 0x205f, 0x3000],
        ((Char.ofNat n).isAlphanum || Char.ofNat n = '_') = false := by decide
    rw [← Char.ofNat_toNat c]
    exact hspaces c.toNat (of_decide_eq_true hc)

/-- The digits of `0412 345 678`. -/
def sample : EightDigits (default : Runtime Float) where
  first := ['1', '2']
  firstGap := [' ']
  second := ['3', '4', '5']
  secondGap := [' ']
  third := ['6', '7', '8']
  first_digits := ⟨rfl, List.all_eq_true.mp rfl⟩
  firstGap_separates := ⟨Nat.le_refl 1, List.all_eq_true.mp rfl⟩
  second_digits := ⟨rfl, List.all_eq_true.mp rfl⟩
  secondGap_separates := ⟨Nat.le_refl 1, List.all_eq_true.mp rfl⟩
  third_digits := ⟨rfl, List.all_eq_true.mp rfl⟩

def sampleTrunk : Mobile (default : Runtime Float) := ⟨sample, .trunk, ['0', '4'], .trunk⟩

def sampleInternational : Mobile (default : Runtime Float) :=
  ⟨sample, .international, ['+', '6', '1', ' ', '4'],
    .international [' '] ⟨Nat.le_refl 1, List.all_eq_true.mp rfl⟩⟩

theorem sampleTrunk_redacted : sampleTrunk.text = "0412 345 678" ∧
    (Redacted (default : Runtime Float) "Call " sampleTrunk.text " today" ↔
      sampleTrunk.form = .trunk) :=
  ⟨rfl, redacted_alone_iff default ascii_classes sampleTrunk "Call " " today"
    (Or.inr ⟨"Call".toList, rfl⟩) (Or.inr ⟨"today".toList, rfl⟩)⟩

/-- `+61 412 345 678`, with no address around, is neither reported nor taken
    out. -/
theorem international_not_redacted : sampleInternational.text = "+61 412 345 678" ∧
    search (default : Runtime Float).isWord email sampleInternational.text = false ∧
    ¬ Redacted (default : Runtime Float) "" sampleInternational.text "" := by
  refine ⟨rfl, by decide +kernel, ?_⟩
  rintro ⟨hreported, -⟩
  have hnone : (redactPii (default : Runtime Float) "+61 412 345 678").2 = [] := by decide +kernel
  rw [show "" ++ sampleInternational.text ++ "" = "+61 412 345 678" from rfl, hnone] at hreported
  cases hreported

end MobileNumbers
