import OutcomeAssurance.JsonText
import OutcomeAssurance.PyDict
import OutcomeAssurance.Streaming

/-! # Reading JSON

    `json.loads`: white space, strings of such characters, integers, literals,
    arrays and objects, a key that comes twice keeping its last value.  What
    `json.dumps` writes for an object of strings and integers is read back, and
    is one line of printable ASCII. -/

namespace JsonReader

open PyDict Streaming TraceChain JsonText

/-! ## The reader -/

def skipSpace (text : List Char) : List Char :=
  text.dropWhile fun c => c ∈ [' ', '\t', '\n', '\r']

/-- The characters up to the closing quotation mark. -/
def readChars : Nat → List Char → Option (List Char × List Char)
  | 0, _ => none
  | n + 1, text =>
      if text.head? = some '"' then some ([], text.tail)
      else
        match readChar text with
        | none => none
        | some (c, rest) => (readChars n rest).map fun p => (c :: p.1, p.2)

/-- What follows the opening quotation mark. -/
def readString (text : List Char) : Option (String × List Char) :=
  (readChars (text.length + 1) text).map fun p => (String.ofList p.1, p.2)

/-- No digit follows a leading zero. -/
def readDigits (text : List Char) : Option (Nat × List Char) :=
  if text.head? = some '0' then some (0, text.tail)
  else
    match text.takeWhile Char.isDigit with
    | [] => none
    | digits => some (Nat.ofDigitChars 10 digits 0, text.dropWhile Char.isDigit)

def readLiteral (text : List Char) : Option (Json × List Char) :=
  if "null".toList <+: text then some (.null, text.drop 4)
  else if "true".toList <+: text then some (.bool true, text.drop 4)
  else if "false".toList <+: text then some (.bool false, text.drop 5)
  else none

mutual
/-- The first value of a text.  Floating-point numbers are not read. -/
def readValue : Nat → List Char → Option (Json × List Char)
  | 0, _ => none
  | _ + 1, [] => none
  | n + 1, c :: rest =>
      if c = '"' then (readString rest).map fun p => (.str p.1, p.2)
      else if c = '\x7b' then
        if (skipSpace rest).head? = some '\x7d' then some (.obj [], (skipSpace rest).tail)
        else (readMembers n (skipSpace rest)).map fun p => (.obj (Dict.ofPairs p.1).items, p.2)
      else if c = '[' then
        if (skipSpace rest).head? = some ']' then some (.arr [], (skipSpace rest).tail)
        else (readItems n (skipSpace rest)).map fun p => (.arr p.1, p.2)
      else if c = '-' then (readDigits rest).map fun p => (.int (-p.1), p.2)
      else if c.isDigit then (readDigits (c :: rest)).map fun p => (.int p.1, p.2)
      else readLiteral (c :: rest)

/-- The items of an array, up to its closing bracket. -/
def readItems : Nat → List Char → Option (List Json × List Char)
  | 0, _ => none
  | n + 1, text =>
      match readValue n text with
      | none => none
      | some (v, rest) =>
          match skipSpace rest with
          | ',' :: rest => (readItems n (skipSpace rest)).map fun p => (v :: p.1, p.2)
          | ']' :: rest => some ([v], rest)
          | _ => none

/-- The members of an object, up to its closing brace. -/
def readMembers : Nat → List Char → Option (List (String × Json) × List Char)
  | 0, _ => none
  | n + 1, text =>
      match text with
      | '"' :: rest =>
          match readString rest with
          | none => none
          | some (key, rest) =>
              match skipSpace rest with
              | ':' :: rest =>
                  match readValue n (skipSpace rest) with
                  | none => none
                  | some (v, rest) =>
                      match skipSpace rest with
                      | ',' :: rest =>
                          (readMembers n (skipSpace rest)).map fun p => ((key, v) :: p.1, p.2)
                      | '\x7d' :: rest => some ([(key, v)], rest)
                      | _ => none
              | _ => none
      | _ => none
end

/-- `json.loads`; there is no result where it raises `JSONDecodeError`. -/
def loads (s : String) : Option Json :=
  let text := skipSpace s.toList
  match readValue (2 * text.length + 2) text with
  | none => none
  | some (v, rest) => if skipSpace rest = [] then some v else none

/-! ## Strings -/

theorem readChars_escaped (cs rest : List Char) {n : Nat} (hn : cs.length < n) :
    readChars n (cs.flatMap (fun c => (escape c).toList) ++ '"' :: rest) = some (cs, rest) := by
  induction cs generalizing n with
  | nil =>
      cases n with
      | zero => exact absurd hn (Nat.not_lt_zero _)
      | succ n => rfl
  | cons c cs ih =>
      cases n with
      | zero => exact absurd hn (Nat.not_lt_zero _)
      | succ n =>
          have hquote : ((escape c).toList
              ++ (cs.flatMap (fun c => (escape c).toList) ++ '"' :: rest)).head? ≠ some '"' := by
            intro hhead
            exact escape_ne_quote c _ _ (List.eq_cons_of_mem_head? hhead)
          rw [List.flatMap_cons, List.append_assoc, readChars, if_neg hquote, readChar_escape]
          dsimp only
          rw [ih (Nat.lt_of_succ_lt_succ hn), Option.map_some]

theorem escape_ne_nil (c : Char) : (escape c).toList ≠ [] := by
  intro hnil
  have hread := readChar_escape c []
  rw [hnil] at hread
  cases hread

theorem length_le_escaped (cs : List Char) :
    cs.length ≤ (cs.flatMap fun c => (escape c).toList).length := by
  induction cs with
  | nil => exact Nat.le_refl _
  | cons c cs ih =>
      have hpos : 0 < (escape c).toList.length := List.length_pos_of_ne_nil (escape_ne_nil c)
      rw [List.flatMap_cons, List.length_append, List.length_cons]
      omega

/-- The characters of a quoted string, up to its closing quotation mark. -/
def quoted (s : String) : List Char := s.toList.flatMap (fun c => (escape c).toList) ++ ['"']

theorem quote_eq (s : String) : (quote s).toList = '"' :: quoted s := quote_toList s

/-- A quoted string is read back. -/
theorem readString_quoted (s : String) (rest : List Char) :
    readString (quoted s ++ rest) = some (s, rest) := by
  have hlength := length_le_escaped s.toList
  rw [readString, quoted, List.append_assoc, List.singleton_append, readChars_escaped,
    Option.map_some, String.ofList_toList]
  rw [List.length_append]
  omega

/-! ## Numbers -/

theorem head_toDigits {n : Nat} (hn : n ≠ 0) : (Nat.toDigits 10 n).head? ≠ some '0' := by
  induction n using Nat.strongRecOn with
  | ind n ih =>
      rw [Nat.toDigits_eq_if (by decide)]
      split
      · next hlt =>
          have hsmall : ∀ d < 10, d ≠ 0 → Nat.digitChar d ≠ '0' := by decide
          rw [List.head?_cons, ne_eq, Option.some.injEq]
          exact hsmall n hlt hn
      · next hge =>
          rw [List.head?_append_of_ne_nil _ Nat.toDigits_ne_nil]
          exact ih (n / 10) (by omega) (by omega)

/-- What follows a number does not begin with a digit. -/
def Stops (rest : List Char) : Prop := ∀ c ∈ rest.head?, c.isDigit = false

/-- A number is read back. -/
theorem readDigits_repr (n : Nat) {rest : List Char} (hrest : Stops rest) :
    readDigits (n.repr.toList ++ rest) = some (n, rest) := by
  have hdigits : ∀ c ∈ Nat.toDigits 10 n, c.isDigit = true := fun c hc =>
    Nat.isDigit_of_mem_toDigits (by decide) (by decide) hc
  have htake : rest.takeWhile Char.isDigit = [] := by
    cases rest with
    | nil => rfl
    | cons c rest => rw [List.takeWhile_cons, hrest c rfl]; rfl
  have hdrop : rest.dropWhile Char.isDigit = rest := by
    cases rest with
    | nil => rfl
    | cons c rest => rw [List.dropWhile_cons, hrest c rfl]; rfl
  rw [Nat.toList_repr, readDigits]
  by_cases hn : n = 0
  · subst hn
    rw [Nat.toDigits_zero]
    exact if_pos rfl
  · have hhead : (Nat.toDigits 10 n ++ rest).head? ≠ some '0' := by
      rw [List.head?_append_of_ne_nil _ Nat.toDigits_ne_nil]
      exact head_toDigits hn
    rw [if_neg hhead, List.takeWhile_append_of_pos hdigits, htake, List.append_nil,
      List.dropWhile_append_of_pos hdigits, hdrop]
    cases hcase : Nat.toDigits 10 n with
    | nil => exact absurd hcase Nat.toDigits_ne_nil
    | cons c cs =>
        dsimp only
        rw [← hcase, Nat.ofDigitChars_ten_toDigits]

/-! ## Objects -/

/-- A string or an integer. -/
def Plain : Json → Prop
  | .str _ | .int _ => True
  | _ => False

theorem readValue_digits (n m : Nat) {rest : List Char} (hrest : Stops rest) :
    readValue (n + 1) (m.repr.toList ++ rest) = some (.int m, rest) := by
  have hread : readDigits (m.repr.toList ++ rest) = some (m, rest) := readDigits_repr m hrest
  rw [Nat.toList_repr] at hread ⊢
  cases hdigits : Nat.toDigits 10 m with
  | nil => exact absurd hdigits Nat.toDigits_ne_nil
  | cons c cs =>
      have hmem : c ∈ Nat.toDigits 10 m := by
        rw [hdigits]
        exact List.mem_cons_self
      have hc : c.isDigit = true := Nat.isDigit_of_mem_toDigits (by decide) (by decide) hmem
      have hne : ∀ d, d.isDigit = false → c ≠ d := by
        rintro d hd rfl
        rw [hc] at hd
        cases hd
      rw [hdigits] at hread
      rw [List.cons_append, readValue, if_neg (hne _ (by decide)), if_neg (hne _ (by decide)),
        if_neg (hne _ (by decide)), if_neg (hne _ (by decide)), if_pos hc, ← List.cons_append,
        hread, Option.map_some]

/-- A string or an integer is read back. -/
theorem readValue_plain {v : Json} (hv : Plain v) (n : Nat) {rest : List Char}
    (hrest : Stops rest) : readValue (n + 1) ((dumps v).toList ++ rest) = some (v, rest) := by
  cases v with
  | str s =>
      rw [dumps, quote_eq, List.cons_append, readValue, if_pos rfl, readString_quoted,
        Option.map_some]
  | int m =>
      rw [dumps, Int.toString_eq_repr, Int.repr_eq_if]
      split
      · next hpos =>
          rw [readValue_digits n _ hrest, Int.toNat_of_nonneg hpos]
      · next hneg =>
          have hread := readDigits_repr (-m).toNat hrest
          rw [String.toList_append, List.append_assoc]
          show readValue (n + 1) ('-' :: ((-m).toNat.repr.toList ++ rest)) = _
          rw [readValue, if_neg (by decide), if_neg (by decide), if_neg (by decide), if_pos rfl,
            hread, Option.map_some, Int.toNat_of_nonneg (by omega), Int.neg_neg]
  | null | bool | arr | obj => exact absurd hv id

/-- The text of a member. -/
def memberText (p : String × Json) : List Char :=
  '"' :: (quoted p.1 ++ ':' :: ' ' :: (dumps p.2).toList)

theorem skipSpace_of_head {c : Char} (hc : c ∉ [' ', '\t', '\n', '\r']) (rest : List Char) :
    skipSpace (c :: rest) = c :: rest := by
  rw [skipSpace, List.dropWhile_cons, if_neg]
  simpa using hc

/-- The text of a value does not begin with white space. -/
theorem skipSpace_plain {v : Json} (hv : Plain v) (rest : List Char) :
    skipSpace ((dumps v).toList ++ rest) = (dumps v).toList ++ rest := by
  have hnumber : ∀ (m : Nat) rest, skipSpace (m.repr.toList ++ rest) = m.repr.toList ++ rest := by
    intro m rest
    rw [Nat.toList_repr]
    cases hdigits : Nat.toDigits 10 m with
    | nil => exact absurd hdigits Nat.toDigits_ne_nil
    | cons c cs =>
        refine skipSpace_of_head (fun hspace => ?_) _
        have hmem : c ∈ Nat.toDigits 10 m := by
          rw [hdigits]
          exact List.mem_cons_self
        have hc : c.isDigit = true := Nat.isDigit_of_mem_toDigits (by decide) (by decide) hmem
        have hall : ([' ', '\t', '\n', '\r'].all fun d => !d.isDigit) = true := by decide
        have hnone : (!c.isDigit) = true := List.all_eq_true.mp hall c hspace
        rw [hc] at hnone
        cases hnone
  cases v with
  | str s =>
      rw [dumps, quote_eq]
      exact skipSpace_of_head (by decide) _
  | int m =>
      rw [dumps, Int.toString_eq_repr, Int.repr_eq_if]
      split
      · exact hnumber _ rest
      · rw [String.toList_append, List.append_assoc]
        exact skipSpace_of_head (c := '-') (by decide) _
  | null | bool | arr | obj => exact absurd hv id

theorem readMembers_one {p : String × Json} (hp : Plain p.2) (n : Nat) {rest : List Char}
    (hrest : Stops rest) :
    readMembers (n + 2) (memberText p ++ rest) =
      match skipSpace rest with
      | ',' :: rest => (readMembers (n + 1) (skipSpace rest)).map fun q => (p :: q.1, q.2)
      | '\x7d' :: rest => some ([p], rest)
      | _ => none := by
  have hspace : skipSpace (' ' :: ((dumps p.2).toList ++ rest)) = (dumps p.2).toList ++ rest :=
    skipSpace_plain hp rest
  have hcolon : skipSpace (':' :: ' ' :: ((dumps p.2).toList ++ rest)) =
      ':' :: ' ' :: ((dumps p.2).toList ++ rest) := skipSpace_of_head (by decide) _
  rw [memberText, List.cons_append, List.append_assoc]
  simp only [readMembers, readString_quoted, List.cons_append, hcolon, hspace,
    readValue_plain hp n hrest]

/-- The text between the braces. -/
def membersText : List (String × Json) → List Char
  | [] => []
  | [p] => memberText p
  | p :: q :: fields => memberText p ++ ',' :: ' ' :: membersText (q :: fields)

theorem dumpsObject_toList (fields : List (String × Json)) :
    (dumpsObject fields).toList = '\x7b' :: (membersText fields ++ ['\x7d']) := by
  have hmember : ∀ p : String × Json,
      (quote p.1 ++ ": " ++ dumps p.2).toList = memberText p := by
    intro p
    rw [String.toList_append, String.toList_append, quote_eq, memberText, List.append_assoc]
    rfl
  have hmembers : (", ".intercalate
      (fields.map fun p => quote p.1 ++ ": " ++ dumps p.2)).toList = membersText fields := by
    induction fields with
    | nil => rfl
    | cons p fields ih =>
        cases fields with
        | nil => rw [List.map_singleton, String.intercalate_singleton, hmember, membersText]
        | cons q fields =>
            rw [List.map_cons] at ih
            rw [List.map_cons, List.map_cons, String.intercalate_cons_cons, String.toList_append,
              String.toList_append, hmember, ih, membersText, List.append_assoc]
            rfl
  rw [dumpsObject, String.toList_append, String.toList_append, hmembers]
  rfl

theorem membersText_head (p : String × Json) (fields : List (String × Json)) :
    ∃ text, membersText (p :: fields) = '"' :: text := by
  cases fields with
  | nil => exact ⟨_, rfl⟩
  | cons q fields => exact ⟨_, rfl⟩

theorem skipSpace_members (p : String × Json) (fields : List (String × Json))
    (rest : List Char) :
    skipSpace (membersText (p :: fields) ++ rest) = membersText (p :: fields) ++ rest := by
  obtain ⟨text, htext⟩ := membersText_head p fields
  rw [htext]
  exact skipSpace_of_head (by decide) _

theorem length_le_membersText (fields : List (String × Json)) :
    fields.length ≤ (membersText fields).length := by
  induction fields with
  | nil => exact Nat.le_refl _
  | cons p fields ih =>
      cases fields with
      | nil => simp [membersText, memberText]
      | cons q fields =>
          simp only [membersText, List.length_append, List.length_cons] at ih ⊢
          omega

/-- The members of an object are read back. -/
theorem readMembers_text {fields : List (String × Json)} (hne : fields ≠ [])
    (hplain : ∀ p ∈ fields, Plain p.2) {n : Nat} (hn : fields.length < n) (rest : List Char) :
    readMembers n (membersText fields ++ '\x7d' :: rest) = some (fields, rest) := by
  have hstops : ∀ {c rest}, Char.isDigit c = false → Stops (c :: rest) := by
    intro c rest hc d hd
    obtain rfl := Option.some.inj hd
    exact hc
  induction fields generalizing n with
  | nil => exact absurd rfl hne
  | cons p fields ih =>
      have hp : Plain p.2 := hplain p List.mem_cons_self
      obtain ⟨n, rfl⟩ : ∃ m, n = m + 2 := ⟨n - 2, by rw [List.length_cons] at hn; omega⟩
      cases fields with
      | nil =>
          rw [membersText, readMembers_one hp n (hstops (by decide)),
            skipSpace_of_head (by decide)]
          rfl
      | cons q fields =>
          have hq : ∀ x ∈ q :: fields, Plain x.2 := fun x hx =>
            hplain x (List.mem_cons_of_mem _ hx)
          rw [membersText, List.append_assoc, List.cons_append, List.cons_append,
            readMembers_one hp n (hstops (by decide)), skipSpace_of_head (by decide)]
          show (readMembers (n + 1) (skipSpace (membersText (q :: fields) ++ _))).map _ = _
          rw [skipSpace_members, ih (List.cons_ne_nil _ _) hq (Nat.lt_of_succ_lt_succ hn),
            Option.map_some]

/-- **AN OBJECT IS READ BACK** from what `json.dumps` writes for it. -/
theorem loads_dumpsObject {fields : List (String × Json)} (hkeys : (fields.map Prod.fst).Nodup)
    (hplain : ∀ p ∈ fields, Plain p.2) : loads (dumpsObject fields) = some (.obj fields) := by
  have hlength := length_le_membersText fields
  rw [loads, dumpsObject_toList, skipSpace_of_head (by decide), readValue, if_neg (by decide),
    if_pos rfl]
  cases fields with
  | nil => rfl
  | cons p fields =>
      have hopen : (membersText (p :: fields) ++ ['\x7d']).head? ≠ some '\x7d' := by
        obtain ⟨text, htext⟩ := membersText_head p fields
        rw [htext]
        exact fun h => absurd (Option.some.inj h) (by decide)
      have hfuel : (p :: fields).length
          < 2 * ('\x7b' :: (membersText (p :: fields) ++ ['\x7d'])).length + 1 := by
        simp only [List.length_cons, List.length_append] at hlength ⊢
        omega
      have hend : skipSpace [] = [] := rfl
      rw [skipSpace_members, if_neg hopen, readMembers_text (List.cons_ne_nil _ _) hplain hfuel,
        Option.map_some]
      dsimp only
      rw [if_pos hend, Dict.items_ofPairs hkeys]

/-! ## One line -/

/-- Printable ASCII. -/
def Printable (text : List Char) : Prop := ∀ c ∈ text, 0x20 ≤ c.toNat ∧ c.toNat ≤ 0x7e

instance (text : List Char) : Decidable (Printable text) :=
  List.decidableBAll (fun c : Char => 0x20 ≤ c.toNat ∧ c.toNat ≤ 0x7e) text

theorem Printable.append {x y : List Char} (hx : Printable x) (hy : Printable y) :
    Printable (x ++ y) := fun c hc => (List.mem_append.mp hc).elim (hx c) (hy c)

theorem printable_hex4 (n : Nat) : Printable (hex4 n).toList := by
  have hdigit : ∀ d < 16, 0x20 ≤ (Nat.digitChar d).toNat ∧ (Nat.digitChar d).toNat ≤ 0x7e := by
    decide
  intro c hc
  rw [hex4, String.toList_ofList] at hc
  obtain ⟨m, hm, rfl⟩ := List.mem_map.mp hc
  refine hdigit m ?_
  simp only [List.mem_cons, List.not_mem_nil, or_false] at hm
  omega

theorem printable_escape (c : Char) : Printable (escape c).toList := by
  have hunit : Printable "\\u".toList := by decide
  rw [escape]
  split
  case h_8 n h1 h2 h3 h4 h5 h6 h7 =>
      split
      case isTrue hprintable =>
          rw [Char.toString, String.toList_singleton]
          intro d hd
          obtain rfl := List.mem_singleton.mp hd
          exact hprintable
      case isFalse hnot =>
          split
          case isTrue hbasic =>
              rw [String.toList_append]
              exact hunit.append (printable_hex4 _)
          case isFalse hwide =>
              simp only [String.toList_append]
              exact ((hunit.append (printable_hex4 _)).append hunit).append (printable_hex4 _)
  all_goals decide

theorem printable_quoted (s : String) : Printable (quoted s) := by
  refine Printable.append (fun d hd => ?_) (by decide)
  obtain ⟨c, -, hc⟩ := List.mem_flatMap.mp hd
  exact printable_escape c d hc

theorem printable_repr (n : Nat) : Printable n.repr.toList := by
  intro c hc
  rw [Nat.toList_repr] at hc
  have hdigit : c.isDigit = true := Nat.isDigit_of_mem_toDigits (by decide) (by decide) hc
  obtain ⟨hlow, hhigh⟩ := Char.isDigit_iff_toNat.mp hdigit
  exact ⟨Nat.le_trans (by decide) hlow, Nat.le_trans hhigh (by decide)⟩

theorem printable_plain {v : Json} (hv : Plain v) : Printable (dumps v).toList := by
  cases v with
  | str s =>
      rw [dumps, quote_eq]
      exact Printable.append (x := ['"']) (by decide) (printable_quoted s)
  | int m =>
      rw [dumps, Int.toString_eq_repr, Int.repr_eq_if]
      split
      · exact printable_repr _
      · rw [String.toList_append]
        exact Printable.append (by decide) (printable_repr _)
  | null | bool | arr | obj => exact absurd hv id

theorem printable_members {fields : List (String × Json)} (hplain : ∀ p ∈ fields, Plain p.2) :
    Printable (membersText fields) := by
  have hmember : ∀ p ∈ fields, Printable (memberText p) := fun p hp =>
    Printable.append (x := ['"']) (by decide) ((printable_quoted p.1).append
      (Printable.append (x := [':', ' ']) (by decide) (printable_plain (hplain p hp))))
  induction fields with
  | nil => exact fun c hc => absurd hc List.not_mem_nil
  | cons p fields ih =>
      have hfirst : Printable (memberText p) := hmember p List.mem_cons_self
      cases fields with
      | nil => exact hfirst
      | cons q fields =>
          have hrest : Printable (membersText (q :: fields)) :=
            ih (fun x hx => hplain x (List.mem_cons_of_mem _ hx))
              (fun x hx => hmember x (List.mem_cons_of_mem _ hx))
          exact hfirst.append (Printable.append (x := [',', ' ']) (by decide) hrest)

/-- What `json.dumps` writes is printable ASCII, so that no string of an object
    can break the line. -/
theorem printable_dumpsObject {fields : List (String × Json)} (hplain : ∀ p ∈ fields, Plain p.2) :
    Printable (dumpsObject fields).toList := by
  rw [dumpsObject_toList]
  exact Printable.append (x := ['\x7b']) (by decide)
    ((printable_members hplain).append (by decide))

end JsonReader
