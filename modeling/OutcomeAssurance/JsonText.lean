import OutcomeAssurance.PrefixCode
import OutcomeAssurance.TraceChain

/-! # Reading JSON back

    How `json.loads` reads one character of a string, which undoes what
    `json.dumps` writes for it.  So what is written for one trace event determines
    the event: an escaped character, a quoted string, a list of strings and the
    payload of an event are self-delimiting. -/

namespace JsonText

open CaseModel PrefixCode TraceChain

/-! ## Characters -/

def hexDigit (c : Char) : Option Nat :=
  if c.isDigit then some (c.toNat - 0x30)
  else if 'a' ≤ c ∧ c ≤ 'f' then some (c.toNat - 0x57)
  else if 'A' ≤ c ∧ c ≤ 'F' then some (c.toNat - 0x37)
  else none

/-- The four digits after `\u`. -/
def readUnit : List Char → Option (Nat × List Char)
  | a :: b :: c :: d :: rest =>
      match hexDigit a, hexDigit b, hexDigit c, hexDigit d with
      | some a, some b, some c, some d => some (a * 4096 + b * 256 + c * 16 + d, rest)
      | _, _, _, _ => none
  | _ => none

/-- What follows a high surrogate.  A surrogate on its own is no character. -/
def readLow (high : Nat) : List Char → Option (Char × List Char)
  | '\\' :: 'u' :: text =>
      match readUnit text with
      | none => none
      | some (low, rest) =>
          if high < 0xdc00 ∧ 0xdc00 ≤ low ∧ low < 0xe000 then
            some (Char.ofNat (0x10000 + (high - 0xd800) * 0x400 + (low - 0xdc00)), rest)
          else none
  | _ => none

def readUnicode (text : List Char) : Option (Char × List Char) :=
  match readUnit text with
  | none => none
  | some (n, rest) =>
      if 0xd800 ≤ n ∧ n < 0xe000 then readLow n rest else some (Char.ofNat n, rest)

def unescape : Char → Option Char
  | '"' => some '"'
  | '\\' => some '\\'
  | '/' => some '/'
  | 'b' => some (Char.ofNat 0x08)
  | 'f' => some (Char.ofNat 0x0c)
  | 'n' => some '\n'
  | 'r' => some '\r'
  | 't' => some '\t'
  | _ => none

/-- One character of a string; control characters are refused. -/
def readChar : List Char → Option (Char × List Char)
  | [] => none
  | c :: rest =>
      if c = '\\' then
        match rest with
        | [] => none
        | e :: rest =>
            if e = 'u' then readUnicode rest else (unescape e).map fun c => (c, rest)
      else if c.toNat < 0x20 then none
      else some (c, rest)

theorem hexDigit_digitChar : ∀ d < 16, hexDigit (Nat.digitChar d) = some d := by decide

theorem toNat_valid (c : Char) : c.toNat < 0xd800 ∨ (0xdfff < c.toNat ∧ c.toNat < 0x110000) :=
  c.valid

theorem eq_of_toNat {c : Char} {n : Nat} (h : c.toNat = n) : c = Char.ofNat n := by
  rw [← h, Char.ofNat_toNat]

theorem readUnit_hex4 {n : Nat} (hn : n < 0x10000) (rest : List Char) :
    readUnit ((hex4 n).toList ++ rest) = some (n, rest) := by
  have hdigit : ∀ m, hexDigit (Nat.digitChar (m % 16)) = some (m % 16) := fun m =>
    hexDigit_digitChar _ (Nat.mod_lt _ (by decide))
  simp only [hex4, String.toList_ofList, List.map_cons, List.map_nil, List.cons_append,
    List.nil_append, readUnit, hdigit]
  congr 2
  omega

theorem readUnicode_basic (c : Char) (hc : c.toNat < 0x10000) (rest : List Char) :
    readUnicode ((hex4 c.toNat).toList ++ rest) = some (c, rest) := by
  have hvalid := toNat_valid c
  rw [readUnicode, readUnit_hex4 hc]
  dsimp only
  rw [if_neg (by omega), Char.ofNat_toNat]

theorem readLow_hex4 {high low : Nat} (hhigh : high < 0xdc00) (hlow : 0xdc00 ≤ low)
    (hend : low < 0xe000) (rest : List Char) :
    readLow high ("\\u".toList ++ ((hex4 low).toList ++ rest)) =
      some (Char.ofNat (0x10000 + (high - 0xd800) * 0x400 + (low - 0xdc00)), rest) := by
  have hread : readUnit ((hex4 low).toList ++ rest) = some (low, rest) :=
    readUnit_hex4 (by omega) rest
  rw [show "\\u".toList = ['\\', 'u'] by decide]
  simp only [List.cons_append, List.nil_append, readLow, hread]
  exact if_pos ⟨hhigh, hlow, hend⟩

theorem readUnicode_pair (c : Char) (hc : 0x10000 ≤ c.toNat) (rest : List Char) :
    readUnicode ((hex4 (0xd800 + (c.toNat - 0x10000) / 0x400)).toList
      ++ ("\\u".toList ++ ((hex4 (0xdc00 + (c.toNat - 0x10000) % 0x400)).toList ++ rest)))
      = some (c, rest) := by
  have hvalid := toNat_valid c
  have hback : 0x10000 + (0xd800 + (c.toNat - 0x10000) / 0x400 - 0xd800) * 0x400
      + (0xdc00 + (c.toNat - 0x10000) % 0x400 - 0xdc00) = c.toNat := by omega
  rw [readUnicode, readUnit_hex4 (by omega)]
  dsimp only
  rw [if_pos (by omega), readLow_hex4 (by omega) (by omega) (by omega), hback, Char.ofNat_toNat]

theorem readChar_unit (rest : List Char) : readChar ("\\u".toList ++ rest) = readUnicode rest := by
  rw [show "\\u".toList = ['\\', 'u'] by decide]
  rfl

theorem readChar_plain {c : Char} (hc : c ≠ '\\') (hcontrol : ¬ c.toNat < 0x20)
    (rest : List Char) : readChar (c :: rest) = some (c, rest) := by
  unfold readChar
  dsimp only
  rw [if_neg hc, if_neg hcontrol]

theorem readChar_short {c : Char} {n : Nat} {text : String} (h : c.toNat = n) (d : Char)
    (htext : text.toList = ['\\', d]) (hd : d ≠ 'u') (hback : unescape d = some (Char.ofNat n))
    (rest : List Char) : readChar (text.toList ++ rest) = some (c, rest) := by
  rw [htext, eq_of_toNat h]
  show (if d = 'u' then readUnicode rest else (unescape d).map fun c => (c, rest)) = _
  rw [if_neg hd, hback, Option.map_some]

/-- An escaped character is read back. -/
theorem readChar_escape (c : Char) (rest : List Char) :
    readChar ((escape c).toList ++ rest) = some (c, rest) := by
  rw [escape]
  split
  case h_8 n h1 h2 h3 h4 h5 h6 h7 =>
      split
      case isTrue hprintable =>
          rw [Char.toString, String.toList_singleton, List.singleton_append]
          exact readChar_plain (fun h => h2 (congrArg Char.toNat h)) (by omega) rest
      case isFalse hnot =>
          split
          case isTrue hbasic =>
              rw [String.toList_append, List.append_assoc, readChar_unit]
              exact readUnicode_basic c hbasic rest
          case isFalse hwide =>
              simp only [String.toList_append, List.append_assoc]
              rw [readChar_unit]
              exact readUnicode_pair c (not_lt.mp hwide) rest
  case h_1 h => exact readChar_short h '"' (by decide) (by decide) (by decide) rest
  case h_2 h => exact readChar_short h '\\' (by decide) (by decide) (by decide) rest
  case h_3 h => exact readChar_short h 'n' (by decide) (by decide) (by decide) rest
  case h_4 h => exact readChar_short h 'r' (by decide) (by decide) (by decide) rest
  case h_5 h => exact readChar_short h 't' (by decide) (by decide) (by decide) rest
  case h_6 h => exact readChar_short h 'f' (by decide) (by decide) (by decide) rest
  case h_7 h => exact readChar_short h 'b' (by decide) (by decide) (by decide) rest

theorem delimited_escape : Delimited fun c : Char => (escape c).toList :=
  delimited_of_decode readChar_escape

/-! ## Strings, lists and numbers -/

/-- No escaped character begins with a quotation mark. -/
theorem escape_ne_quote (c : Char) (x y : List Char) : (escape c).toList ++ x ≠ '"' :: y := by
  intro heq
  have hread := readChar_escape c x
  rw [heq, readChar_plain (by decide) (by decide)] at hread
  obtain ⟨hc, hrest⟩ := Prod.mk.inj (Option.some.inj hread)
  rw [← hc, hrest] at heq
  exact absurd (congrArg List.length heq) (by simp [escape])

theorem quote_toList (s : String) :
    (quote s).toList = '"' :: (s.toList.flatMap (fun c => (escape c).toList) ++ ['"']) := by
  rw [quote, String.toList_append, String.toList_append, String.toList_join, List.flatMap_map]
  rfl

theorem delimited_quote : Delimited fun s : String => (quote s).toList := by
  have hchars := (delimited_escape.many escape_ne_quote).after ['"']
  have hinj : Function.Injective String.toList := fun a b h => String.toList_inj.mp h
  simpa only [quote_toList, List.singleton_append] using hchars.comp hinj

theorem quote_ne {c : Char} (hc : c ≠ '"') (s : String) (x y : List Char) :
    (quote s).toList ++ x ≠ c :: y := by
  rw [quote_toList, List.cons_append]
  exact fun heq => hc (List.cons.inj heq).1.symm

theorem not_mem_digits {c : Char} (hc : c.isDigit = false) (n : Nat) : c ∉ n.repr.toList := by
  rw [Nat.toList_repr]
  intro hmem
  rw [Nat.isDigit_of_mem_toDigits (by decide) (by decide) hmem] at hc
  exact absurd hc (by decide)

theorem comma_not_mem_int (n : Int) : ',' ∉ (toString n).toList := by
  rw [Int.toString_eq_repr, Int.repr_eq_if]
  split
  · exact not_mem_digits (by decide) _
  · rw [String.toList_append, List.mem_append]
    exact fun h => h.elim (by decide) (not_mem_digits (by decide) _)

theorem nat_repr_injective : Function.Injective fun n : Nat => n.repr.toList := by
  intro m n hmn
  simp only [Nat.toList_repr] at hmn
  rw [← Nat.ofDigitChars_ten_toDigits (n := m), hmn, Nat.ofDigitChars_ten_toDigits]

theorem minus_mem (n : Nat) : '-' ∈ ("-" ++ n.repr).toList := by
  rw [String.toList_append]
  exact List.mem_append_left _ (by decide)

theorem toString_int_injective : Function.Injective fun n : Int => (toString n).toList := by
  intro a b hab
  simp only [Int.toString_eq_repr, Int.repr_eq_if] at hab
  split at hab <;> split at hab
  · have := nat_repr_injective hab
    omega
  · have hminus := minus_mem (-b).toNat
    rw [← hab] at hminus
    exact absurd hminus (not_mem_digits (by decide) a.toNat)
  · have hminus := minus_mem (-a).toNat
    rw [hab] at hminus
    exact absurd hminus (not_mem_digits (by decide) b.toNat)
  · rw [String.toList_append, String.toList_append] at hab
    have := nat_repr_injective (List.append_cancel_left hab)
    omega

theorem delimited_int : Delimited fun n : Int => (toString n).toList ++ [','] :=
  delimited_stop toString_int_injective comma_not_mem_int

/-- The items of a list of strings, up to its closing bracket. -/
def itemsText (xs : List String) : List Char :=
  [',', ' '].intercalate (xs.map fun s => (quote s).toList) ++ [']']

theorem delimited_items : Delimited itemsText :=
  delimited_quote.separated (quote_ne (by decide)) fun x y h => by
    exact absurd (List.cons.inj h).1 (by decide)

theorem dumps_strings (xs : List String) :
    (dumps (.arr (xs.map .str))).toList = '[' :: itemsText xs := by
  have hitems : dumpsItems (xs.map .str) = xs.map quote := by
    induction xs with
    | nil => rfl
    | cons s xs ih => rw [List.map_cons, dumpsItems, ih, dumps, List.map_cons]
  rw [dumps, hitems, String.toList_append, String.toList_append, String.toList_intercalate,
    List.map_map]
  rfl

theorem option_toList (o : Option String) :
    (dumps (.ofOption o)).toList = o.elim "null".toList fun s => (quote s).toList := by
  cases o <;> simp only [Json.ofOption, dumps, Option.elim]

theorem delimited_option : Delimited fun o : Option String => (dumps (.ofOption o)).toList := by
  simp only [option_toList]
  exact delimited_quote.option fun s x y => quote_ne (by decide) s x _

/-! ## The payload of an event -/

/-- The keys of a payload in sorted order, each with what stands around it. -/
theorem resultPayload_eq (sequence : Int) (stage eventType : String) (toolName : Option String)
    (evidenceIds : List String) :
    resultPayload sequence stage eventType toolName evidenceIds = "\x7b"
      ++ (quote "event_type" ++ ": " ++ quote eventType ++ ", "
      ++ (quote "evidence_ids" ++ ": " ++ dumps (.arr (evidenceIds.map .str)) ++ ", "
      ++ (quote "sequence" ++ ": " ++ toString sequence ++ ", "
      ++ (quote "stage" ++ ": " ++ quote stage ++ ", "
      ++ (quote "tool_name" ++ ": " ++ dumps (.ofOption toolName)))))) ++ "\x7d" := by
  rw [resultPayload, dumps]
  simp [dumps, dumpsFields, List.mergeSort]

/-- The payload of an event in the order of its text. -/
def payloadText (p : String × List String × Int × String × Option String) : List Char :=
  ("\x7b" ++ quote "event_type" ++ ": ").toList ++ (quote p.1).toList
    ++ ((", " ++ quote "evidence_ids" ++ ": [").toList ++ itemsText p.2.1
    ++ ((", " ++ quote "sequence" ++ ": ").toList ++ ((toString p.2.2.1).toList ++ [','])
    ++ ((" " ++ quote "stage" ++ ": ").toList ++ (quote p.2.2.2.1).toList
    ++ ((", " ++ quote "tool_name" ++ ": ").toList ++ (dumps (.ofOption p.2.2.2.2)).toList))))

theorem delimited_payload : Delimited payloadText :=
  (delimited_quote.after _).pair ((delimited_items.after _).pair ((delimited_int.after _).pair
    ((delimited_quote.after _).pair (delimited_option.after _))))

theorem resultPayload_toList (sequence : Int) (stage eventType : String)
    (toolName : Option String) (evidenceIds : List String) :
    (resultPayload sequence stage eventType toolName evidenceIds).toList =
      payloadText (eventType, evidenceIds, sequence, stage, toolName) ++ ['\x7d'] := by
  simp only [resultPayload_eq, payloadText, String.toList_append, dumps_strings, List.append_assoc]
  rfl

/-- **THE PAYLOAD BINDS** every field it is made of. -/
theorem resultPayload_injective {n n' : Int} {stage stage' eventType eventType' : String}
    {toolName toolName' : Option String} {ids ids' : List String}
    (h : resultPayload n stage eventType toolName ids
      = resultPayload n' stage' eventType' toolName' ids') :
    n = n' ∧ stage = stage' ∧ eventType = eventType' ∧ toolName = toolName' ∧ ids = ids' := by
  have htext := congrArg String.toList h
  rw [resultPayload_toList, resultPayload_toList] at htext
  have hfields := (delimited_payload _ _ _ _ htext).1
  simp only [Prod.mk.injEq] at hfields
  obtain ⟨rfl, rfl, rfl, rfl, rfl⟩ := hfields
  exact ⟨rfl, rfl, rfl, rfl, rfl⟩

end JsonText
