import OutcomeAssurance.PyText

/-! # Backtracking patterns

    Regular expressions as `re` runs them: greedy, alternatives from left to
    right, the first way through wins.  A pattern at a place of a text gives
    the places it can end at, in the order the search tries them. -/

namespace Backtracking

inductive Pattern where
  /-- One character of a class. -/
  | one (p : Char → Bool)
  /-- At least `min` characters of a class. -/
  | many (min : Nat) (p : Char → Bool)
  | opt (r : Pattern)
  | seq (r s : Pattern)
  | alt (r s : Pattern)
  /-- `\\b`. -/
  | boundary

/-- `r{n}`, followed by `last`. -/
def Pattern.times (n : Nat) (r last : Pattern) : Pattern :=
  match n with
  | 0 => last
  | n + 1 => .seq r (Pattern.times n r last)

/-- The character before a place and the text after it. -/
structure Place where
  before : Option Char
  rest : List Char
  deriving DecidableEq, Repr

/-- The ends of a greedy run, the longest first. -/
def runEnds (p : Char → Bool) : Nat → Option Char → List Char → List Place
  | min, b, [] => if min = 0 then [⟨b, []⟩] else []
  | min, b, c :: cs =>
      (if p c then runEnds p (min - 1) (some c) cs else [])
        ++ (if min = 0 then [⟨b, c :: cs⟩] else [])

variable (isWord : Char → Bool)

/-- The places a pattern can end at. -/
def ends : Pattern → Place → List Place
  | .one p, place =>
      match place.rest with
      | [] => []
      | c :: cs => if p c then [⟨some c, cs⟩] else []
  | .many min p, place => runEnds p min place.before place.rest
  | .opt r, place => ends r place ++ [place]
  | .seq r s, place => (ends r place).flatMap (ends s)
  | .alt r s, place => ends r place ++ ends s place
  | .boundary, place =>
      if place.before.any isWord ≠ place.rest.head?.any isWord then [place] else []

/-- A match at some place of the text. -/
def searchFrom (r : Pattern) : Option Char → List Char → Bool
  | b, [] => ends isWord r ⟨b, []⟩ ≠ []
  | b, c :: cs => ends isWord r ⟨b, c :: cs⟩ ≠ [] || searchFrom r (some c) cs

/-- `re.search`. -/
def search (r : Pattern) (text : String) : Bool := searchFrom isWord r none text.toList

/-- The text with its leftmost matches replaced, of a pattern that matches no
    empty text; `skip` characters of the last match are still to be passed. -/
def subFrom (r : Pattern) (replacement : List Char) :
    Option Char → Nat → List Char → List Char
  | _, _, [] => []
  | _, skip + 1, c :: cs => subFrom r replacement (some c) skip cs
  | b, 0, c :: cs =>
      match ends isWord r ⟨b, c :: cs⟩ with
      | [] => c :: subFrom r replacement (some c) 0 cs
      | place :: _ =>
          replacement ++ subFrom r replacement (some c) (cs.length - place.rest.length) cs

/-- `re.sub`. -/
def sub (r : Pattern) (replacement text : String) : String :=
  String.ofList (subFrom isWord r replacement.toList none 0 text.toList)

end Backtracking
