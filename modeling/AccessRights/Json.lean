/-
AccessRights/Json.lean

JSON values, as the texts of RFC 8259 denote them.

Two distinctions are finer than usual, because readers of the library
depend on them.

* A numeral that consists of digits alone is a natural number; every other
  numeral (signed, with a fraction or an exponent) is kept as written.
* A text may contain one half of a surrogate pair, which JSON can express
  and a string cannot.  Texts are therefore lists of units, and only those
  without halves are strings.

The fields of a record keep their order, and a name may occur twice.
-/

namespace AccessRights

/-! ### Texts -/

/-- A unit of a JSON text: a character, or half of a surrogate pair that has no partner. -/
inductive TextUnit where
  | char (c : Char)
  | half (code : Nat)
deriving DecidableEq, Inhabited

/-- The character of a unit, if it is one. -/
def TextUnit.char? : TextUnit → Option Char
  | char c => some c
  | half _ => none

/-- The text of a string. -/
def textOfString (s : String) : List TextUnit :=
  s.toList.map .char

/-- The string of a text, if it has no unpaired halves. -/
def stringOfText? (text : List TextUnit) : Option String :=
  (text.mapM TextUnit.char?).map String.ofList

/-! ### Values -/

/-- A JSON value. -/
inductive Json where
  | null
  | bool (value : Bool)
  | natural (value : Nat)
  | numeral (literal : List Char)
  | text (units : List TextUnit)
  | list (items : List Json)
  | record (fields : List (List TextUnit × Json))
deriving Inhabited

namespace Json

/-- The value of a string. -/
def string (s : String) : Json :=
  .text (textOfString s)

/-- The number of a word. -/
def word (n : UInt64) : Json :=
  .natural n.toNat

/-- A record of named values. -/
def ofFields (fields : List (String × Json)) : Json :=
  .record (fields.map fun field => (textOfString field.1, field.2))

/-! ### Looking inside -/

/-- The truth value, if the value is one. -/
def bool? : Json → Option Bool
  | bool value => some value
  | _ => none

/-- The natural number that fits into a word, if the value is one. -/
def word? : Json → Option UInt64
  | natural value => if value < UInt64.size then some (UInt64.ofNat value) else none
  | _ => none

/-- The string, if the value is one. -/
def string? : Json → Option String
  | text units => stringOfText? units
  | _ => none

/-- The items, if the value is a list. -/
def items? : Json → Option (List Json)
  | list items => some items
  | _ => none

end Json

end AccessRights
