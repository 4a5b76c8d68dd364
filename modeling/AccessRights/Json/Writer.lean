/-
AccessRights/Json/Writer.lean

Writing JSON values without blanks.  Inside texts the quote, the backslash
and the control characters are escaped; every other character stands for
itself.

Main definition: `Json.write`.
-/
import AccessRights.Json
import AccessRights.Text.Numeral

namespace AccessRights

namespace Json

/-- The four-digit escape of a code. -/
def codeEscape (code : Nat) : List Char :=
  let digits := hexadecimal code
  '\\' :: 'u' :: List.replicate (4 - digits.length) '0' ++ digits

/-- A character inside a text. -/
def writeChar (c : Char) : List Char :=
  match c with
  | '"' => ['\\', '"']
  | '\\' => ['\\', '\\']
  | '\x08' => ['\\', 'b']
  | '\x0c' => ['\\', 'f']
  | '\n' => ['\\', 'n']
  | '\r' => ['\\', 'r']
  | '\t' => ['\\', 't']
  | c => if c.toNat < 0x20 then codeEscape c.toNat else [c]

/-- A unit of a text. -/
def writeUnit : TextUnit → List Char
  | .char c => writeChar c
  | .half code => codeEscape code

/-- A text in quotes. -/
def writeText (units : List TextUnit) : List Char :=
  '"' :: units.flatMap writeUnit ++ ['"']

mutual

/-- The JSON text of a value. -/
def write : Json → List Char
  | null => ['n', 'u', 'l', 'l']
  | bool true => ['t', 'r', 'u', 'e']
  | bool false => ['f', 'a', 'l', 's', 'e']
  | natural value => decimal value
  | numeral literal => literal
  | text units => writeText units
  | list items => '[' :: writeItems items ++ [']']
  | record fields => '{' :: writeFields fields ++ ['}']

/-- The items of a list with commas between them. -/
def writeItems : List Json → List Char
  | [] => []
  | [item] => write item
  | item :: items => write item ++ ',' :: writeItems items

/-- The fields of a record with commas between them. -/
def writeFields : List (List TextUnit × Json) → List Char
  | [] => []
  | [field] => writeField field
  | field :: fields => writeField field ++ ',' :: writeFields fields

/-- A name, a colon and a value. -/
def writeField : List TextUnit × Json → List Char
  | (name, value) => writeText name ++ ':' :: write value

end

/-- The JSON text of a value as a string. -/
def toText (value : Json) : String :=
  String.ofList value.write

end Json

end AccessRights
