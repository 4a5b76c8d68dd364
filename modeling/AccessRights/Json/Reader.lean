/-
AccessRights/Json/Reader.lean

Reading JSON texts, strictly: no comments, no trailing commas, no leading
zeros, no control characters inside strings, nothing after the value, and
no blanks but the four of the standard.

Every reader takes the text that is left and gives what it has read
together with the text behind it.  Values nest, so the reader of values is
bounded by a depth; the length of the text is always deep enough, because
every level of nesting takes a bracket.

Main definition: `Json.read?`.
-/
import AccessRights.Json
import AccessRights.Text.Numeral

namespace AccessRights

namespace Json

/-! ### Blanks and words -/

/-- Whether a character may stand between the parts of a JSON text. -/
def isSpace (c : Char) : Bool :=
  c == ' ' || c == '\t' || c == '\n' || c == '\r'

/-- The text without the blanks at its start. -/
def skipSpace (input : List Char) : List Char :=
  input.dropWhile isSpace

/-- Drops a word that the text must start with. -/
def dropWord? : List Char → List Char → Option (List Char)
  | [], input => some input
  | _ :: _, [] => none
  | c :: word, d :: input => if c = d then dropWord? word input else none

/-! ### Numerals -/

/-- A run of digits that must not be empty. -/
def readDigits? (input : List Char) : Option (List Char × List Char) :=
  match input.takeWhile Char.isDigit with
  | [] => none
  | digits => some (digits, input.dropWhile Char.isDigit)

/-- The fraction of a numeral, empty when no point stands here. -/
def readFractionPart? : List Char → Option (List Char × List Char)
  | '.' :: input => do
    let (digits, rest) ← readDigits? input
    some ('.' :: digits, rest)
  | input => some ([], input)

/-- The exponent of a numeral, empty when no mark of an exponent stands here. -/
def readExponentPart? (input : List Char) : Option (List Char × List Char) :=
  match input with
  | mark :: rest =>
    if mark = 'e' ∨ mark = 'E' then
      let (sign, rest) := match rest with
        | '+' :: rest => (['+'], rest)
        | '-' :: rest => (['-'], rest)
        | rest => ([], rest)
      do
        let (digits, rest) ← readDigits? rest
        some (mark :: sign ++ digits, rest)
    else some ([], input)
  | [] => some ([], [])

/-- A numeral.  Its whole part is zero or starts with another digit. -/
def readNumeral? (input : List Char) : Option (Json × List Char) := do
  let (sign, rest) := match input with
    | '-' :: rest => (['-'], rest)
    | rest => ([], rest)
  let (whole, rest) ← readDigits? rest
  let (fraction, rest) ← readFractionPart? rest
  let (exponent, rest) ← readExponentPart? rest
  if whole.head? = some '0' ∧ whole ≠ ['0'] then none
  else if sign ++ fraction ++ exponent = [] then some (.natural (decimalValue whole), rest)
  else some (.numeral (sign ++ whole ++ fraction ++ exponent), rest)

/-! ### Texts -/

/-- The character that a backslash and the given letter stand for. -/
def escapedChar? : Char → Option Char
  | '"' => some '"'
  | '\\' => some '\\'
  | '/' => some '/'
  | 'b' => some '\x08'
  | 'f' => some '\x0c'
  | 'n' => some '\n'
  | 'r' => some '\r'
  | 't' => some '\t'
  | _ => none

/-- The unit that a four-digit escape stands for. -/
def unitOfCode (code : Nat) : TextUnit :=
  if 0xD800 ≤ code ∧ code < 0xE000 then .half code else .char (Char.ofNat code)

/-- The units of a text up to its closing quote, which is dropped. -/
def readUnits? : List Char → Option (List TextUnit × List Char)
  | [] => none
  | '"' :: rest => some ([], rest)
  | '\\' :: 'u' :: a :: b :: c :: d :: rest => do
    let code ← hexValue? [a, b, c, d]
    let (units, rest) ← readUnits? rest
    some (unitOfCode code :: units, rest)
  | '\\' :: letter :: rest => do
    let c ← escapedChar? letter
    let (units, rest) ← readUnits? rest
    some (.char c :: units, rest)
  | c :: rest =>
    if c.toNat < 0x20 then none
    else do
      let (units, rest) ← readUnits? rest
      some (.char c :: units, rest)

/-- Joins each leading half that is followed by a trailing half to one character. -/
def joinHalves : List TextUnit → List TextUnit
  | .half high :: .half low :: rest =>
    if high < 0xDC00 ∧ 0xDC00 ≤ low then
      .char (Char.ofNat (0x10000 + (high - 0xD800) * 0x400 + (low - 0xDC00)))
        :: joinHalves rest
    else .half high :: joinHalves (.half low :: rest)
  | unit :: rest => unit :: joinHalves rest
  | [] => []

/-- A text after its opening quote. -/
def readText? (input : List Char) : Option (List TextUnit × List Char) := do
  let (units, rest) ← readUnits? input
  some (joinHalves units, rest)

/-! ### Lists and records -/

/-- One or more items with commas between them, up to the closing bracket.  The bound is
on the number of items. -/
def readItems? {α : Type} (readItem? : List Char → Option (α × List Char)) (close : Char) :
    Nat → List Char → Option (List α × List Char)
  | 0, _ => none
  | bound + 1, input => do
    let (item, rest) ← readItem? input
    match skipSpace rest with
    | [] => none
    | c :: rest =>
      if c = close then some ([item], rest)
      else if c = ',' then do
        let (items, rest) ← readItems? readItem? close bound rest
        some (item :: items, rest)
      else none

/-- Any number of items with commas between them, up to the closing bracket. -/
def readSequence? {α : Type} (readItem? : List Char → Option (α × List Char)) (close : Char)
    (input : List Char) : Option (List α × List Char) :=
  match skipSpace input with
  | [] => none
  | c :: rest =>
    if c = close then some ([], rest)
    else readItems? readItem? close input.length (c :: rest)

/-- A field of a record: a name, a colon and a value. -/
def readField? (readValue? : List Char → Option (Json × List Char)) (input : List Char) :
    Option ((List TextUnit × Json) × List Char) := do
  let rest ← dropWord? ['"'] (skipSpace input)
  let (name, rest) ← readText? rest
  let rest ← dropWord? [':'] (skipSpace rest)
  let (value, rest) ← readValue? rest
  some ((name, value), rest)

/-! ### Values -/

/-- A value that nests less deeply than the bound. -/
def readValue? : Nat → List Char → Option (Json × List Char)
  | 0, _ => none
  | depth + 1, input =>
    match skipSpace input with
    | '"' :: rest => do
      let (units, rest) ← readText? rest
      some (.text units, rest)
    | '[' :: rest => do
      let (items, rest) ← readSequence? (readValue? depth) ']' rest
      some (.list items, rest)
    | '{' :: rest => do
      let (fields, rest) ← readSequence? (readField? (readValue? depth)) '}' rest
      some (.record fields, rest)
    | 'n' :: rest => do
      let rest ← dropWord? ['u', 'l', 'l'] rest
      some (.null, rest)
    | 't' :: rest => do
      let rest ← dropWord? ['r', 'u', 'e'] rest
      some (.bool true, rest)
    | 'f' :: rest => do
      let rest ← dropWord? ['a', 'l', 's', 'e'] rest
      some (.bool false, rest)
    | rest => readNumeral? rest

/-- Reads a JSON text that holds one value and nothing else. -/
def read? (input : List Char) : Option Json := do
  let (value, rest) ← readValue? (input.length + 1) input
  if (skipSpace rest).isEmpty then some value else none

/-- Reads a JSON text that is given as a string. -/
def ofText? (input : String) : Option Json :=
  read? input.toList

end Json

end AccessRights
