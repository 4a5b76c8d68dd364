/-
AccessRights/Text/FlagWord.lean

The text form of a flag word: the names of its set bits in the order of a
table, joined by ` | `, and after them, when bits without a name are set,
those bits as one `0x` numeral.  The empty word is the empty text.

Reading is more generous than writing: blanks around the pieces are
dropped, the pieces may come in any order and more than once, and a numeral
may stand for named bits too.

Main definitions: `flagWordText` and `readFlagWord?`.
-/
import AccessRights.Text.Blank
import AccessRights.Text.Numeral

namespace AccessRights

/-- A bit of a flag word of `w` bits together with its name. -/
structure NamedBit (w : Nat) where
  name : String
  bit : BitVec w

variable {w : Nat}

/-! ### The named and the nameless bits of a word -/

/-- The entries of the table whose bits are set in the word, in table order. -/
def heldBits (table : List (NamedBit w)) (word : BitVec w) : List (NamedBit w) :=
  table.filter fun entry => word &&& entry.bit == entry.bit

/-- The bits of the word that no entry of the table names. -/
def namelessBits (table : List (NamedBit w)) (word : BitVec w) : BitVec w :=
  table.foldl (fun left entry => left &&& ~~~entry.bit) word

/-! ### Writing -/

/-- The pieces of the text form: the held names, then the nameless bits if there are any. -/
def flagPieces (table : List (NamedBit w)) (word : BitVec w) : List (List Char) :=
  let names := (heldBits table word).map fun entry => entry.name.toList
  let left := namelessBits table word
  if left = 0 then names else names ++ ['0' :: 'x' :: hexadecimal left.toNat]

/-- The text form of a flag word. -/
def flagWordText (table : List (NamedBit w)) (word : BitVec w) : List Char :=
  [' ', '|', ' '].intercalate (flagPieces table word)

/-! ### Reading -/

/-- The pieces of a text between the occurrences of `mark`; there is always one more than
there are marks. -/
def splitAtMark (mark : Char) : List Char → List (List Char)
  | [] => [[]]
  | c :: rest =>
    if c = mark then [] :: splitAtMark mark rest
    else match splitAtMark mark rest with
      | [] => [[c]]
      | piece :: pieces => (c :: piece) :: pieces

/-- The value of a hexadecimal numeral that fits into a word.  One plus sign may stand in
front. -/
def readHexWord? (w : Nat) (text : List Char) : Option (BitVec w) := do
  let digits := match text with
    | '+' :: digits => digits
    | digits => digits
  let value ← hexValue? digits
  let word := BitVec.ofNat w value
  if word.toNat = value then some word else none

/-- The bits of one trimmed piece: a name of the table, or `0x` and a numeral. -/
def readFlagPiece? (table : List (NamedBit w)) : List Char → Option (BitVec w)
  | '0' :: 'x' :: digits => readHexWord? w digits
  | piece => (table.find? fun entry => entry.name.toList == piece).map NamedBit.bit

/-- Reads the text form of a flag word.  A blank text is the empty word; an empty or
unknown piece is refused. -/
def readFlagWord? (table : List (NamedBit w)) (text : List Char) : Option (BitVec w) :=
  if (trim text).isEmpty then some 0
  else do
    let words ← (splitAtMark '|' text).mapM fun piece => readFlagPiece? table (trim piece)
    some (words.foldl (· ||| ·) 0)

end AccessRights
