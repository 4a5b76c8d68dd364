/-
AccessRights/Text/Blank.lean

The blank characters of Unicode (property White_Space) and the removal of
blanks around a text.

Texts are handled as lists of characters here and in all readers of the
library, so that they can be taken apart by recursion.
-/

namespace AccessRights

/-! ### The table -/

/-- The ranges of code points with the property White_Space, both ends included. -/
def blankRanges : List (Nat × Nat) :=
  [(0x09, 0x0D), (0x20, 0x20), (0x85, 0x85), (0xA0, 0xA0), (0x1680, 0x1680),
   (0x2000, 0x200A), (0x2028, 0x2029), (0x202F, 0x202F), (0x205F, 0x205F),
   (0x3000, 0x3000)]

/-- Whether a character is blank. -/
def isBlank (c : Char) : Bool :=
  blankRanges.any fun range => range.1 ≤ c.toNat && c.toNat ≤ range.2

/-! ### Trimming -/

/-- The text without the blanks at its start. -/
def trimStart (text : List Char) : List Char :=
  text.dropWhile isBlank

/-- The text without the blanks at its start and at its end. -/
def trim (text : List Char) : List Char :=
  (trimStart (trimStart text).reverse).reverse

theorem trimStart_cons_of_not_blank {c : Char} (text : List Char)
    (h : isBlank c = false) : trimStart (c :: text) = c :: text := by
  simp [trimStart, h]

theorem trimStart_eq_self {text : List Char} (h : ∀ c ∈ text.head?, isBlank c = false) :
    trimStart text = text := by
  cases text with
  | nil => rfl
  | cons c rest => exact trimStart_cons_of_not_blank rest (h c (by simp))

end AccessRights
