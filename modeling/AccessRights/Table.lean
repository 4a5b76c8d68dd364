/-
AccessRights/Table.lean

Tables: finite maps from numbers to rows, read in ascending order of the
numbers.

Two tables are equal exactly when every number has the same row in both,
so "the table is unchanged" is an equation.

What look-ups find after an edit is stated for ordered maps of any keys, in
terms of equality of keys instead of their order.

Main results: `Table.mem_rows` (the rows are what look-ups find) and
`lookup_insert` with its companions.
-/
import Std.Data.ExtTreeMap
import Std.Data.ExtTreeSet

namespace AccessRights

/-! ### Look-ups after an edit -/

section Lookups

variable {Key Value : Type} [Ord Key] [Std.TransOrd Key] [Std.LawfulEqOrd Key]

theorem lookup_insert [DecidableEq Key] (map : Std.ExtTreeMap Key Value) (key other : Key)
    (value : Value) :
    (map.insert key value)[other]? = if key = other then some value else map[other]? := by
  simp only [Std.ExtTreeMap.getElem?_insert, Std.LawfulEqCmp.compare_eq_iff_eq]

/-- What is found after an insertion is what was inserted, or was found before. -/
theorem of_lookup_insert [DecidableEq Key] {map : Std.ExtTreeMap Key Value} {key other : Key}
    {value found : Value} (h : (map.insert key value)[other]? = some found) :
    key = other ∧ value = found ∨ key ≠ other ∧ map[other]? = some found := by
  rw [lookup_insert] at h
  split at h
  · exact .inl ⟨‹_›, Option.some.inj h⟩
  · exact .inr ⟨‹_›, h⟩

theorem lookup_erase [DecidableEq Key] (map : Std.ExtTreeMap Key Value) (key other : Key) :
    (map.erase key)[other]? = if key = other then none else map[other]? := by
  simp only [Std.ExtTreeMap.getElem?_erase, Std.LawfulEqCmp.compare_eq_iff_eq]

theorem lookup_modify [DecidableEq Key] (map : Std.ExtTreeMap Key Value) (key other : Key)
    (edit : Value → Value) :
    (map.modify key edit)[other]? = if key = other then map[key]?.map edit else map[other]? := by
  simp only [Std.ExtTreeMap.getElem?_modify, Std.LawfulEqCmp.compare_eq_iff_eq]

theorem mem_insert_iff {set : Std.ExtTreeSet Key} {key other : Key} :
    other ∈ set.insert key ↔ key = other ∨ other ∈ set := by
  rw [Std.ExtTreeSet.mem_insert, Std.LawfulEqCmp.compare_eq_iff_eq]

theorem mem_erase_iff {set : Std.ExtTreeSet Key} {key other : Key} :
    other ∈ set.erase key ↔ key ≠ other ∧ other ∈ set := by
  rw [Std.ExtTreeSet.mem_erase, Ne, Std.LawfulEqCmp.compare_eq_iff_eq]

end Lookups

/-! ### Tables -/

/-- A finite map from numbers to rows. -/
abbrev Table (Row : Type) := Std.ExtTreeMap UInt64 Row

namespace Table

variable {Row : Type}

/-- The rows in ascending order of their numbers. -/
def rows (table : Table Row) : List Row :=
  table.toList.map Prod.snd

theorem mem_rows {table : Table Row} {row : Row} :
    row ∈ table.rows ↔ ∃ id : UInt64, table[id]? = some row := by
  simp [rows, Std.ExtTreeMap.mem_toList_iff_getElem?_eq_some]

/-- Putting a row where it is already changes nothing. -/
theorem insert_eq_self {table : Table Row} {id : UInt64} {row : Row} (h : table[id]? = some row) :
    table.insert id row = table := by
  refine Std.ExtTreeMap.ext_getElem? fun other => ?_
  rw [lookup_insert]
  split
  · rename_i heq
    rw [← heq, h]
  · rfl

/-- Changing a row that is there is putting the changed row in its place. -/
theorem modify_eq_insert {table : Table Row} {id : UInt64} {row : Row} (h : table[id]? = some row)
    (edit : Row → Row) : table.modify id edit = table.insert id (edit row) := by
  refine Std.ExtTreeMap.ext_getElem? fun other => ?_
  rw [Std.ExtTreeMap.getElem?_modify, Std.ExtTreeMap.getElem?_insert]
  split
  · rw [h, Option.map_some]
  · rfl

theorem modify_insert (table : Table Row) (id : UInt64) (row : Row) (edit : Row → Row) :
    (table.insert id row).modify id edit = table.insert id (edit row) := by
  rw [modify_eq_insert Std.ExtTreeMap.getElem?_insert_self]
  refine Std.ExtTreeMap.ext_getElem? fun other => ?_
  rw [Std.ExtTreeMap.getElem?_insert, Std.ExtTreeMap.getElem?_insert,
    Std.ExtTreeMap.getElem?_insert]
  split <;> rfl

end Table

end AccessRights
