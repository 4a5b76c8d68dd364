/-
AccessRights/Json/Fields.lean

How domain values are laid out in JSON.

A structure is a record of named fields in any order.  Fields that it does
not have are ignored, a field of it that stands twice is refused.  It may
also be a list of its field values in order, at most as many as there are
fields.  Either way the result is one slot per field, empty where the field
is missing; what an empty slot means is decided field by field.

A choice is the name of the alternative, or a record with that name alone
and the value null.
-/
import AccessRights.Json

namespace AccessRights

namespace Json

/-! ### Slots -/

/-- The value of the named field, `none` inside when it is missing; refused when the field
stands twice. -/
def slot? (fields : List (String × Json)) (name : String) : Option (Option Json) :=
  match fields.filter fun field => field.1 == name with
  | [] => some none
  | [field] => some (some field.2)
  | _ => none

/-- The slots of a structure with the given fields. -/
def slots? (names : List String) : Json → Option (List (Option Json))
  | record fields => do
    let fields ← fields.mapM fun field => do some (← stringOfText? field.1, field.2)
    names.mapM (slot? fields)
  | list items =>
    if items.length ≤ names.length then
      some (items.map some ++ List.replicate (names.length - items.length) none)
    else none
  | _ => none

/-! ### The contents of a slot -/

variable {α : Type}

/-- A field that must be there. -/
def required (read? : Json → Option α) (slot : Option Json) : Option α :=
  slot.bind read?

/-- A field with a value for when it is missing. -/
def withDefault (missing : α) (read? : Json → Option α) : Option Json → Option α
  | none => some missing
  | some value => read? value

/-- A field that may be missing or null. -/
def nullable (read? : Json → Option α) : Option Json → Option (Option α)
  | none | some null => some none
  | some value => (read? value).map some

/-! ### Lists and choices -/

/-- A list of values of one type. -/
def listOf? (read? : Json → Option α) (value : Json) : Option (List α) := do
  (← value.items?).mapM read?

/-- The name of a chosen alternative. -/
def choice? : Json → Option String
  | text units => stringOfText? units
  | record [(name, null)] => stringOfText? name
  | _ => none

end Json

end AccessRights
