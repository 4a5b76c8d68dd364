/-
AccessRights/Store/Groups.lean

The stored groups and memberships.

The tables hand out numbers in ascending order, never the same one twice,
and refuse a group whose key another group has.  An operation that fails
gives no tables back: it has no effect.  Removing a group leaves its
memberships alone.
-/
import AccessRights.Group
import AccessRights.Table
import Std.Data.ExtTreeSet

namespace AccessRights

/-- The stored groups and memberships, and the last number that was handed out. -/
structure GroupTables where
  lastId : UInt64 := 0
  groups : Table Group := ∅
  relations : Std.ExtTreeSet Relation := ∅
deriving Inhabited

namespace GroupTables

/-! ### Reading -/

/-- The group of a number. -/
def byId? (tables : GroupTables) (id : UInt64) : Option Group :=
  tables.groups[id]?

/-- The group of a key; of several the one with the least number. -/
def byKey? (tables : GroupTables) (key : String) : Option Group :=
  tables.groups.rows.find? fun group => group.key == key

/-- The group of a display name; of several the one with the least number. -/
def byName? (tables : GroupTables) (name : String) : Option Group :=
  tables.groups.rows.find? fun group => group.displayName == name

/-- All groups in ascending order. -/
def all (tables : GroupTables) : List Group :=
  tables.groups.rows

/-- The groups directly below a group. -/
def children (tables : GroupTables) (parentId : UInt64) : List Group :=
  tables.groups.rows.filter fun group => group.parentId == parentId

/-- All memberships in ascending order. -/
def allRelations (tables : GroupTables) : List Relation :=
  tables.relations.toList

/-- Whether an asset is a member of a group. -/
def isRelated (tables : GroupTables) (groupId : UInt64) (asset : Actor) : Bool :=
  tables.relations.contains ⟨groupId, asset⟩

/-! ### Writing -/

/-- Whether a group of another number has the key of this one. -/
def keyTaken (tables : GroupTables) (group : Group) : Bool :=
  tables.groups.rows.any fun other => other.id != group.id && other.key == group.key

/-- Stores a group: under the next number if its own is zero, else in place of the stored
group of its number. -/
def upsert (group : Group) (tables : GroupTables) : Except StoreError (Group × GroupTables) :=
  if tables.keyTaken group then .error (.conflict ("group key '" ++ group.key ++ "'"))
  else if group.id = 0 then
    let id := tables.lastId + 1
    let group := { group with id }
    .ok (group, { tables with lastId := id, groups := tables.groups.insert id group })
  else match tables.byId? group.id with
    | none => .error (.notFound ("group " ++ toString group.id))
    | some _ => .ok (group, { tables with groups := tables.groups.insert group.id group })

/-- Removes a group. -/
def delete (id : UInt64) (tables : GroupTables) : Except StoreError (Unit × GroupTables) :=
  match tables.byId? id with
  | none => .error (.notFound ("group " ++ toString id))
  | some _ => .ok ((), { tables with groups := tables.groups.erase id })

/-- Makes an asset a member of a stored group; it may be one already. -/
def relate (groupId : UInt64) (asset : Actor) (tables : GroupTables) :
    Except StoreError (Unit × GroupTables) :=
  match tables.byId? groupId with
  | none => .error (.notFound ("group " ++ toString groupId))
  | some _ => .ok ((), { tables with relations := tables.relations.insert ⟨groupId, asset⟩ })

/-- Ends the membership of an asset in a group, if there is one. -/
def unrelate (groupId : UInt64) (asset : Actor) (tables : GroupTables) :
    Except StoreError (Unit × GroupTables) :=
  .ok ((), { tables with relations := tables.relations.erase ⟨groupId, asset⟩ })

end GroupTables

end AccessRights
