/-
AccessRights/Group/Index.lean

The groups and memberships that a node holds in memory.

Groups are found by number and by key, the default ones are marked, and
memberships are kept twice: by group and by asset.  Taking a group in
replaces what was known under its number; where it takes over the key of
another group, that key leads to the newcomer.
-/
import AccessRights.Group
import AccessRights.Table
import Std.Data.ExtTreeSet

namespace AccessRights

/-- The groups and memberships that a node knows. -/
structure GroupIndex where
  byId : Table Group := ∅
  byKey : Std.ExtTreeMap String UInt64 := ∅
  members : Table (Std.ExtTreeSet Actor) := ∅
  memberships : Std.ExtTreeMap Actor (Std.ExtTreeSet UInt64) := ∅
  defaults : Std.ExtTreeSet UInt64 := ∅
deriving Inhabited

namespace GroupIndex

/-! ### Reading -/

/-- The group of a number. -/
def group? (index : GroupIndex) (id : UInt64) : Option Group :=
  index.byId[id]?

/-- The group that a key leads to. -/
def groupOfKey? (index : GroupIndex) (key : String) : Option Group := do
  index.group? (← index.byKey[key]?)

/-- The groups of a display name, which need not be unique. -/
def namesakes (index : GroupIndex) (name : String) : List Group :=
  index.byId.rows.filter fun group => group.displayName == name

/-- The group of a display name that a search comes upon first.  The groups of an index are
searched in no particular order, which may be another one each time; `turn` stands for it. -/
def groupOfName? (index : GroupIndex) (turn : Nat) (name : String) : Option Group :=
  (index.namesakes name)[turn % (index.namesakes name).length]?

theorem mem_namesakes {index : GroupIndex} {name : String} {group : Group} :
    group ∈ index.namesakes name ↔
      (∃ id : UInt64, index.group? id = some group) ∧ group.displayName = name := by
  rw [namesakes, List.mem_filter, beq_iff_eq]
  exact and_congr_left' Table.mem_rows

/-- A search comes upon a group of the name, and may come upon each of them. -/
theorem mem_namesakes_iff_exists_turn {index : GroupIndex} {name : String} {group : Group} :
    group ∈ index.namesakes name ↔ ∃ turn, index.groupOfName? turn name = some group := by
  refine ⟨fun h => ?_, fun ⟨_, h⟩ => List.mem_of_getElem? h⟩
  obtain ⟨turn, hturn, hgroup⟩ := List.mem_iff_getElem.1 h
  refine ⟨turn, ?_⟩
  rw [groupOfName?, Nat.mod_eq_of_lt hturn, List.getElem?_eq_getElem hturn, hgroup]

/-- A search fails only where no group has the name. -/
theorem groupOfName?_eq_none_iff {index : GroupIndex} {turn : Nat} {name : String} :
    index.groupOfName? turn name = none ↔ index.namesakes name = [] := by
  rw [groupOfName?, List.getElem?_eq_none_iff]
  refine ⟨fun h => ?_, fun h => by simp [h]⟩
  refine List.eq_nil_of_length_eq_zero (Nat.eq_zero_of_not_pos fun hpos => ?_)
  exact Nat.not_le_of_lt (Nat.mod_lt turn hpos) h

/-- The assets in a group. -/
def membersOf (index : GroupIndex) (groupId : UInt64) : Std.ExtTreeSet Actor :=
  index.members.getD groupId ∅

/-- The groups of an asset. -/
def groupsOf (index : GroupIndex) (asset : Actor) : Std.ExtTreeSet UInt64 :=
  index.memberships.getD asset ∅

/-- Whether an asset is in a group. -/
def isMember (index : GroupIndex) (groupId : UInt64) (asset : Actor) : Bool :=
  (index.membersOf groupId).contains asset

/-- The groups of an asset whose kind is in the mask, in ascending order. -/
def groupsByAsset (index : GroupIndex) (mask : GroupFlags) (asset : Actor) : List Group :=
  ((index.groupsOf asset).toList.filterMap index.group?).filter fun group =>
    group.flags.meets (mask.inter .anyKind)

/-- The default groups in ascending order. -/
def defaultGroups (index : GroupIndex) : List Group :=
  index.defaults.toList.filterMap index.group?

/-- The default groups that an asset is not in, in ascending order. -/
def missingDefaults (index : GroupIndex) (asset : Actor) : List UInt64 :=
  index.defaults.toList.filter fun id => !index.isMember id asset

/-- Whether a group has groups below it. -/
def hasChildren (index : GroupIndex) (id : UInt64) : Bool :=
  index.byId.rows.any fun group => group.parentId == id

/-! ### Writing -/

/-- Takes a group in. -/
def insert (index : GroupIndex) (group : Group) : GroupIndex :=
  let byKey := match index.group? group.id with
    | some previous =>
      if previous.key = group.key then index.byKey else index.byKey.erase previous.key
    | none => index.byKey
  { index with
    byId := index.byId.insert group.id group
    byKey := byKey.insert group.key group.id
    defaults :=
      if group.isDefault then index.defaults.insert group.id
      else index.defaults.erase group.id }

/-- Forgets a group together with its key and its memberships. -/
def remove (index : GroupIndex) (id : UInt64) : GroupIndex :=
  match index.group? id with
  | none => index
  | some group =>
    { byId := index.byId.erase id
      byKey := index.byKey.erase group.key
      members := index.members.erase id
      memberships := (index.membersOf id).toList.foldl
        (fun memberships asset => memberships.modify asset (·.erase id)) index.memberships
      defaults := index.defaults.erase id }

/-- Makes an asset a member of a group. -/
def link (index : GroupIndex) (groupId : UInt64) (asset : Actor) : GroupIndex :=
  { index with
    members := index.members.insert groupId ((index.membersOf groupId).insert asset)
    memberships := index.memberships.insert asset ((index.groupsOf asset).insert groupId) }

/-- Ends the membership of an asset in a group. -/
def unlink (index : GroupIndex) (groupId : UInt64) (asset : Actor) : GroupIndex :=
  { index with
    members := index.members.modify groupId (·.erase asset)
    memberships := index.memberships.modify asset (·.erase groupId) }

/-- The index of the given groups and memberships. -/
def build (groups : List Group) (relations : List Relation) : GroupIndex :=
  relations.foldl (fun index relation => index.link relation.groupId relation.asset)
    (groups.foldl insert {})

end GroupIndex

end AccessRights
