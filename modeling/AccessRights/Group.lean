/-
AccessRights/Group.lean

Groups and roles, and the membership of assets in them.

Groups and roles are one kind of thing, told apart by a flag, and hang in
one forest by their parent links.  A group flagged as default is joined by
new assets.  A group holds rights under an actor of its own.

Main results: `validate_eq_ok_iff` (which groups are well formed).
-/
import AccessRights.Actor
import AccessRights.Error
import AccessRights.Text.FlagWord
import AccessRights.Timestamp

namespace AccessRights

/-! ### Flags and kinds -/

/-- The kind and the behaviour of a group.  Bits without a name are kept. -/
structure GroupFlags where
  bits : BitVec 8
deriving DecidableEq, Inhabited

namespace GroupFlags

/-- A plain group. -/
def group : GroupFlags := ⟨1⟩
/-- A role. -/
def role : GroupFlags := ⟨2⟩
/-- New assets join it. -/
def default : GroupFlags := ⟨4⟩
/-- Groups and roles alike, as a mask for queries. -/
def anyKind : GroupFlags := ⟨group.bits ||| role.bits⟩

/-- The names of the three flags, lowest bit first. -/
def table : List (NamedBit 8) :=
  [⟨"GROUP", group.bits⟩, ⟨"ROLE", role.bits⟩, ⟨"DEFAULT", default.bits⟩]

/-- The bits set in both words. -/
def inter (a b : GroupFlags) : GroupFlags := ⟨a.bits &&& b.bits⟩

/-- Whether every bit of `wanted` is set. -/
def contains (flags wanted : GroupFlags) : Bool :=
  flags.inter wanted == wanted

/-- Whether the two words have a bit in common. -/
def meets (a b : GroupFlags) : Bool :=
  (a.inter b).bits != 0

end GroupFlags

/-- The kinds of group. -/
inductive GroupKind where
  | group
  | role
deriving DecidableEq, Inhabited

namespace GroupKind

/-- The flag of a kind. -/
def flag : GroupKind → GroupFlags
  | group => .group
  | role => .role

/-- The kind as it appears in messages. -/
def text : GroupKind → String
  | group => "Group"
  | role => "Role"

end GroupKind

/-! ### Groups -/

/-- A node of the forest of groups and roles.  The number zero stands for "not stored yet"
in `id` and for "no parent" in `parentId`. -/
structure Group where
  id : UInt64
  parentId : UInt64
  flags : GroupFlags
  key : String
  displayName : String
  createdAt : Timestamp
  updatedAt : Timestamp
deriving DecidableEq, Inhabited

namespace Group

/-- The kind of the group, `none` when its flags name no kind or both. -/
def kind? (group : Group) : Option GroupKind :=
  let named := group.flags.inter .anyKind
  if named = .group then some .group
  else if named = .role then some .role
  else none

/-- Whether the group is a role. -/
def isRole (group : Group) : Bool :=
  group.kind? == some .role

/-- Whether new assets join the group. -/
def isDefault (group : Group) : Bool :=
  group.flags.contains .default

/-- The actor under which the group holds rights. -/
def actor (group : Group) : Actor :=
  if group.isRole then .role group.id else .group group.id

/-- Checks that a group is well formed; of several faults the first in this order is
reported. -/
def validate (group : Group) : Except AccessError Unit :=
  if group.kind?.isNone then
    .error (.invalidGroup
      ("group '" ++ group.key ++ "' must be exactly one of group or role"))
  else if group.key = "" then
    .error (.invalidGroup "group key cannot be empty")
  else if group.displayName = "" then
    .error (.invalidGroup ("group '" ++ group.key ++ "' has an empty display name"))
  else if group.id ≠ 0 ∧ group.parentId = group.id then
    .error (.circularGroup group.id)
  else .ok ()

/-- A group is well formed when it has exactly one kind, a key and a name, and is not its
own parent. -/
theorem validate_eq_ok_iff {group : Group} :
    group.validate = .ok () ↔
      group.kind?.isSome = true ∧ group.key ≠ "" ∧ group.displayName ≠ "" ∧
      (group.id ≠ 0 → group.parentId ≠ group.id) := by
  unfold validate
  cases group.kind? <;> grind

/-- A new group, not stored yet, made at the moment `now`. -/
def draft (now : Timestamp) (flags : GroupFlags) (parentId : UInt64)
    (key displayName : String) : Except AccessError Group :=
  let group : Group :=
    { id := 0, parentId, flags, key, displayName, createdAt := now, updatedAt := now }
  group.validate.map fun _ => group

end Group

/-! ### Membership -/

/-- The membership of an asset in a group. -/
structure Relation where
  groupId : UInt64
  asset : Actor
deriving DecidableEq, Inhabited

namespace Relation

instance : Ord Relation :=
  ⟨compareByKeys (fun relation => relation.groupId) fun relation => relation.asset⟩

instance : Std.TransOrd Relation :=
  inferInstanceAs (Std.TransCmp
    (compareByKeys (fun relation : Relation => relation.groupId) fun relation => relation.asset))

instance : Std.LawfulEqOrd Relation :=
  lawfulEqCmp_byKeys fun a b hgroupid hasset => by
    cases a
    cases b
    simp_all

end Relation

end AccessRights
