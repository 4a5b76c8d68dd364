/-
AccessRights/Site/Groups.lean

Calls on the forest of groups and on memberships.

Groups are read through: what the node's index does not hold is fetched
from the store and taken in.  Changes go to the store first and into the
index after, and each of them is counted.  Membership is answered from the
index alone.

The walk to the root of a group keeps a trail, so it ends on any data: at a
root, at a missing group, or at the first repetition.
-/
import AccessRights.Site
import AccessRights.Trail

namespace AccessRights

namespace Site

/-! ### Loading -/

/-- Replaces the index of groups by everything in the store. -/
def load : Call Unit := do
  let groups ← Call.ask (.store "all groups") Backend.allGroups
  let relations ← Call.ask (.store "all relations") Backend.allRelations
  editGroups fun _ => .build groups relations
  bump

/-! ### Finding groups -/

/-- A group found in the index, or fetched from the store and taken in. -/
def readGroup (indexed : GroupIndex → Option Group) (context : String)
    (fetch : StoreCall (Option Group)) (designation : String) : Call Group := do
  match indexed (← currentNode).groups with
  | some group => pure group
  | none =>
    match ← Call.ask (.store context) fetch with
    | none => throw (.groupNotFound designation)
    | some group =>
      editGroups (·.insert group)
      pure group

/-- The group of a number. -/
def groupById (id : UInt64) : Call Group :=
  if id = 0 then throw (.groupNotFound "0")
  else readGroup (·.group? id) ("group " ++ toString id) (Backend.groupById id) (toString id)

/-- The group of a key. -/
def groupByKey (key : String) : Call Group :=
  readGroup (·.groupOfKey? key) ("group '" ++ key ++ "'") (Backend.groupByKey key) key

/-- The group of a display name, or one of them; `turn` stands for the order of the search. -/
def groupByName (turn : Nat) (name : String) : Call Group :=
  readGroup (·.groupOfName? turn name) ("group named '" ++ name ++ "'") (Backend.groupByName name)
    name

/-! ### Ancestry -/

/-- The group and its ancestors up to the root, on a walk that has passed the trail. -/
def ancestryFrom (trail : Trail) (groupId : UInt64) : Call (List Group) :=
  if groupId = 0 then pure []
  else if fresh : groupId ∉ trail then do
    let group ← groupById groupId
    let ancestors ← ancestryFrom (trail.add groupId fresh) group.parentId
    pure (group :: ancestors)
  else throw (.circularGroup groupId)
termination_by trail.room
decreasing_by exact trail.room_add_lt fresh

/-- The group and its ancestors, nearest first. -/
def ancestry (groupId : UInt64) : Call (List Group) :=
  ancestryFrom .empty groupId

/-- Whether the parent links from a group run in a circle. -/
def isCircuited (groupId : UInt64) : Call Bool := do
  match ← Call.outcome (ancestry groupId) with
  | .ok _ => pure false
  | .error (.circularGroup _) => pure true
  | .error error => throw error

/-! ### Conditions on changes -/

/-- Checks that a group of the kind may hang below the parent; `childId` is zero for a
group that is not stored yet. -/
def checkGroupParent (childId : UInt64) (kind : GroupKind) (parentId : UInt64) :
    Call Unit := do
  if childId ≠ 0 ∧ parentId = childId then
    throw (.circularGroup childId)
  let parent ← groupById parentId
  if parent.kind? ≠ some kind then
    throw (.groupKindMismatch ("parent " ++ toString parentId ++ " is not of kind " ++ kind.text))
  let ancestors ← ancestry parentId
  if childId ≠ 0 ∧ (ancestors.any fun group => group.id == childId) = true then
    throw (.circularGroup childId)

/-- Checks that no other group than `ownId` has the key. -/
def checkGroupKeyFree (key : String) (ownId : UInt64) : Call Unit := do
  if (← currentNode).groups.byKey[key]?.any (· != ownId) then
    throw (.groupKeyTaken key)
  let stored ← Call.ask (.store ("group '" ++ key ++ "'")) (Backend.groupByKey key)
  if stored.any fun group => group.id != ownId then
    throw (.groupKeyTaken key)

/-- Checks that an asset can be a member of groups. -/
def checkAsset (asset : Actor) : Call Unit := do
  if asset.kind = .everyone ∨ asset.id = 0 then
    throw (.invalidAsset ("'" ++ asset.text ++ "' cannot be a group member"))

/-- The refusal for a failure to store a group of the key: a conflict means that the key
is taken. -/
def groupKeyFailure (key : String) : StoreError → AccessError
  | .conflict _ => .groupKeyTaken key
  | failure => .store ("group '" ++ key ++ "'") failure

/-- Stores a group and takes it in. -/
def storeGroup (wrap : StoreError → AccessError) (group : Group) : Call Group := do
  let group ← Call.ask wrap (Backend.upsertGroup group)
  editGroups (·.insert group)
  bump
  pure group

/-! ### Changing the forest -/

/-- Creates a group or a role. -/
def createGroup (now : Timestamp) (flags : GroupFlags) (parentId : UInt64)
    (key displayName : String) : Call Group := do
  let group ← liftExcept (Group.draft now flags parentId key displayName)
  match group.kind? with
  | none => throw (.invalidGroup ("group '" ++ key ++ "' has no kind"))
  | some kind =>
    if parentId ≠ 0 then
      checkGroupParent 0 kind parentId
    checkGroupKeyFree key 0
    storeGroup (groupKeyFailure key) group

/-- Changes the key, the name or the flags of a group, but neither its kind nor its
parent. -/
def updateGroup (now : Timestamp) (group : Group) : Call Group := do
  let current ← groupById group.id
  liftExcept group.validate
  if group.kind? ≠ current.kind? then
    throw (.groupKindMismatch ("group " ++ toString group.id ++ " cannot change its kind"))
  if group.parentId ≠ current.parentId then
    throw (.forbiddenChange .parentId)
  if group.key ≠ current.key then
    checkGroupKeyFree group.key group.id
  storeGroup (groupKeyFailure group.key)
    { group with createdAt := current.createdAt, updatedAt := now }

/-- Hangs a group below another parent; the parent zero detaches it. -/
def moveGroup (now : Timestamp) (groupId parentId : UInt64) : Call Group := do
  let group ← groupById groupId
  match group.kind? with
  | none => throw (.invalidGroup ("group " ++ toString groupId ++ " has no kind"))
  | some kind =>
    if parentId ≠ 0 then
      checkGroupParent groupId kind parentId
    storeGroup (.store ("group " ++ toString groupId)) { group with parentId, updatedAt := now }

/-- Removes memberships of a group from the store, one after the other, as far as the
store allows. -/
def dropRelations (groupId : UInt64) : List Actor → Call Unit
  | [] => pure ()
  | asset :: assets => do
    Call.attempt (Backend.deleteRelation groupId asset)
    dropRelations groupId assets

/-- Deletes a group that has no groups below it, with the memberships the node knows.

The members are a set, which has no order of its own.  They are taken in ascending order
here, one of the many in which they may go.  Which of them stay in the store after a
failure can depend on it, for failures are planned one call after the other. -/
def deleteGroup (groupId : UInt64) : Call Unit := do
  let _ ← groupById groupId
  let children ← Call.ask (.store ("children of group " ++ toString groupId))
    (Backend.childGroups groupId)
  if !children.isEmpty then
    throw (.groupHasChildren groupId)
  let index := (← currentNode).groups
  if index.hasChildren groupId then
    throw (.groupHasChildren groupId)
  dropRelations groupId (index.membersOf groupId).toList
  Call.ask (.store ("group " ++ toString groupId)) (Backend.deleteGroup groupId)
  editGroups (·.remove groupId)
  bump

/-! ### Memberships -/

/-- The context of a failure that concerns a membership. -/
def relationContext (groupId : UInt64) (asset : Actor) : String :=
  "relation " ++ asset.text ++ " -> " ++ toString groupId

/-- Makes an asset a member of a group.  A membership that only the store knew is taken
in, and the call refused as for any other member. -/
def relate (groupId : UInt64) (asset : Actor) : Call Unit := do
  checkAsset asset
  let _ ← groupById groupId
  if (← currentNode).groups.isMember groupId asset then
    throw (.alreadyMember groupId)
  let wrap := AccessError.store (relationContext groupId asset)
  if ← Call.ask wrap (Backend.hasRelation groupId asset) then
    editGroups (·.link groupId asset)
    throw (.alreadyMember groupId)
  Call.ask wrap (Backend.createRelation groupId asset)
  editGroups (·.link groupId asset)
  bump

/-- Ends the membership of an asset in a group. -/
def unrelate (groupId : UInt64) (asset : Actor) : Call Unit := do
  let wrap := AccessError.store (relationContext groupId asset)
  if !(← currentNode).groups.isMember groupId asset then
    if !(← Call.ask wrap (Backend.hasRelation groupId asset)) then
      throw (.notMember groupId)
  Call.ask wrap (Backend.deleteRelation groupId asset)
  editGroups (·.unlink groupId asset)
  bump

/-- Makes an asset a member of the given groups in turn, and gives those it was not in. -/
def joinAll (asset : Actor) : List UInt64 → Call (List UInt64)
  | [] => pure []
  | groupId :: groupIds => do
    match ← Call.outcome (relate groupId asset) with
    | .ok () =>
      let joined ← joinAll asset groupIds
      pure (groupId :: joined)
    | .error (.alreadyMember _) => joinAll asset groupIds
    | .error error => throw error

/-- Makes an asset a member of every default group it is not in, and gives those groups. -/
def joinDefaults (asset : Actor) : Call (List UInt64) := do
  checkAsset asset
  joinAll asset ((← currentNode).groups.missingDefaults asset)

end Site

end AccessRights
