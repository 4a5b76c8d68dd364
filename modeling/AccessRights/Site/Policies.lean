/-
AccessRights/Site/Policies.lean

Calls on policies and on the tree of their parent links.

Policies and rosters are read through: what the node does not hold is
fetched from the store and kept.  The key and the object of a policy are
its identity and never change.  A policy is stored together with its
roster, and storing settles the pending changes of the roster: they become
final, or are rolled back when the store fails.
-/
import AccessRights.Site
import AccessRights.Trail

namespace AccessRights

namespace Site

/-! ### Finding policies and rosters -/

/-- A policy found in the index, or fetched from the store and taken in. -/
def readPolicy (indexed : PolicyIndex → Option Policy) (context : String)
    (fetch : StoreCall (Option Policy)) (designation : String) : Call Policy := do
  match indexed (← currentNode).policies with
  | some policy => pure policy
  | none =>
    match ← Call.ask (.store context) fetch with
    | none => throw (.policyNotFound designation)
    | some policy =>
      editPolicies (·.insert policy)
      pure policy

/-- The policy of a number. -/
def policyById (id : UInt64) : Call Policy :=
  if id = 0 then throw .zeroPolicyId
  else readPolicy (·.policy? id) ("policy " ++ toString id) (Backend.policyById id) (toString id)

/-- The policy of a key. -/
def policyByKey (key : String) : Call Policy :=
  readPolicy (·.policyOfKey? key) ("policy '" ++ key ++ "'") (Backend.policyByKey key) key

/-- The policy of an object. -/
def policyByObject (object : PolicyObject) : Call Policy :=
  readPolicy (·.policyOfObject? object) ("policy for " ++ object.text)
    (Backend.policyByObject object) object.text

/-- The live roster of a policy, made from the stored record when it is first needed. -/
def rosterOf (policyId : UInt64) : Call Roster := do
  if policyId = 0 then
    throw .zeroPolicyId
  match (← currentNode).rosters[policyId]? with
  | some roster => pure roster
  | none =>
    let context := "roster of policy " ++ toString policyId
    match ← Call.ask (.store context) (Backend.rosterOfPolicy policyId) with
    | none => throw (.nilRoster policyId)
    | some record =>
      if record.policyId ≠ policyId then
        throw (.emptyRoster policyId)
      let roster := Roster.ofRecord record
      putRoster roster
      pure roster

/-! ### Conditions on changes -/

/-- Whether a designator belongs to another policy than `ownId`: the index decides if it
knows the designator, else the store does. -/
def isTaken (ownId : UInt64) (indexed : PolicyIndex → Option UInt64) (context : String)
    (fetch : StoreCall (Option Policy)) : Call Bool := do
  match indexed (← currentNode).policies with
  | some id => pure (id != ownId)
  | none =>
    let stored ← Call.ask (.store context) fetch
    pure (stored.any fun other => other.id != ownId)

/-- Checks that no other policy has the key. -/
def checkKeyFree (ownId : UInt64) (key : String) : Call Unit := do
  if ← isTaken ownId (·.byKey[key]?) ("policy '" ++ key ++ "'") (Backend.policyByKey key) then
    throw (.policyKeyTaken key)

/-- Checks that no other policy has the object. -/
def checkObjectFree (ownId : UInt64) (object : PolicyObject) : Call Unit := do
  if ← isTaken ownId (·.byObject[object]?) ("policy for " ++ object.text)
      (Backend.policyByObject object) then
    throw (.policyObjectConflict object.text)

/-- Checks that no other policy has the key or the object of this one. -/
def checkDesignatorsFree (policy : Policy) : Call Unit := do
  match policy.key with
  | some key => checkKeyFree policy.id key
  | none => pure ()
  match policy.object with
  | some object => checkObjectFree policy.id object
  | none => pure ()

/-- Checks that the parent links from `nextId` lead to neither the policy nor a repetition,
on a walk that has passed the trail. -/
def checkAcyclicFrom (policyId : UInt64) (trail : Trail) (nextId : UInt64) : Call Unit :=
  if nextId = 0 then pure ()
  else if nextId = policyId then throw (.circularParent policyId)
  else if fresh : nextId ∉ trail then do
    let next ← policyById nextId
    checkAcyclicFrom policyId (trail.add nextId fresh) next.parentId
  else throw (.circularParent policyId)
termination_by trail.room
decreasing_by exact trail.room_add_lt fresh

/-- Checks that the policy may hang below the parent. -/
def checkAcyclic (policyId parentId : UInt64) : Call Unit :=
  checkAcyclicFrom policyId .empty parentId

/-- The field in which two objects of a policy differ, if they do. -/
def changedObjectField? : Option PolicyObject → Option PolicyObject → Option FixedField
  | none, none => none
  | some current, some requested =>
    if current.name ≠ requested.name then some .objectName
    else if current.id ≠ requested.id then some .objectId
    else none
  | _, _ => some .object

/-! ### Changing the tree -/

/-- Stores a policy and its roster.  The pending changes of the roster are settled by it:
final if the store takes them, rolled back if it fails. -/
def persist (policy : Policy) (roster : Roster) : Call Unit := do
  match ← Call.outcome (Call.ask (.store ("policy " ++ toString policy.id))
      (Backend.updatePolicy policy roster.update)) with
  | .ok () =>
    putRoster roster.commit
    editPolicies (·.insert policy)
    bump
  | .error error =>
    putRoster roster.rollBack
    bump
    throw error

/-- Stores a new policy; when the store finds a conflict, the designator that another
writer took meanwhile is named if it can be found. -/
def storeNewPolicy (policy : Policy) : Call (Policy × RosterRecord) := do
  match ← Call.outcome
      (Call.ask (.store "new policy") (Backend.createPolicy policy (.empty 0))) with
  | .ok created => pure created
  | .error error@(.store _ (.conflict _)) =>
    checkDesignatorsFree policy
    throw error
  | .error error => throw error

/-- Creates a policy on which nobody but its owner has rights. -/
def createPolicy (now : Timestamp) (key : Option String) (ownerId parentId : UInt64)
    (object : Option PolicyObject) (flags : PolicyFlags) : Call Policy := do
  let draft ← liftExcept (Policy.draft now key ownerId parentId object flags)
  checkDesignatorsFree draft
  if parentId ≠ 0 then
    let _ ← policyById parentId
  let (policy, record) ← storeNewPolicy draft
  if record.policyId ≠ policy.id then
    throw (.emptyRoster policy.id)
  editPolicies (·.insert policy)
  putRoster (.ofRecord record)
  pure policy

/-- Changes the fields of a policy other than its key and its object, and makes the
pending changes of its roster final. -/
def updatePolicy (now : Timestamp) (policy : Policy) : Call Policy := do
  let current ← policyById policy.id
  if policy.key ≠ current.key then
    throw (.forbiddenChange .key)
  match changedObjectField? current.object policy.object with
  | some field => throw (.forbiddenChange field)
  | none => pure ()
  liftExcept policy.validate
  checkDesignatorsFree policy
  if policy.parentId ≠ 0 ∧ policy.parentId ≠ current.parentId then
    checkAcyclic policy.id policy.parentId
  let updated := { policy with createdAt := current.createdAt, updatedAt := now }
  let roster ← rosterOf updated.id
  persist updated roster
  if updated.parentId ≠ current.parentId ∨ updated.flags ≠ current.flags then
    editRoster updated.id Roster.forgetCalculated
  pure updated

/-- Hangs a policy below another parent and makes the pending changes of its roster final.
The parent zero detaches it, and it neither inherits nor extends from then on. -/
def movePolicy (now : Timestamp) (policyId parentId : UInt64) : Call Policy := do
  let policy ← policyById policyId
  let flags ←
    if parentId = 0 then pure policy.flags.detached
    else do
      let _ ← policyById parentId
      checkAcyclic policyId parentId
      pure policy.flags
  let moved := { policy with flags, parentId, updatedAt := now }
  let roster ← rosterOf policyId
  persist moved roster
  editRoster policyId Roster.forgetCalculated
  pure moved

/-- Deletes a policy and its roster. -/
def deletePolicy (policyId : UInt64) : Call Unit := do
  let _ ← policyById policyId
  Call.ask (.store ("policy " ++ toString policyId)) (Backend.deletePolicy policyId)
  editPolicies (·.remove policyId)
  editNode fun node => { node with rosters := node.rosters.erase policyId }
  bump

end Site

end AccessRights
