/-
AccessRights/Store/Backend.lean

The store as nodes see it: behind calls that may fail.

A call takes the next planned fault of its method.  A failure ends the call
without effect; the other faults bend its answer or let another writer act
first.
-/
import AccessRights.Store
import AccessRights.Store.Fault

namespace AccessRights

/-- A store and the faults that its calls will meet. -/
structure Backend where
  store : Store := {}
  faults : FaultPlan := []
deriving Inhabited

/-- A call on a store that may fail. -/
abbrev StoreCall (α : Type) := ExceptT StoreError (StateM Backend) α

namespace Backend

/-! ### Building blocks -/

/-- Takes the fault that is planned for this call of a method; a planned failure ends the
call. -/
def meetFault (method : StoreMethod) : StoreCall Fault := do
  let backend ← get
  let (fault, faults) := FaultPlan.next method backend.faults
  set { backend with faults }
  match fault with
  | .failure error => throw error
  | fault => pure fault

/-- Performs an operation on the stored policies. -/
def onPolicies {α : Type} (operation : PolicyTables → Except StoreError (α × PolicyTables)) :
    StoreCall α := do
  let backend ← get
  match operation backend.store.policies with
  | .error error => throw error
  | .ok (value, policies) =>
    set { backend with store := { backend.store with policies } }
    pure value

/-- Performs an operation on the stored groups. -/
def onGroups {α : Type} (operation : GroupTables → Except StoreError (α × GroupTables)) :
    StoreCall α := do
  let backend ← get
  match operation backend.store.groups with
  | .error error => throw error
  | .ok (value, groups) =>
    set { backend with store := { backend.store with groups } }
    pure value

/-- Looks something up that may be absent. -/
def find {α : Type} (method : StoreMethod) (look : Store → Option α) :
    StoreCall (Option α) := do
  match ← meetFault method with
  | .absence => pure none
  | _ => pure (look (← get).store)

/-! ### Policies -/

/-- Stores a new policy with its roster. -/
def createPolicy (policy : Policy) (record : RosterRecord) :
    StoreCall (Policy × RosterRecord) := do
  let fault ← meetFault .createPolicy
  if fault = .rival then
    let rival := { policy with key := some "rival" }
    let _ ← onPolicies (PolicyTables.create rival (.empty 0))
  let (policy, record) ← onPolicies (PolicyTables.create policy record)
  if fault = .mismatch then
    pure (policy, { record with policyId := policy.id + 1 })
  else
    pure (policy, record)

/-- Replaces a stored policy and its roster. -/
def updatePolicy (policy : Policy) (update : RosterUpdate) : StoreCall Unit := do
  let _ ← meetFault .updatePolicy
  onPolicies (PolicyTables.update policy update)

/-- Removes a policy and its roster. -/
def deletePolicy (id : UInt64) : StoreCall Unit := do
  let _ ← meetFault .deletePolicy
  onPolicies (PolicyTables.delete id)

/-- The policy of a number. -/
def policyById (id : UInt64) : StoreCall (Option Policy) :=
  find .policyById fun store => store.policies.byId? id

/-- The policy of a key. -/
def policyByKey (key : String) : StoreCall (Option Policy) :=
  find .policyByKey fun store => store.policies.byKey? key

/-- The policy of an object. -/
def policyByObject (object : PolicyObject) : StoreCall (Option Policy) :=
  find .policyByObject fun store => store.policies.byObject? object

/-- The roster of a policy. -/
def rosterOfPolicy (id : UInt64) : StoreCall (Option RosterRecord) := do
  match ← meetFault .rosterOfPolicy with
  | .absence => pure none
  | .mismatch => pure (some (.empty (id + 1)))
  | _ => pure ((← get).store.policies.roster? id)

/-! ### Groups -/

/-- Stores a group. -/
def upsertGroup (group : Group) : StoreCall Group := do
  let fault ← meetFault .upsertGroup
  if fault = .rival then
    let _ ← onGroups (GroupTables.upsert { group with id := 0, parentId := 0 })
  onGroups (GroupTables.upsert group)

/-- The group of a number. -/
def groupById (id : UInt64) : StoreCall (Option Group) :=
  find .groupById fun store => store.groups.byId? id

/-- The group of a key. -/
def groupByKey (key : String) : StoreCall (Option Group) :=
  find .groupByKey fun store => store.groups.byKey? key

/-- The group of a display name. -/
def groupByName (name : String) : StoreCall (Option Group) :=
  find .groupByName fun store => store.groups.byName? name

/-- All groups. -/
def allGroups : StoreCall (List Group) := do
  let _ ← meetFault .allGroups
  pure (← get).store.groups.all

/-- The groups directly below a group. -/
def childGroups (parentId : UInt64) : StoreCall (List Group) := do
  match ← meetFault .childGroups with
  | .absence => pure []
  | _ => pure ((← get).store.groups.children parentId)

/-- Removes a group. -/
def deleteGroup (id : UInt64) : StoreCall Unit := do
  let _ ← meetFault .deleteGroup
  onGroups (GroupTables.delete id)

/-! ### Memberships -/

/-- Makes an asset a member of a group. -/
def createRelation (groupId : UInt64) (asset : Actor) : StoreCall Unit := do
  let _ ← meetFault .createRelation
  onGroups (GroupTables.relate groupId asset)

/-- Ends the membership of an asset in a group. -/
def deleteRelation (groupId : UInt64) (asset : Actor) : StoreCall Unit := do
  let _ ← meetFault .deleteRelation
  onGroups (GroupTables.unrelate groupId asset)

/-- All memberships. -/
def allRelations : StoreCall (List Relation) := do
  let _ ← meetFault .allRelations
  pure (← get).store.groups.allRelations

/-- Whether an asset is a member of a group. -/
def hasRelation (groupId : UInt64) (asset : Actor) : StoreCall Bool := do
  let _ ← meetFault .hasRelation
  pure ((← get).store.groups.isRelated groupId asset)

end Backend

end AccessRights
