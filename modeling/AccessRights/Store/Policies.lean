/-
AccessRights/Store/Policies.lean

The stored policies and their rosters.

The tables hand out numbers in ascending order, never the same one twice,
and refuse a policy whose key or object another policy has.  An operation
that fails gives no tables back: it has no effect.
-/
import AccessRights.Policy
import AccessRights.Roster.Record
import AccessRights.Table

namespace AccessRights

/-- The stored policies, their rosters, and the last number that was handed out. -/
structure PolicyTables where
  lastId : UInt64 := 0
  policies : Table Policy := ∅
  rosters : Table RosterRecord := ∅
deriving Inhabited

namespace PolicyTables

/-! ### Reading -/

/-- The policy of a number. -/
def byId? (tables : PolicyTables) (id : UInt64) : Option Policy :=
  tables.policies[id]?

/-- The policy of a key; of several the one with the least number. -/
def byKey? (tables : PolicyTables) (key : String) : Option Policy :=
  tables.policies.rows.find? fun policy => policy.key == some key

/-- The policy of an object; of several the one with the least number. -/
def byObject? (tables : PolicyTables) (object : PolicyObject) : Option Policy :=
  tables.policies.rows.find? fun policy => policy.object == some object

/-- The roster of a policy. -/
def roster? (tables : PolicyTables) (id : UInt64) : Option RosterRecord :=
  tables.rosters[id]?

/-! ### Conflicts -/

/-- The designator that two policies share, as it appears in messages.  A policy does not
conflict with one of its own number. -/
def sharedDesignator? (policy other : Policy) : Option String :=
  if other.id = policy.id then none
  else match policy.key, policy.object with
    | some key, object =>
      if other.key = some key then some ("policy key '" ++ key ++ "'")
      else sharedObject? object
    | none, object => sharedObject? object
where
  /-- The shared object, as it appears in messages. -/
  sharedObject? : Option PolicyObject → Option String
    | some object =>
      if other.object = some object then some ("policy object '" ++ object.text ++ "'")
      else none
    | none => none

/-- The first conflict of a policy with a stored one. -/
def conflict? (tables : PolicyTables) (policy : Policy) : Option String :=
  tables.policies.rows.findSome? (sharedDesignator? policy)

/-! ### Writing -/

/-- The tables with a policy and its roster record in their rows. -/
def put (tables : PolicyTables) (policy : Policy) (record : RosterRecord) : PolicyTables :=
  { tables with
    policies := tables.policies.insert policy.id policy
    rosters := tables.rosters.insert policy.id { record with policyId := policy.id } }

/-- Stores a new policy and its roster under the next number, which replaces the numbers
they came with. -/
def create (policy : Policy) (record : RosterRecord) (tables : PolicyTables) :
    Except StoreError ((Policy × RosterRecord) × PolicyTables) :=
  match tables.conflict? policy with
  | some detail => .error (.conflict detail)
  | none =>
    let id := tables.lastId + 1
    let policy := { policy with id }
    .ok ((policy, { record with policyId := id }), { tables.put policy record with lastId := id })

/-- Replaces a stored policy and its roster. -/
def update (policy : Policy) (update : RosterUpdate) (tables : PolicyTables) :
    Except StoreError (Unit × PolicyTables) :=
  match tables.byId? policy.id with
  | none => .error (.notFound ("policy " ++ toString policy.id))
  | some _ =>
    match tables.conflict? policy with
    | some detail => .error (.conflict detail)
    | none => .ok ((), tables.put policy update.record)

/-- Removes a policy and its roster. -/
def delete (id : UInt64) (tables : PolicyTables) : Except StoreError (Unit × PolicyTables) :=
  match tables.byId? id with
  | none => .error (.notFound ("policy " ++ toString id))
  | some _ =>
    .ok ((), { tables with
      policies := tables.policies.erase id
      rosters := tables.rosters.erase id })

end PolicyTables

end AccessRights
