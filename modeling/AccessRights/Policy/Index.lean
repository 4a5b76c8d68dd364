/-
AccessRights/Policy/Index.lean

The policies that a node holds in memory, found by number, by key and by
object.
-/
import AccessRights.Policy
import AccessRights.Table

namespace AccessRights

/-- The policies that a node knows. -/
structure PolicyIndex where
  byId : Table Policy := ∅
  byKey : Std.ExtTreeMap String UInt64 := ∅
  byObject : Std.ExtTreeMap PolicyObject UInt64 := ∅
deriving Inhabited

namespace PolicyIndex

/-- The policy of a number. -/
def policy? (index : PolicyIndex) (id : UInt64) : Option Policy :=
  index.byId[id]?

/-- The policy that a key leads to. -/
def policyOfKey? (index : PolicyIndex) (key : String) : Option Policy := do
  index.policy? (← index.byKey[key]?)

/-- The policy that an object leads to. -/
def policyOfObject? (index : PolicyIndex) (object : PolicyObject) : Option Policy := do
  index.policy? (← index.byObject[object]?)

/-- Takes a policy in. -/
def insert (index : PolicyIndex) (policy : Policy) : PolicyIndex where
  byId := index.byId.insert policy.id policy
  byKey := match policy.key with
    | some key => index.byKey.insert key policy.id
    | none => index.byKey
  byObject := match policy.object with
    | some object => index.byObject.insert object policy.id
    | none => index.byObject

/-- Forgets a policy together with its key and its object. -/
def remove (index : PolicyIndex) (id : UInt64) : PolicyIndex :=
  match index.policy? id with
  | none => index
  | some policy =>
    { byId := index.byId.erase id
      byKey := match policy.key with
        | some key => index.byKey.erase key
        | none => index.byKey
      byObject := match policy.object with
        | some object => index.byObject.erase object
        | none => index.byObject }

end PolicyIndex

end AccessRights
