/-
AccessRights/Store/Fault.lean

Planned faults of a store.

A plan is a queue of faults.  Each call to a method of the store uses up
one count of the oldest fault that is planned for this method; other
methods are not affected.  Any pattern of failing and succeeding calls can
be planned, because a fault may also be that nothing goes wrong.
-/
import AccessRights.Error

namespace AccessRights

/-- The methods of a store. -/
inductive StoreMethod where
  | createPolicy
  | updatePolicy
  | policyById
  | policyByKey
  | policyByObject
  | deletePolicy
  | rosterOfPolicy
  | upsertGroup
  | groupById
  | groupByKey
  | groupByName
  | allGroups
  | childGroups
  | deleteGroup
  | createRelation
  | deleteRelation
  | allRelations
  | hasRelation
deriving DecidableEq, Inhabited

/-- What goes wrong in a call. -/
inductive Fault where
  /-- Nothing. -/
  | harmless
  /-- The call fails and has no effect. -/
  | failure (error : StoreError)
  /-- The call finds nothing. -/
  | absence
  /-- The call gives back a roster record of the policy with the next number. -/
  | mismatch
  /-- Another writer stores a similar thing just before the call. -/
  | rival
deriving DecidableEq, Inhabited

/-- A fault for the next call of a method, and for `more` calls after it. -/
structure PlannedFault where
  method : StoreMethod
  fault : Fault
  more : Nat
deriving DecidableEq, Inhabited

/-- The planned faults, oldest first. -/
abbrev FaultPlan := List PlannedFault

namespace FaultPlan

/-- The fault of the next call of a method, and the plan after it. -/
def next (method : StoreMethod) : FaultPlan → Fault × FaultPlan
  | [] => (.harmless, [])
  | planned :: plan =>
    if planned.method = method then
      match planned.more with
      | 0 => (planned.fault, plan)
      | more + 1 => (planned.fault, { planned with more } :: plan)
    else
      let (fault, rest) := next method plan
      (fault, planned :: rest)

/-- The plan with a fault for `times` further calls of a method.  With no calls at all it
is the plan without any fault of the method. -/
def schedule (method : StoreMethod) (fault : Fault) (times : Nat) (plan : FaultPlan) :
    FaultPlan :=
  match times with
  | 0 => plan.filter fun planned => planned.method ≠ method
  | more + 1 => plan ++ [⟨method, fault, more⟩]

/-- Without planned faults nothing goes wrong. -/
@[simp] theorem next_nil (method : StoreMethod) : next method [] = (.harmless, []) := rfl

end FaultPlan

end AccessRights
