/-
AccessRights/Site/Grants.lean

Granting and revoking rights.

Whoever changes the rights of others needs the right to manage access, and
can hand on only rights that it has itself.  A change is applied to the live
roster and waits there to be stored.  A refused call rolls the roster back
to its last stored state.
-/
import AccessRights.Site.Resolution

namespace AccessRights

namespace Site

/-! ### Building blocks -/

/-- The live roster of an existing policy, with a backup taken. -/
def openRoster (policyId : UInt64) : Call Unit := do
  let _ ← policyById policyId
  let roster ← rosterOf policyId
  putRoster roster.backUp

/-- Ends a call that has opened a roster: a failure rolls the roster back, and either way
a change is counted. -/
def settle (policyId : UInt64) (outcome : Except AccessError Unit) : Call Unit := do
  match outcome with
  | .ok () => bump
  | .error error =>
    editRoster policyId Roster.rollBack
    bump
    throw error

/-- Checks that a group exists and is of the kind. -/
def checkGroupKind (groupId : UInt64) (kind : GroupKind) : Call Unit := do
  let group ← groupById groupId
  if group.kind? ≠ some kind then
    throw (.groupKindMismatch ("group " ++ toString groupId ++ " is not of kind " ++ kind.text))

/-! ### Granting -/

/-- The rights that a grantor must have to hand on the given ones. -/
def requiredToGrant (rights : Rights) : Rights :=
  .manageAccess ∪ rights

/-- Applies a grant, provided that the grantor has what it takes. -/
def applyGrant (policyId : UInt64) (grantor grantee : Actor) (rights : Rights) :
    Call Unit := do
  let held ← effectiveAccess policyId grantor
  if held.satisfies (requiredToGrant rights) then
    editRoster policyId (·.change ⟨.set, grantee, rights⟩)
  else
    throw (.excessOfRights (held.missing (requiredToGrant rights)).text)

/-- Grants rights to an actor that is known to be acceptable. -/
def grant (policyId : UInt64) (grantor grantee : Actor) (rights : Rights) : Call Unit := do
  openRoster policyId
  settle policyId (← Call.outcome (applyGrant policyId grantor grantee rights))

/-- Grants rights to an actor in place of those it had.  A user needs a number; a role or
group must exist and be of that kind. -/
def grantAccess (policyId : UInt64) (grantor grantee : Actor) (rights : Rights) :
    Call Unit := do
  match grantee.kind with
  | .everyone => grant policyId grantor .everyone rights
  | .user =>
    if grantee.id = 0 then
      throw (.invalidInput "user id is zero")
    grant policyId grantor grantee rights
  | .role =>
    checkGroupKind grantee.id .role
    grant policyId grantor grantee rights
  | .group =>
    checkGroupKind grantee.id .group
    grant policyId grantor grantee rights

/-! ### Revoking -/

/-- Takes the cell of an actor away, provided that the grantor may manage access. -/
def applyRevoke (policyId : UInt64) (grantor grantee : Actor) : Call Unit := do
  let held ← effectiveAccess policyId grantor
  if held.satisfies .manageAccess then
    editRoster policyId (·.change ⟨.unset, grantee, ∅⟩)
  else
    throw (.accessDenied
      (grantor.text ++ " cannot manage access of policy " ++ toString policyId))

/-- Takes the rights of an actor's own cell away, or those of everyone.  Rights that reach
it from elsewhere stay. -/
def revokeAccess (policyId : UInt64) (grantor grantee : Actor) : Call Unit := do
  let grantee := grantee.normalize
  if !grantee.isEveryone && grantee.id == 0 then
    throw (.invalidInput (grantee.kind.text ++ " has a zero id"))
  openRoster policyId
  settle policyId (← Call.outcome (applyRevoke policyId grantor grantee))

/-! ### Work on a live roster -/

/-- Performs a step on the live roster of a policy, past the rules for grants. -/
def rosterStep (policyId : UInt64) (step : RosterStep) : Call RosterAnswer := do
  let roster ← rosterOf policyId
  let (answer, roster) := roster.perform step
  putRoster roster
  pure answer

end Site

end AccessRights
