/-
AccessRights/Proofs/Stages.lean

What a call checks, and what it does after.

A call that changes something reads and checks first.  Nothing is written by then, and
what is written after depends on the checks only through what they give.  Here the calls
are cut there: the first stage of each gives what the second one needs, be it what is to
be stored, the members of a group that is to be removed, whether the store has a
membership already, or nothing but that the call may go on.  Everything that is true of a
call because it has been checked is then shown of its first stage, and everything about
the writing of the second one.

The two ways to change a stored policy have the second stage in common, and so do
granting and revoking, and the three ways to store a group.

Main results: an equation `…_eq` for each call.
-/
import AccessRights.Site.Grants

namespace AccessRights

namespace Site

/-! ### Storing groups -/

/-- All that is checked before a group is created; it gives the group. -/
def groupToCreate (now : Timestamp) (flags : GroupFlags) (parentId : UInt64)
    (key displayName : String) : Call Group := do
  let group ← liftExcept (Group.draft now flags parentId key displayName)
  match group.kind? with
  | none => throw (.invalidGroup ("group '" ++ key ++ "' has no kind"))
  | some kind =>
    if parentId ≠ 0 then
      checkGroupParent 0 kind parentId
    checkGroupKeyFree key 0
    pure group

/-- All that is checked before a group is changed; it gives the group as it is to be. -/
def groupToUpdate (now : Timestamp) (group : Group) : Call Group := do
  let current ← groupById group.id
  liftExcept group.validate
  if group.kind? ≠ current.kind? then
    throw (.groupKindMismatch ("group " ++ toString group.id ++ " cannot change its kind"))
  if group.parentId ≠ current.parentId then
    throw (.forbiddenChange .parentId)
  if group.key ≠ current.key then
    checkGroupKeyFree group.key group.id
  pure { group with createdAt := current.createdAt, updatedAt := now }

/-- All that is checked before a group is hung elsewhere; it gives the group as it is to be. -/
def groupToMove (now : Timestamp) (groupId parentId : UInt64) : Call Group := do
  let group ← groupById groupId
  match group.kind? with
  | none => throw (.invalidGroup ("group " ++ toString groupId ++ " has no kind"))
  | some kind =>
    if parentId ≠ 0 then
      checkGroupParent groupId kind parentId
    pure { group with parentId, updatedAt := now }

theorem createGroup_eq (now : Timestamp) (flags : GroupFlags) (parentId : UInt64)
    (key displayName : String) : createGroup now flags parentId key displayName =
      groupToCreate now flags parentId key displayName >>= storeGroup (groupKeyFailure key) := by
  unfold createGroup groupToCreate
  rw [bind_assoc]
  refine bind_congr fun group => ?_
  cases group.kind? with
  | none => rfl
  | some kind =>
    dsimp only
    split <;> simp only [bind_assoc, pure_bind]

theorem updateGroup_eq (now : Timestamp) (group : Group) : updateGroup now group =
    groupToUpdate now group >>= storeGroup (groupKeyFailure group.key) := by
  unfold updateGroup groupToUpdate
  rw [bind_assoc]
  refine bind_congr fun current => ?_
  rw [bind_assoc]
  refine bind_congr fun _ => ?_
  dsimp only
  split
  · rfl
  split
  · rfl
  split <;> simp only [bind_assoc, pure_bind]

theorem moveGroup_eq (now : Timestamp) (groupId parentId : UInt64) : moveGroup now groupId parentId =
    groupToMove now groupId parentId >>= storeGroup (.store ("group " ++ toString groupId)) := by
  unfold moveGroup groupToMove
  rw [bind_assoc]
  refine bind_congr fun group => ?_
  cases group.kind? with
  | none => rfl
  | some kind =>
    dsimp only
    split <;> simp only [bind_assoc, pure_bind]

/-! ### Removing groups -/

/-- All that is checked before a group is removed; it gives the members of the group. -/
def checkRemoval (groupId : UInt64) : Call (List Actor) := do
  let _ ← groupById groupId
  let children ← Call.ask (.store ("children of group " ++ toString groupId))
    (Backend.childGroups groupId)
  if !children.isEmpty then
    throw (.groupHasChildren groupId)
  let index := (← currentNode).groups
  if index.hasChildren groupId then
    throw (.groupHasChildren groupId)
  pure (index.membersOf groupId).toList

/-- All that is done from then on. -/
def removeWith (groupId : UInt64) (members : List Actor) : Call Unit := do
  dropRelations groupId members
  Call.ask (.store ("group " ++ toString groupId)) (Backend.deleteGroup groupId)
  editGroups (·.remove groupId)
  bump

theorem deleteGroup_eq (groupId : UInt64) :
    deleteGroup groupId = checkRemoval groupId >>= removeWith groupId := by
  unfold deleteGroup checkRemoval removeWith
  rw [bind_assoc]
  refine bind_congr fun _ => ?_
  rw [bind_assoc]
  refine bind_congr fun children => ?_
  dsimp only
  split
  · rfl
  · rw [bind_assoc]
    refine bind_congr fun node => ?_
    split
    · rfl
    · rw [pure_bind]

/-! ### Memberships -/

/-- All that is checked before an asset becomes a member.  The index does not have the
membership then, and what is given is whether the store has it. -/
def checkNew (groupId : UInt64) (asset : Actor) : Call Bool := do
  checkAsset asset
  let _ ← groupById groupId
  if (← currentNode).groups.isMember groupId asset then
    throw (.alreadyMember groupId)
  Call.ask (.store (relationContext groupId asset)) (Backend.hasRelation groupId asset)

/-- A membership is stored and taken in. -/
def enroll (groupId : UInt64) (asset : Actor) : Call Unit := do
  Call.ask (.store (relationContext groupId asset)) (Backend.createRelation groupId asset)
  editGroups (·.link groupId asset)
  bump

/-- All that is done from then on.  What the store has already is taken in, but refused. -/
def enrollUnless (groupId : UInt64) (asset : Actor) (stored : Bool) : Call Unit := do
  if stored then
    editGroups (·.link groupId asset)
    throw (.alreadyMember groupId)
  enroll groupId asset

theorem relate_eq (groupId : UInt64) (asset : Actor) :
    relate groupId asset = checkNew groupId asset >>= enrollUnless groupId asset := by
  unfold relate checkNew
  rw [bind_assoc]
  refine bind_congr fun _ => ?_
  rw [bind_assoc]
  refine bind_congr fun _ => ?_
  rw [bind_assoc]
  refine bind_congr fun node => ?_
  split <;> rfl

/-- All that is checked before a membership ends: the index has it, or the store does. -/
def checkMember (groupId : UInt64) (asset : Actor) : Call Unit := do
  if !(← currentNode).groups.isMember groupId asset then
    if !(← Call.ask (.store (relationContext groupId asset))
        (Backend.hasRelation groupId asset)) then
      throw (.notMember groupId)

/-- A membership is removed from the store and from the index. -/
def dismiss (groupId : UInt64) (asset : Actor) : Call Unit := do
  Call.ask (.store (relationContext groupId asset)) (Backend.deleteRelation groupId asset)
  editGroups (·.unlink groupId asset)
  bump

theorem unrelate_eq (groupId : UInt64) (asset : Actor) :
    unrelate groupId asset = checkMember groupId asset >>= fun _ => dismiss groupId asset := by
  unfold unrelate checkMember
  rw [bind_assoc]
  refine bind_congr fun node => ?_
  split
  · rw [bind_assoc]
    refine bind_congr fun stored => ?_
    split <;> rfl
  · rfl

/-! ### Reading everything anew -/

/-- All groups and all memberships of the store. -/
def readAll : Call (List Group × List Relation) := do
  let groups ← Call.ask (.store "all groups") Backend.allGroups
  let relations ← Call.ask (.store "all relations") Backend.allRelations
  pure (groups, relations)

/-- They take the place of what the index has had. -/
def replaceGroups (groups : List Group) (relations : List Relation) : Call Unit := do
  editGroups fun _ => .build groups relations
  bump

theorem load_eq : load = readAll >>= fun found => replaceGroups found.1 found.2 := by
  unfold load readAll
  simp only [bind_assoc, pure_bind]
  rfl

/-! ### Creating policies -/

/-- All that is checked before a policy is created; it gives the draft of it. -/
def policyToCreate (now : Timestamp) (key : Option String) (ownerId parentId : UInt64)
    (object : Option PolicyObject) (flags : PolicyFlags) : Call Policy := do
  let draft ← liftExcept (Policy.draft now key ownerId parentId object flags)
  checkDesignatorsFree draft
  if parentId ≠ 0 then
    let _ ← policyById parentId
  pure draft

/-- All that is done with the draft. -/
def storeDraft (draft : Policy) : Call Policy := do
  let (policy, record) ← storeNewPolicy draft
  if record.policyId ≠ policy.id then
    throw (.emptyRoster policy.id)
  editPolicies (·.insert policy)
  putRoster (.ofRecord record)
  pure policy

theorem createPolicy_eq (now : Timestamp) (key : Option String) (ownerId parentId : UInt64)
    (object : Option PolicyObject) (flags : PolicyFlags) :
    createPolicy now key ownerId parentId object flags =
      policyToCreate now key ownerId parentId object flags >>= storeDraft := by
  unfold createPolicy policyToCreate
  rw [bind_assoc]
  refine bind_congr fun draft => ?_
  rw [bind_assoc]
  refine bind_congr fun _ => ?_
  split <;> simp only [bind_assoc, pure_bind] <;> rfl

/-! ### What granting and revoking share -/

/-- What is checked of a grantee: a user has a number, a role or group exists and is one. -/
def checkGrantee (grantee : Actor) : Call Unit :=
  match grantee.kind with
  | .everyone => pure ()
  | .user => if grantee.id = 0 then throw (.invalidInput "user id is zero") else pure ()
  | .role => checkGroupKind grantee.id .role
  | .group => checkGroupKind grantee.id .group

/-- What is checked of somebody whose rights are revoked. -/
def checkRevoked (grantee : Actor) : Call Unit :=
  if !grantee.normalize.isEveryone && grantee.normalize.id == 0 then
    throw (.invalidInput (grantee.normalize.kind.text ++ " has a zero id"))
  else pure ()

/-- A change of rights that is allowed for some rights of the grantor and refused for
others. -/
def changeAccess (check : Call Unit) (policyId : UInt64) (grantor : Actor) (change : Change)
    (allowed : Rights → Prop) [DecidablePred allowed] (refusal : Rights → AccessError) :
    Call Unit := do
  check
  openRoster policyId
  settle policyId (← Call.outcome (do
    let held ← effectiveAccess policyId grantor
    if allowed held then editRoster policyId (·.change change)
    else throw (refusal held)))

/-- A grant sets the cell of the grantee. -/
theorem grantAccess_eq (policyId : UInt64) (grantor grantee : Actor) (rights : Rights) :
    grantAccess policyId grantor grantee rights =
      changeAccess (checkGrantee grantee) policyId grantor ⟨.set, grantee.normalize, rights⟩
        (fun held => held.satisfies (requiredToGrant rights))
        (fun held => .excessOfRights (held.missing (requiredToGrant rights)).text) := by
  obtain ⟨kind, id⟩ := grantee
  -- the kind decides what is checked, and nothing else depends on it
  cases kind with
  | everyone => rfl
  | user =>
    unfold grantAccess changeAccess checkGrantee
    dsimp only
    split <;> rfl
  | role => rfl
  | group => rfl

/-- A revocation unsets it. -/
theorem revokeAccess_eq (policyId : UInt64) (grantor grantee : Actor) :
    revokeAccess policyId grantor grantee =
      changeAccess (checkRevoked grantee) policyId grantor ⟨.unset, grantee.normalize, ∅⟩
        (fun held => held.satisfies .manageAccess)
        (fun _ => .accessDenied
          (grantor.text ++ " cannot manage access of policy " ++ toString policyId)) := by
  unfold revokeAccess changeAccess checkRevoked
  dsimp only
  split <;> rfl

end Site

/-! ### Amendments -/

/-- A change to a stored policy. -/
inductive Amendment where
  /-- Other values for the fields that may change. -/
  | update (policy : Policy)
  /-- Another parent, or none. -/
  | move (policyId parentId : UInt64)

/-- What is to be stored: a policy and its live roster. -/
structure Amended where
  policy : Policy
  roster : Roster
  /-- Whether the roster is to forget its answers once it is stored. -/
  forgets : Bool

namespace Amendment

open Site Call

/-- The policy that is changed. -/
def policyId : Amendment → UInt64
  | .update policy => policy.id
  | .move policyId _ => policyId

/-- The call that makes the change. -/
def call (now : Timestamp) : Amendment → Call Policy
  | .update policy => updatePolicy now policy
  | .move policyId parentId => movePolicy now policyId parentId

/-- All that the call does before it stores anything. -/
def ready (now : Timestamp) : Amendment → Call Amended
  | .update policy => do
    let current ← policyById policy.id
    if policy.key ≠ current.key then
      throw (.forbiddenChange .key)
    match changedObjectField? current.object policy.object with
    | some field => throw (.forbiddenChange field)
    | none => pure ()
    liftExcept policy.validate
    checkDesignatorsFree policy
    if policy.parentId ≠ 0 ∧ policy.parentId ≠ current.parentId then
      checkAcyclic policy.id policy.parentId
    let roster ← rosterOf policy.id
    pure {
      policy := { policy with createdAt := current.createdAt, updatedAt := now }
      roster
      forgets := policy.parentId ≠ current.parentId ∨ policy.flags ≠ current.flags }
  | .move policyId parentId => do
    let policy ← policyById policyId
    let flags ←
      if parentId = 0 then pure policy.flags.detached
      else do
        let _ ← policyById parentId
        checkAcyclic policyId parentId
        pure policy.flags
    let roster ← rosterOf policyId
    pure { policy := { policy with flags, parentId, updatedAt := now }, roster, forgets := true }

/-- All that the call does from then on. -/
def store (policyId : UInt64) (amended : Amended) : Call Policy := do
  persist amended.policy amended.roster
  if amended.forgets then
    editRoster policyId Roster.forgetCalculated
  pure amended.policy

/-- Finding the roster and storing it is finding it, and then storing it. -/
theorem rosterOf_store (policyId : UInt64) (policy : Policy) (forgets : Prop) [Decidable forgets] :
    (do
      let roster ← rosterOf policyId
      persist policy roster
      if forgets then
        editRoster policyId Roster.forgetCalculated
      pure policy) = (do
        let roster ← rosterOf policyId
        pure ⟨policy, roster, forgets⟩) >>= store policyId := by
  rw [bind_assoc]
  refine bind_congr fun roster => ?_
  rw [pure_bind]
  unfold store
  refine bind_congr fun _ => ?_
  dsimp only
  by_cases h : forgets
  · rw [if_pos h, if_pos (decide_eq_true h)]
  · rw [if_neg h, if_neg fun hforgets => h (of_decide_eq_true hforgets)]

/-- The call gets ready and then stores. -/
theorem call_eq (now : Timestamp) (amendment : Amendment) :
    amendment.call now = amendment.ready now >>= store amendment.policyId := by
  -- both calls are cut behind the finding of the roster, on every way through the checks
  cases amendment with
  | update policy =>
    unfold call ready updatePolicy
    rw [bind_assoc]
    refine bind_congr fun current => ?_
    dsimp only
    split
    · rfl
    cases changedObjectField? current.object policy.object with
    | some field => rfl
    | none =>
      dsimp only
      rw [bind_assoc]
      refine bind_congr fun _ => ?_
      rw [bind_assoc]
      refine bind_congr fun _ => ?_
      split
      · rw [bind_assoc]
        refine bind_congr fun _ => ?_
        exact rosterOf_store ..
      · exact rosterOf_store ..
  | move policyId parentId =>
    unfold call ready movePolicy
    rw [bind_assoc]
    refine bind_congr fun policy => ?_
    have hstore (flags : PolicyFlags) :=
      rosterOf_store policyId { policy with flags, parentId, updatedAt := now } True
    simp only [if_true, decide_true] at hstore
    dsimp only
    split
    · rw [pure_bind, pure_bind]
      exact hstore policy.flags.detached
    · rw [bind_assoc]
      refine bind_congr fun _ => ?_
      rw [bind_assoc]
      refine bind_congr fun _ => ?_
      rw [pure_bind, pure_bind]
      exact hstore policy.flags

end Amendment

end AccessRights
