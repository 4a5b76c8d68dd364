/-
AccessRights/Site/Resolution.lean

The rights of an actor on a policy.

A policy contributes the rights of everyone and what its roster holds for
the actor: for a user its own cell, full access if it owns the policy, and
the rights of every group it is a member of; for a group or role the cell of
the nearest group on the way to the root that has one.  Which policies
contribute is decided by the walk along parent links: an inherited policy
passes to its parent, an extended one contributes and passes on, any other
one contributes and ends the walk.

Answers are cached at the generation at which the resolution began.
-/
import AccessRights.Site.Groups
import AccessRights.Site.Policies

namespace AccessRights

/-- The first rights that the roster has for one of the actors. -/
def Roster.lookupFirst : List Actor → Roster → Option Rights × Roster
  | [], roster => (none, roster)
  | actor :: actors, roster =>
    match roster.lookup actor with
    | (some rights, roster) => (some rights, roster)
    | (none, roster) => roster.lookupFirst actors

namespace Site

/-! ### One policy -/

/-- The rights of a group in a roster: those of its own cell, else those of the nearest
ancestor with a cell, else none.  The roster is given back with what it remembers. -/
def groupRightsIn (roster : Roster) (groupId : UInt64) : Call (Rights × Roster) := do
  let groups ← ancestry groupId
  let (found, roster) := roster.lookupFirst (groups.map Group.actor)
  putRoster roster
  pure (found.getD ∅, roster)

/-- The union of the rights of several groups in a roster. -/
def groupsRightsIn (roster : Roster) : List UInt64 → Call (Rights × Roster)
  | [] => pure (∅, roster)
  | groupId :: groupIds => do
    let (rights, roster) ← groupRightsIn roster groupId
    let (others, roster) ← groupsRightsIn roster groupIds
    pure (rights ∪ others, roster)

/-- What a policy by itself contributes to the rights of an actor. -/
def ownRights (policy : Policy) (actor : Actor) : Call Rights := do
  let roster ← rosterOf policy.id
  match actor.kind with
  | .everyone => pure roster.everyone
  | .user =>
    let groups := (← currentNode).groups.groupsByAsset .anyKind actor
    let (ofGroups, roster) ← groupsRightsIn roster (groups.map Group.id)
    let (ofCell, roster) := roster.lookup actor
    putRoster roster
    let ofOwner := if policy.isOwner actor.id then Rights.full else ∅
    pure (roster.everyone ∪ ofGroups ∪ ofCell.getD ∅ ∪ ofOwner)
  | .role | .group =>
    let (ofGroup, roster) ← groupRightsIn roster actor.id
    pure (roster.everyone ∪ ofGroup)

/-- The rights of a user on a policy, regardless of parents. -/
def summarizedUserAccess (policyId userId : UInt64) : Call Rights := do
  let policy ← policyById policyId
  ownRights policy (.user userId)

/-- The rights of a group on a policy, regardless of parents and of everyone. -/
def groupAccess (policyId groupId : UInt64) : Call Rights := do
  let _ ← policyById policyId
  let roster ← rosterOf policyId
  let (rights, _) ← groupRightsIn roster groupId
  pure rights

/-! ### The walk over policies -/

/-- The policies that contribute to a policy, on a walk that has passed the trail. -/
def contributorsFrom (trail : Trail) (policyId : UInt64) : Call (List Policy) :=
  if fresh : policyId ∉ trail then do
    let policy ← policyById policyId
    if policy.isInherited then
      contributorsFrom (trail.add policyId fresh) policy.parentId
    else if policy.isExtended then
      let others ← contributorsFrom (trail.add policyId fresh) policy.parentId
      pure (policy :: others)
    else
      pure [policy]
  else throw (.circularParent policyId)
termination_by trail.room
decreasing_by all_goals exact trail.room_add_lt fresh

/-- The policies whose rosters contribute to a policy, nearest first. -/
def contributors (policyId : UInt64) : Call (List Policy) :=
  contributorsFrom .empty policyId

/-- The union of what several policies contribute to the rights of an actor. -/
def contributedRights (actor : Actor) : List Policy → Call Rights
  | [] => pure ∅
  | policy :: policies => do
    let own ← ownRights policy actor
    let others ← contributedRights actor policies
    pure (own ∪ others)

/-- The rights of an actor on a policy, resolved without the cache. -/
def resolve (policyId : UInt64) (actor : Actor) : Call Rights := do
  contributedRights actor (← contributors policyId)

/-! ### Cached answers -/

/-- The cached answer to a question, if there is a current one. -/
def cached? (question : RightsQuestion) : Call (Option Rights) := do
  let node ← currentNode
  match node.cache with
  | none => pure none
  | some cache =>
    let (found, cache) := cache.get node.generation question
    editNode fun node => { node with cache := some cache }
    pure found

/-- Caches an answer that was computed at the generation `stamp`. -/
def remember (question : RightsQuestion) (rights : Rights) (stamp : Generation) : Call Unit :=
  editNode fun node =>
    { node with cache := node.cache.map (·.put node.generation question rights stamp) }

/-- The rights of an actor on a policy. -/
def effectiveAccess (policyId : UInt64) (actor : Actor) : Call Rights := do
  let question : RightsQuestion := ⟨policyId, actor.normalize⟩
  match ← cached? question with
  | some rights => pure rights
  | none =>
    let stamp := (← currentNode).generation
    let rights ← resolve question.policyId question.actor
    remember question rights stamp
    pure rights

/-- Whether an actor has every one of the rights on a policy. -/
def hasRights (policyId : UInt64) (actor : Actor) (rights : Rights) : Call Bool := do
  let held ← effectiveAccess policyId actor
  pure (held.satisfies rights)

/-- Checks that an actor has every one of the rights on a policy. -/
def checkAccess (policyId : UInt64) (actor : Actor) (rights : Rights) : Call Unit := do
  let held ← effectiveAccess policyId actor
  if !held.satisfies rights then
    throw (.accessDenied (actor.text ++ " lacks " ++ (held.missing rights).text
      ++ " on policy " ++ toString policyId))

end Site

end AccessRights
