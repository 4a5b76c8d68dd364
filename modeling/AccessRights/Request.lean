/-
AccessRights/Request.lean

The calls that a node answers, as data: one request for each, and what
comes back.  A history of a node is then a list of requests.
-/
import AccessRights.Site.Grants

namespace AccessRights

/-! ### Requests and replies -/

/-- What can be asked of a node. -/
inductive Request where
  | createPolicy (key : Option String) (ownerId parentId : UInt64)
      (object : Option PolicyObject) (flags : PolicyFlags)
  | updatePolicy (policy : Policy)
  | movePolicy (policyId parentId : UInt64)
  | deletePolicy (policyId : UInt64)
  | policyById (policyId : UInt64)
  | policyByKey (key : String)
  | policyByObject (object : PolicyObject)
  | rosterOf (policyId : UInt64)
  | grantAccess (policyId : UInt64) (grantor grantee : Actor) (rights : Rights)
  | revokeAccess (policyId : UInt64) (grantor grantee : Actor)
  | hasRights (policyId : UInt64) (actor : Actor) (rights : Rights)
  | checkAccess (policyId : UInt64) (actor : Actor) (rights : Rights)
  | effectiveAccess (policyId : UInt64) (actor : Actor)
  | summarizedUserAccess (policyId userId : UInt64)
  | groupAccess (policyId groupId : UInt64)
  | createGroup (flags : GroupFlags) (parentId : UInt64) (key displayName : String)
  | updateGroup (group : Group)
  | moveGroup (groupId parentId : UInt64)
  | deleteGroup (groupId : UInt64)
  | groupById (groupId : UInt64)
  | groupByKey (key : String)
  /-- Where several groups have the name, `turn` says which of them the search meets first. -/
  | groupByName (turn : Nat) (name : String)
  | groupsByAsset (mask : GroupFlags) (asset : Actor)
  | relate (groupId : UInt64) (asset : Actor)
  | unrelate (groupId : UInt64) (asset : Actor)
  | members (groupId : UInt64)
  | isMember (groupId : UInt64) (asset : Actor)
  | joinDefaults (asset : Actor)
  | defaultGroups
  | groupCount
  | ancestry (groupId : UInt64)
  | isCircuited (groupId : UInt64)
  | load
deriving DecidableEq, Inhabited

/-- What a node replies. -/
inductive Reply where
  | done
  | policy (policy : Policy)
  | group (group : Group)
  | groups (groups : List Group)
  | roster (roster : Roster)
  | rights (rights : Rights)
  | flag (value : Bool)
  | ids (ids : List UInt64)
  | actors (actors : List Actor)
  | count (n : Nat)

/-! ### Answering -/

namespace Site

/-- Answers a request at the moment `now`. -/
def answer (now : Timestamp) : Request → Call Reply
  | .createPolicy key ownerId parentId object flags =>
    return .policy (← createPolicy now key ownerId parentId object flags)
  | .updatePolicy policy => return .policy (← updatePolicy now policy)
  | .movePolicy policyId parentId => return .policy (← movePolicy now policyId parentId)
  | .deletePolicy policyId => do
    deletePolicy policyId
    return .done
  | .policyById policyId => return .policy (← policyById policyId)
  | .policyByKey key => return .policy (← policyByKey key)
  | .policyByObject object => return .policy (← policyByObject object)
  | .rosterOf policyId => return .roster (← rosterOf policyId)
  | .grantAccess policyId grantor grantee rights => do
    grantAccess policyId grantor grantee rights
    return .done
  | .revokeAccess policyId grantor grantee => do
    revokeAccess policyId grantor grantee
    return .done
  | .hasRights policyId actor rights => return .flag (← hasRights policyId actor rights)
  | .checkAccess policyId actor rights => do
    checkAccess policyId actor rights
    return .done
  | .effectiveAccess policyId actor => return .rights (← effectiveAccess policyId actor)
  | .summarizedUserAccess policyId userId =>
    return .rights (← summarizedUserAccess policyId userId)
  | .groupAccess policyId groupId => return .rights (← groupAccess policyId groupId)
  | .createGroup flags parentId key displayName =>
    return .group (← createGroup now flags parentId key displayName)
  | .updateGroup group => return .group (← updateGroup now group)
  | .moveGroup groupId parentId => return .group (← moveGroup now groupId parentId)
  | .deleteGroup groupId => do
    deleteGroup groupId
    return .done
  | .groupById groupId => return .group (← groupById groupId)
  | .groupByKey key => return .group (← groupByKey key)
  | .groupByName turn name => return .group (← groupByName turn name)
  | .groupsByAsset mask asset =>
    return .groups ((← currentNode).groups.groupsByAsset mask asset)
  | .relate groupId asset => do
    relate groupId asset
    return .done
  | .unrelate groupId asset => do
    unrelate groupId asset
    return .done
  | .members groupId => return .actors ((← currentNode).groups.membersOf groupId).toList
  | .isMember groupId asset => return .flag ((← currentNode).groups.isMember groupId asset)
  | .joinDefaults asset => return .ids (← joinDefaults asset)
  | .defaultGroups => return .groups (← currentNode).groups.defaultGroups
  | .groupCount => return .count (← currentNode).groups.byId.size
  | .ancestry groupId => return .ids ((← ancestry groupId).map Group.id)
  | .isCircuited groupId => return .flag (← isCircuited groupId)
  | .load => do
    load
    return .done

end Site

end AccessRights
