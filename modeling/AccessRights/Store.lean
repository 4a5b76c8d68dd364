/-
AccessRights/Store.lean

The store: policies with their rosters on one side, groups with their
memberships on the other.
-/
import AccessRights.Store.Groups
import AccessRights.Store.Policies

namespace AccessRights

/-- Everything that outlives a node. -/
structure Store where
  policies : PolicyTables := {}
  groups : GroupTables := {}
deriving Inhabited

end AccessRights
