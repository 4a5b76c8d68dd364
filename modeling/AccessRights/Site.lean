/-
AccessRights/Site.lean

Where a call takes place: at one node, over a store that the node may share
with others.

The node is the memory of the managers of policies and groups: indexes of
what they have read, the live rosters, the counter of changes and the cache
of resolved rights.  A call reads and changes the site and ends with a value
or with the reason why it was refused; what it has changed by then stays
changed either way.
-/
import AccessRights.Group.Index
import AccessRights.Policy.Index
import AccessRights.RightsCache
import AccessRights.Roster
import AccessRights.Store.Backend

namespace AccessRights

/-! ### Nodes and sites -/

/-- The memory of one node. -/
structure Node where
  groups : GroupIndex := {}
  policies : PolicyIndex := {}
  /-- The live rosters of the policies whose roster has been needed so far. -/
  rosters : Table Roster := ∅
  /-- How many changes the node has counted. -/
  changes : Nat := 0
  cache : Option RightsCache := none
deriving Inhabited

/-- What the counter of the node shows. -/
def Node.generation (node : Node) : Generation :=
  .after node.changes

/-- A node that has read nothing yet. -/
def Node.blank (config : Config) : Node :=
  { cache := RightsCache.ofConfig? config.cache }

/-- A node and the store below it. -/
structure Site where
  node : Node
  backend : Backend
deriving Inhabited

/-- A call at a site. -/
abbrev Call (α : Type) := ExceptT AccessError (StateM Site) α

namespace Call

variable {α : Type}

/-- Performs a call at a site. -/
def perform (call : Call α) (site : Site) : Except AccessError α × Site :=
  call.run.run site

/-- The outcome of a call as a value, so that its failure can be looked at. -/
def outcome (call : Call α) : Call (Except AccessError α) :=
  ExceptT.lift call.run

/-- Performs a call of the store; `wrap` turns a failure of the store into the reason of
the refusal. -/
def ask (wrap : StoreError → AccessError) (request : StoreCall α) : Call α := do
  let site ← get
  let (result, backend) := request.run.run site.backend
  set { site with backend }
  match result with
  | .ok value => pure value
  | .error failure => throw (wrap failure)

/-- Performs a call of the store and passes over its failure. -/
def attempt (request : StoreCall Unit) : Call Unit :=
  modify fun site => { site with backend := (request.run.run site.backend).2 }

/-! ### How calls are performed -/

variable {β : Type}

@[simp] theorem perform_pure (value : α) (site : Site) :
    (pure value : Call α).perform site = (.ok value, site) := rfl

@[simp] theorem perform_throw (error : AccessError) (site : Site) :
    (throw error : Call α).perform site = (.error error, site) := rfl

/-- The second part of a call sees what the first one has changed, and is left out if the
first one fails. -/
theorem perform_bind (call : Call α) (next : α → Call β) (site : Site) :
    (call >>= next).perform site =
      match call.perform site with
      | (.ok value, site) => (next value).perform site
      | (.error error, site) => (.error error, site) := by
  simp only [perform, ExceptT.run_bind, StateT.run_bind]
  rcases call.run.run site with ⟨result | value, after⟩ <;> rfl

@[simp] theorem perform_get (site : Site) :
    (get : Call Site).perform site = (.ok site, site) := rfl

@[simp] theorem perform_modify (edit : Site → Site) (site : Site) :
    (modify edit : Call Unit).perform site = (.ok (), edit site) := rfl

@[simp] theorem perform_liftExcept (result : Except AccessError α) (site : Site) :
    (liftExcept result : Call α).perform site = (result, site) := by
  cases result <;> rfl

@[simp] theorem perform_outcome (call : Call α) (site : Site) :
    call.outcome.perform site = (.ok (call.perform site).1, (call.perform site).2) := rfl

/-- A call of the store touches nothing but the store. -/
theorem perform_ask (wrap : StoreError → AccessError) (request : StoreCall α) (site : Site) :
    (ask wrap request).perform site =
      ((request.run.run site.backend).1.mapError wrap,
        { site with backend := (request.run.run site.backend).2 }) := by
  unfold ask
  rw [perform_bind, perform_get]
  dsimp only
  rcases request.run.run site.backend with ⟨failure | value, backend⟩ <;> rfl

end Call

namespace Site

/-! ### Reading and changing the node -/

/-- The memory of the node. -/
def currentNode : Call Node :=
  return (← get).node

/-- Changes the memory of the node. -/
def editNode (edit : Node → Node) : Call Unit :=
  modify fun site => { site with node := edit site.node }

@[simp] theorem perform_currentNode (site : Site) :
    currentNode.perform site = (.ok site.node, site) := rfl

@[simp] theorem perform_editNode (edit : Node → Node) (site : Site) :
    (editNode edit).perform site = (.ok (), { site with node := edit site.node }) := rfl

/-- Changes the index of groups. -/
def editGroups (edit : GroupIndex → GroupIndex) : Call Unit :=
  editNode fun node => { node with groups := edit node.groups }

/-- Changes the index of policies. -/
def editPolicies (edit : PolicyIndex → PolicyIndex) : Call Unit :=
  editNode fun node => { node with policies := edit node.policies }

/-- Puts a live roster in its place. -/
def putRoster (roster : Roster) : Call Unit :=
  editNode fun node => { node with rosters := node.rosters.insert roster.policyId roster }

/-- Changes the live roster of a policy. -/
def editRoster (policyId : UInt64) (edit : Roster → Roster) : Call Unit :=
  editNode fun node => { node with rosters := node.rosters.modify policyId edit }

/-- Counts a change, which outdates every cached answer. -/
def bump : Call Unit :=
  editNode fun node => { node with changes := node.changes + 1 }

end Site

end AccessRights
