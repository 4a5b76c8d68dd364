/-
AccessRights/Cluster.lean

Several nodes over one store.

Every node has its own memory, counter and cache; what they share is the
store and the faults it will meet.  Calls are complete: one ends before the
next begins, on whichever node.
-/
import AccessRights.Request

namespace AccessRights

/-- A store and the nodes that work on it. -/
structure Cluster where
  backend : Backend := {}
  nodes : Array Node := #[]
deriving Inhabited

namespace Cluster

/-- Opens a node: it reads all groups and memberships of the store.  When that fails there
is no new node. -/
def openNode (config : Config) (cluster : Cluster) : Except AccessError Nat × Cluster :=
  match Site.load.perform ⟨.blank config, cluster.backend⟩ with
  | (.ok (), site) =>
    (.ok cluster.nodes.size, ⟨site.backend, cluster.nodes.push site.node⟩)
  | (.error error, site) => (.error error, { cluster with backend := site.backend })

/-- Performs a call on one of the nodes, if there is such a node. -/
def onNode? {α : Type} (number : Nat) (call : Call α) (cluster : Cluster) :
    Option (Except AccessError α × Cluster) := do
  let node ← cluster.nodes[number]?
  let (result, site) := call.perform ⟨node, cluster.backend⟩
  some (result, ⟨site.backend, cluster.nodes.setIfInBounds number site.node⟩)

/-- Plans a fault of the store. -/
def schedule (method : StoreMethod) (fault : Fault) (times : Nat) (cluster : Cluster) :
    Cluster :=
  { cluster with
    backend := { cluster.backend with
      faults := cluster.backend.faults.schedule method fault times } }

/-- The cluster with another store under the same nodes, as after a write past all of
them. -/
def withStore (store : Store) (cluster : Cluster) : Cluster :=
  { cluster with backend := { cluster.backend with store } }

end Cluster

end AccessRights
