/-
AccessRights/Proofs/Moves.lean

What a cluster does, move by move.

A move is what may happen to a cluster next: a request to one of its nodes, work
on a live roster, a node that is opened or joins, a fault that is planned.  What
is asked of a node that there is not is passed over.  A run is any number of
moves, and it leads from one reachable cluster to another as long as the store
has numbers for what is created (`Cluster.Roomy`).  Every reachable cluster is at
the end of such a run from nothing.

No node touches the memory of another.  So what an event keeps of the store and
of the node at which it takes place holds of the store and of all nodes
throughout a run (`Throughout.run`).  That live rosters are tidy is the first
thing to be had from that.

Main results: `Reachable.run_of_roomy`, `Reachable.exists_run`, `Throughout.run`, `Reachable.throughout`
and `Reachable.tidy`.
-/
import AccessRights.Proofs.Tidy

namespace AccessRights

namespace Cluster

variable {cluster after : Cluster} {α : Type} {call : Call α} {number other : Nat} {node : Node}
  {site : Site}

/-! ### Calls on a node -/

/-- The cluster after a call on one of its nodes. -/
def afterCall (number : Nat) (call : Call α) (cluster : Cluster) : Cluster :=
  match cluster.onNode? number call with
  | some (_, next) => next
  | none => cluster

theorem afterCall_of_node (hnode : cluster.nodes[number]? = some node) :
    cluster.afterCall number call =
      cluster.withSite number (call.perform ⟨node, cluster.backend⟩).2 := by
  unfold afterCall
  rw [onNode?_eq_some_iff.2 ⟨node, hnode, rfl, rfl⟩]

theorem afterCall_of_none (hnode : cluster.nodes[number]? = none) :
    cluster.afterCall number call = cluster := by
  unfold afterCall onNode?
  rw [hnode]
  rfl

/-- What holds of the cluster, and after the call on any such node, holds after the call. -/
theorem afterCall_of_forall (holds : Cluster → Prop) (hcluster : holds cluster)
    (hcall : ∀ node, cluster.nodes[number]? = some node →
      holds (cluster.withSite number (call.perform ⟨node, cluster.backend⟩).2)) :
    holds (cluster.afterCall number call) := by
  cases hnode : cluster.nodes[number]? with
  | none =>
    rw [afterCall_of_none hnode]
    exact hcluster
  | some node =>
    rw [afterCall_of_node hnode]
    exact hcall node hnode

/-- A call that gives a value is made and leads to the cluster after it. -/
theorem onNode?_of_isOk (hnode : cluster.nodes[number]? = some node)
    (hok : (call.perform ⟨node, cluster.backend⟩).1.isOk = true) :
    ∃ value, cluster.onNode? number call = some (.ok value, cluster.afterCall number call) := by
  rcases hrun : call.perform ⟨node, cluster.backend⟩ with ⟨error | value, site⟩ <;> rw [hrun] at hok
  · cases hok
  · refine ⟨value, onNode?_eq_some_iff.2 ⟨node, hnode, by rw [hrun], ?_⟩⟩
    rw [afterCall_of_node hnode]

/-! ### Moves -/

/-- What happens to a cluster next. -/
inductive Move where
  /-- A node answers a request, or refuses it. -/
  | answer (number : Nat) (now : Timestamp) (request : Request)
  /-- Somebody works on a live roster of a node. -/
  | work (number : Nat) (policyId : UInt64) (step : RosterStep)
  /-- A node is opened, or fails to open. -/
  | launch (config : Config)
  /-- A node joins that has read nothing yet. -/
  | join (config : Config)
  /-- Faults are planned. -/
  | plan (method : StoreMethod) (fault : Fault) (times : Nat)

/-- The cluster after a move. -/
def move (cluster : Cluster) : Move → Cluster
  | .answer number now request => cluster.afterCall number (Site.answer now request)
  | .work number policyId step => cluster.afterCall number (Site.rosterStep policyId step)
  | .launch config => (cluster.openNode config).2
  | .join config => { cluster with nodes := cluster.nodes.push (.blank config) }
  | .plan method fault times => cluster.schedule method fault times

/-- The numbers that a move may take from the store. -/
def Move.needs : Move → Nat
  | .answer .. => 2
  | _ => 0

theorem Move.needs_le (move : Move) : move.needs ≤ 2 := by
  cases move <;> simp [needs]

/-- The cluster after some moves. -/
def run (cluster : Cluster) (moves : List Move) : Cluster :=
  moves.foldl move cluster

/-- Before each move the store has the numbers that the move may take. -/
def Roomy : Cluster → List Move → Prop
  | _, [] => True
  | cluster, move :: moves =>
    cluster.backend.store.HasRoom move.needs ∧ Roomy (cluster.move move) moves

theorem run_append (cluster : Cluster) (first rest : List Move) :
    cluster.run (first ++ rest) = (cluster.run first).run rest :=
  List.foldl_append

theorem roomy_append {first rest : List Move} :
    cluster.Roomy (first ++ rest) ↔ cluster.Roomy first ∧ (cluster.run first).Roomy rest := by
  induction first generalizing cluster with
  | nil => exact (and_iff_right trivial).symm
  | cons move first ih =>
    show _ ∧ (cluster.move move).Roomy (first ++ rest) ↔ _
    rw [ih]
    exact and_assoc.symm

theorem Reachable.move (h : cluster.Reachable) (move : Move)
    (hroom : cluster.backend.store.HasRoom move.needs) : (cluster.move move).Reachable := by
  cases move with
  | answer number now request =>
    show (cluster.afterCall number _).Reachable
    unfold afterCall
    split
    · exact .answered h hroom ‹_›
    · exact h
  | work number policyId step =>
    show (cluster.afterCall number _).Reachable
    unfold afterCall
    split
    · exact .stepped h ‹_›
    · exact h
  | launch config => exact .opened h config
  | join config => exact .joined h config
  | plan method fault times => exact .scheduled h method fault times

/-- A run leads from one reachable cluster to another. -/
theorem Reachable.run_of_roomy (h : cluster.Reachable) {moves : List Move}
    (hroomy : cluster.Roomy moves) : (cluster.run moves).Reachable := by
  induction moves generalizing cluster with
  | nil => exact h
  | cons move moves ih => exact ih (h.move move hroomy.1) hroomy.2

/-- Every reachable cluster is reached by a run. -/
theorem Reachable.exists_run (h : cluster.Reachable) :
    ∃ moves, Roomy {} moves ∧ Cluster.run {} moves = cluster := by
  -- one more move leads one cluster further
  have hnext {cluster next : Cluster} (move : Move) (hmove : cluster.move move = next)
      (hroom : cluster.backend.store.HasRoom move.needs)
      (h : ∃ moves, Roomy {} moves ∧ Cluster.run {} moves = cluster) :
      ∃ moves, Roomy {} moves ∧ Cluster.run {} moves = next := by
    obtain ⟨moves, hroomy, rfl⟩ := h
    refine ⟨moves ++ [move], roomy_append.2 ⟨hroomy, hroom, trivial⟩, ?_⟩
    rw [run_append, ← hmove]
    rfl
  induction h with
  | empty => exact ⟨[], trivial, rfl⟩
  | opened _ config ih => exact hnext (.launch config) rfl (Store.hasRoom_zero _) ih
  | joined _ config ih => exact hnext (.join config) rfl (Store.hasRoom_zero _) ih
  | scheduled _ method fault times ih =>
    exact hnext (.plan method fault times) rfl (Store.hasRoom_zero _) ih
  | @answered cluster after _ room number now request _ done ih =>
    have hmove : cluster.move (.answer number now request) = after := by
      show cluster.afterCall number _ = after
      rw [afterCall, done]
    exact hnext (.answer number now request) hmove room ih
  | @stepped cluster after _ number policyId step _ done ih =>
    have hmove : cluster.move (.work number policyId step) = after := by
      show cluster.afterCall number _ = after
      rw [afterCall, done]
    exact hnext (.work number policyId step) hmove (Store.hasRoom_zero _) ih

/-- Opening a node leaves the store as it is. -/
theorem store_openNode (cluster : Cluster) (config : Config) :
    (cluster.openNode config).2.backend.store = cluster.backend.store := by
  unfold openNode
  obtain ⟨error, last, hlearns, hrun⟩ | ⟨last, hlearns, hrun⟩ :=
    Site.load_cases ⟨.blank config, cluster.backend⟩ <;> rw [hrun]
  · exact hlearns.still.store
  · exact hlearns.still.store

/-- No move takes more than two numbers from the store. -/
theorem Reachable.hasRoom_move (h : cluster.Reachable) {count : Nat}
    (hroom : cluster.backend.store.HasRoom (2 + count)) (move : Move) :
    (cluster.move move).backend.store.HasRoom count := by
  have hkept := hroom.mono (Nat.le_add_left _ _)
  cases move with
  | answer number now request =>
    refine afterCall_of_forall (·.backend.store.HasRoom count) hkept fun node hnode => ?_
    obtain ⟨n, hn, -, hpasses⟩ := Site.answer_passes (h.site_sound hnode)
      (hroom.mono (Nat.le_add_right _ _)) now request
    exact hpasses.hasRoom (hroom.mono (Nat.add_le_add_right hn _))
  | work number policyId step =>
    refine afterCall_of_forall (·.backend.store.HasRoom count) hkept fun node hnode => ?_
    have hstore := (Site.rosterStep_sound (h.site_sound hnode) policyId step).2
    show Store.HasRoom (Site.backend _).store count
    rwa [hstore]
  | launch config =>
    show (cluster.openNode config).2.backend.store.HasRoom count
    rwa [store_openNode]
  | join | plan => exact hkept

/-- Two numbers for each move are enough. -/
theorem Reachable.roomy (h : cluster.Reachable) {moves : List Move}
    (hroom : cluster.backend.store.HasRoom (2 * moves.length)) : cluster.Roomy moves := by
  induction moves generalizing cluster with
  | nil => trivial
  | cons move moves ih =>
    have hroom : cluster.backend.store.HasRoom (2 + 2 * moves.length) :=
      hroom.mono (by rw [List.length_cons]; omega)
    have hfirst : cluster.backend.store.HasRoom move.needs :=
      hroom.mono (Nat.le_add_right_of_le move.needs_le)
    exact ⟨hfirst, ih (h.move move hfirst) (h.hasRoom_move hroom move)⟩

theorem Reachable.run (h : cluster.Reachable) {moves : List Move}
    (hroom : cluster.backend.store.HasRoom (2 * moves.length)) : (cluster.run moves).Reachable :=
  h.run_of_roomy (h.roomy hroom)

/-! ### What is kept of the store and of every node -/

/-- What holds of the store, and what holds of every node. -/
structure Throughout (ofStore : Store → Prop) (ofNode : Node → Prop) (cluster : Cluster) : Prop where
  store : ofStore cluster.backend.store
  node {number : Nat} {node : Node} : cluster.nodes[number]? = some node → ofNode node

/-- What holds of the store and of the node is kept by every event, by each of the allowed roster
steps, and holds of a node that has read nothing. -/
structure Lasting (ofStore : Store → Prop) (ofNode : Node → Prop) (allowed : RosterStep → Prop) :
    Prop where
  blank (config : Config) : ofNode (.blank config)
  event {licence : Licence} {n : Nat} {site after : Site} : site.Event licence n after →
    site.Sound → site.backend.store.HasRoom n → ofStore site.backend.store → ofNode site.node →
      ofStore after.backend.store ∧ ofNode after.node
  step {node : Node} {policyId : UInt64} {roster : Roster} {step : RosterStep} : allowed step →
    node.rosters[policyId]? = some roster → ofNode node →
      ofNode { node with rosters := node.rosters.insert policyId (roster.perform step).2 }

/-- If the move is work on a live roster, it is one of the allowed steps. -/
def Move.Steps (allowed : RosterStep → Prop) : Move → Prop
  | .work _ _ step => allowed step
  | _ => True

variable {ofStore : Store → Prop} {ofNode : Node → Prop} {allowed : RosterStep → Prop}

theorem Throughout.withSite (h : cluster.Throughout ofStore ofNode)
    (hsite : ofStore site.backend.store ∧ ofNode site.node) :
    (cluster.withSite number site).Throughout ofStore ofNode := by
  refine ⟨hsite.1, fun {other node} hnode => ?_⟩
  obtain ⟨-, rfl⟩ | ⟨-, hother⟩ := nodes_withSite hnode
  · exact hsite.2
  · exact h.node hother

/-- What lasts is kept by everything that a request does. -/
theorem Lasting.passes (h : Lasting ofStore ofNode allowed) {licence : Licence} {n : Nat}
    {last : Site} (hpasses : site.Passes licence n last) (hsound : site.Sound)
    (hroom : site.backend.store.HasRoom n)
    (hsite : ofStore site.backend.store ∧ ofNode site.node) :
    ofStore last.backend.store ∧ ofNode last.node :=
  @Site.Passes.keeps _ _ (fun site => ofStore site.backend.store ∧ ofNode site.node) _ _ hpasses
    hsound hroom (fun hevent hsound hroom hsite => h.event hevent hsound hroom hsite.1 hsite.2)
    hsite

theorem Throughout.move (h : cluster.Throughout ofStore ofNode)
    (hlasting : Lasting ofStore ofNode allowed) (hreachable : cluster.Reachable) (move : Move)
    (hroom : cluster.backend.store.HasRoom move.needs) (hallowed : move.Steps allowed) :
    (cluster.move move).Throughout ofStore ofNode := by
  cases move with
  | answer number now request =>
    refine afterCall_of_forall (·.Throughout ofStore ofNode) h fun node hnode => h.withSite ?_
    have hsound := hreachable.site_sound hnode
    obtain ⟨n, hn, -, hpasses⟩ := Site.answer_passes hsound hroom now request
    exact hlasting.passes hpasses hsound (hroom.mono hn) ⟨h.store, h.node hnode⟩
  | work number policyId step =>
    refine afterCall_of_forall (·.Throughout ofStore ofNode) h fun node hnode => h.withSite ?_
    refine @Site.rosterStep_keeps _ (fun site => ofStore site.backend.store ∧ ofNode site.node)
      (hreachable.site_sound hnode) policyId step ?_ ?_ ⟨h.store, h.node hnode⟩
    · exact fun hevent hsound hroom hsite =>
        hlasting.event hevent hsound hroom hsite.1 hsite.2
    · exact fun _ hlive hsite => ⟨hsite.1, hlasting.step hallowed hlive hsite.2⟩
  | launch config =>
    -- a node that is opened starts blank and loads, and is thrown away if that fails
    have hblank : Site.Sound ⟨.blank config, cluster.backend⟩ :=
      ⟨hreachable.sound.store, blank_sound config _⟩
    obtain ⟨n, hn, -, hpasses⟩ : Site.load.Passes False 0 0 ⟨.blank config, cluster.backend⟩ :=
      Site.load_passes _
    have hloaded := hlasting.passes hpasses hblank ((Store.hasRoom_zero _).mono hn)
      ⟨h.store, hlasting.blank config⟩
    show (cluster.openNode config).2.Throughout ofStore ofNode
    unfold openNode
    rcases hrun : Site.load.perform ⟨.blank config, cluster.backend⟩ with ⟨error | _, site⟩ <;>
      rw [hrun] at hloaded
    · exact ⟨hloaded.1, h.node⟩
    · exact ⟨hloaded.1, node_of_push ofNode h.node hloaded.2⟩
  | join config => exact ⟨h.store, node_of_push ofNode h.node (hlasting.blank config)⟩
  | plan method fault times => exact ⟨h.store, h.node⟩

theorem Throughout.run (h : cluster.Throughout ofStore ofNode)
    (hlasting : Lasting ofStore ofNode allowed) (hreachable : cluster.Reachable)
    {moves : List Move} (hroomy : cluster.Roomy moves)
    (hallowed : ∀ move ∈ moves, move.Steps allowed) :
    (cluster.run moves).Throughout ofStore ofNode := by
  induction moves generalizing cluster with
  | nil => exact h
  | cons move moves ih =>
    obtain ⟨hmove, hmoves⟩ := List.forall_mem_cons.1 hallowed
    exact ih (h.move hlasting hreachable move hroomy.1 hmove) (hreachable.move move hroomy.1)
      hroomy.2 hmoves

/-- What holds of the empty store and lasts, whatever is done to live rosters, holds throughout
every reachable cluster. -/
theorem Reachable.throughout (h : cluster.Reachable) (hempty : ofStore {})
    (hlasting : Lasting ofStore ofNode fun _ => True) : cluster.Throughout ofStore ofNode := by
  obtain ⟨moves, hroomy, rfl⟩ := h.exists_run
  have hstart : Throughout ofStore ofNode {} := ⟨hempty, fun hnode => by simp at hnode⟩
  refine hstart.run hlasting .empty hroomy fun move _ => ?_
  cases move <;> trivial

/-- At every node of a reachable cluster the live rosters are tidy. -/
theorem Reachable.tidy (h : cluster.Reachable) (hnode : cluster.nodes[number]? = some node) :
    Site.Tidy ⟨node, cluster.backend⟩ := by
  -- it makes no difference over which store
  have hlasting : Lasting (fun _ => True) (fun node => ∀ backend, Site.Tidy ⟨node, backend⟩)
      fun _ => True :=
    { blank := fun config backend => ⟨fun hroster => by simp [Node.blank] at hroster⟩
      event := fun hevent _ _ _ htidy => ⟨trivial, fun _ => ⟨(hevent.tidy (htidy _)).live⟩⟩
      step := fun _ hlive htidy backend =>
        (htidy backend).insert (((htidy backend).live hlive).perform _) }
  exact (h.throughout trivial hlasting).node hnode cluster.backend

end Cluster

end AccessRights
