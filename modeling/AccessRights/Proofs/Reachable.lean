/-
AccessRights/Proofs/Reachable.lean

The states that a cluster can get into.

It begins with an empty store and no nodes.  Then nodes are opened, faults
planned, requests answered and live rosters changed, in any order and on any
of the nodes.  Numbers are handed out once and have 64 bits; a request is only
considered while the store has two left, which is the most that one request
takes.

Main result: `Reachable.site_sound` (a node of a reachable cluster agrees with
the store in what never changes).
-/
import AccessRights.Cluster
import AccessRights.Proofs.Answering

namespace AccessRights

/-! ### Work on a live roster -/

namespace Site

open Call

variable {site : Site}

/-- A step on a live roster, past the rules for grants, keeps the site sound. -/
theorem rosterStep_sound (hsound : site.Sound) (policyId : UInt64) (step : RosterStep) :
    ((rosterStep policyId step).perform site).2.Sound ∧
      ((rosterStep policyId step).perform site).2.backend.store = site.backend.store := by
  unfold rosterStep
  rw [perform_bind]
  obtain ⟨error, after, hlearns, hrun⟩ | ⟨roster, after, hlearns, ⟨-, hlive⟩, hrun⟩ :=
    (reads_rosterOf hsound.keyed policyId).cases <;> rw [hrun]
  · exact ⟨hlearns.sound hsound, hlearns.still.store⟩
  · obtain ⟨hstore, hnode⟩ := hlearns.sound hsound
    obtain ⟨rfl, hle, hconsistent⟩ := hnode.roster hlive
    have hown := roster.policyId_perform step
    refine ⟨⟨hstore, ?_⟩, hlearns.still.store⟩
    exact hnode.insertRoster (hown.symm ▸ hle) (hconsistent.perform step)

end Site

namespace Cluster

variable {cluster : Cluster}

/-! ### Calls on a node -/

/-- The cluster after one of its nodes and the store have got into other states. -/
def withSite (number : Nat) (site : Site) (cluster : Cluster) : Cluster :=
  ⟨site.backend, cluster.nodes.setIfInBounds number site.node⟩

/-- A call on a node is the call at the site of that node, put back into the cluster. -/
theorem onNode?_eq_some_iff {α : Type} {call : Call α} {number : Nat}
    {result : Except AccessError α} {after : Cluster} :
    cluster.onNode? number call = some (result, after) ↔
      ∃ node, cluster.nodes[number]? = some node ∧
        (call.perform ⟨node, cluster.backend⟩).1 = result ∧
          cluster.withSite number (call.perform ⟨node, cluster.backend⟩).2 = after := by
  unfold onNode?
  rw [Option.bind_eq_bind, Option.bind_eq_some_iff]
  simp only [Option.some.injEq, Prod.mk.injEq]
  rfl

/-- A node of the cluster is the one that was called, or it is as it was. -/
theorem nodes_withSite {number other : Nat} {site : Site} {node : Node}
    (h : (cluster.withSite number site).nodes[other]? = some node) :
    other = number ∧ node = site.node ∨ other ≠ number ∧ cluster.nodes[other]? = some node := by
  unfold withSite at h
  rw [Array.getElem?_setIfInBounds] at h
  split at h
  · split at h
    · rename_i heq _
      cases h
      exact .inl ⟨heq.symm, rfl⟩
    · cases h
  · rename_i hne
    exact .inr ⟨fun heq => hne heq.symm, h⟩

/-! ### Reachable clusters -/

/-- A state that a cluster can get into. -/
inductive Reachable : Cluster → Prop
  | empty : Reachable {}
  /-- A node is opened, or fails to open. -/
  | opened {cluster : Cluster} (before : Reachable cluster) (config : Config) :
      Reachable (cluster.openNode config).2
  /-- A node joins that has read nothing yet. -/
  | joined {cluster : Cluster} (before : Reachable cluster) (config : Config) :
      Reachable { cluster with nodes := cluster.nodes.push (.blank config) }
  /-- Faults are planned. -/
  | scheduled {cluster : Cluster} (before : Reachable cluster) (method : StoreMethod)
      (fault : Fault) (times : Nat) : Reachable (cluster.schedule method fault times)
  /-- A node answers a request, or refuses it. -/
  | answered {cluster after : Cluster} (before : Reachable cluster)
      (room : cluster.backend.store.HasRoom 2) {number : Nat} {now : Timestamp}
      {request : Request} {result : Except AccessError Reply}
      (done : cluster.onNode? number (Site.answer now request) = some (result, after)) :
      Reachable after
  /-- Somebody works on a live roster of a node. -/
  | stepped {cluster after : Cluster} (before : Reachable cluster) {number : Nat}
      {policyId : UInt64} {step : RosterStep} {result : Except AccessError RosterAnswer}
      (done : cluster.onNode? number (Site.rosterStep policyId step) = some (result, after)) :
      Reachable after

/-- The store keeps its rules and every node agrees with it. -/
structure Sound (cluster : Cluster) : Prop where
  store : cluster.backend.store.Sound
  node {number : Nat} {node : Node} : cluster.nodes[number]? = some node →
    node.Sound cluster.backend.store

/-- What a call does to its own node and the store is seen by the other nodes as the doing of
somebody else. -/
theorem Sound.onNode? {α : Type} {call : Call α} {number : Nat} {result : Except AccessError α}
    {after : Cluster} (hsound : cluster.Sound)
    (hcall : ∀ node, cluster.nodes[number]? = some node →
      (call.perform ⟨node, cluster.backend⟩).2.Sound ∧
        cluster.backend.store.Later (call.perform ⟨node, cluster.backend⟩).2.backend.store)
    (hdone : cluster.onNode? number call = some (result, after)) : after.Sound := by
  obtain ⟨node, hnode, -, rfl⟩ := onNode?_eq_some_iff.1 hdone
  obtain ⟨hsite, hlater⟩ := hcall node hnode
  refine ⟨hsite.store, fun {other found} hfound => ?_⟩
  -- the node of the call has changed, and the others look on
  obtain ⟨-, rfl⟩ | ⟨-, hother⟩ := nodes_withSite hfound
  · exact hsite.node
  · exact (hsound.node hother).of_later hlater

/-- A node that has read nothing agrees with any store. -/
theorem blank_sound (config : Config) (store : Store) : (Node.blank config).Sound store where
  policy h := by simp [Node.blank, PolicyIndex.policy?] at h
  designators h := by simp [Node.blank, PolicyIndex.policy?] at h
  age h := by simp [Node.blank, PolicyIndex.policy?] at h
  roster h := by simp [Node.blank] at h
  group h := by simp [Node.blank, GroupIndex.group?] at h
  nature h := by simp [Node.blank, GroupIndex.group?] at h
  member h := by simp [Node.blank, GroupIndex.groupsOf] at h
  mirrored id asset := by simp [Node.blank, GroupIndex.groupsOf, GroupIndex.membersOf]

theorem node_of_push (holds : Node → Prop) {nodes : Array Node} {number : Nat} {node found : Node}
    (hold : nodes[number]? = some found → holds found) (hnew : holds node)
    (hfound : (nodes.push node)[number]? = some found) : holds found := by
  rw [Array.getElem?_push] at hfound
  split at hfound
  · cases hfound
    exact hnew
  · exact hold hfound

/-- A node that is opened over a sound store is sound. -/
theorem Sound.openNode (hsound : cluster.Sound) (config : Config) :
    (cluster.openNode config).2.Sound := by
  -- before it loads, the node knows nothing that could be wrong
  have hblank : Site.Sound ⟨.blank config, cluster.backend⟩ :=
    ⟨hsound.store, blank_sound config _⟩
  obtain ⟨n, hn, -, hpasses⟩ : Site.load.Passes False 0 0 ⟨.blank config, cluster.backend⟩ :=
    Site.load_passes _
  have hroom : cluster.backend.store.HasRoom n := (Store.hasRoom_zero _).mono hn
  obtain ⟨hsite, hlater⟩ := hpasses.sound hblank hroom
  unfold Cluster.openNode
  rcases hrun : Site.load.perform ⟨.blank config, cluster.backend⟩ with ⟨error | _, site⟩ <;>
    rw [hrun] at hsite hlater
  · exact ⟨hsite.store, fun hfound => (hsound.node hfound).of_later hlater⟩
  · refine ⟨hsite.store, fun {number found} hfound => ?_⟩
    exact node_of_push (Node.Sound · site.backend.store)
      (fun hold => (hsound.node hold).of_later hlater) hsite.node hfound

/-- Every reachable cluster is sound. -/
theorem Reachable.sound (h : cluster.Reachable) : cluster.Sound := by
  induction h with
  | empty => exact ⟨Store.sound_empty, fun hfound => by simp at hfound⟩
  | opened _ config ih => exact ih.openNode config
  | joined _ config ih =>
    exact ⟨ih.store, fun hfound =>
      node_of_push (Node.Sound · _) ih.node (blank_sound config _) hfound⟩
  | scheduled _ method fault times ih => exact ⟨ih.store, ih.node⟩
  | answered _ room done ih =>
    refine ih.onNode? (fun node hnode => ?_) done
    have hsound : Site.Sound ⟨node, _⟩ := ⟨ih.store, ih.node hnode⟩
    obtain ⟨n, hn, -, hpasses⟩ := Site.answer_passes hsound room _ _
    exact hpasses.sound hsound (room.mono hn)
  | stepped _ done ih =>
    refine ih.onNode? (fun node hnode => ?_) done
    have hsound : Site.Sound ⟨node, _⟩ := ⟨ih.store, ih.node hnode⟩
    obtain ⟨hsite, hstore⟩ := Site.rosterStep_sound hsound _ _
    exact ⟨hsite, hstore ▸ .refl _⟩

/-- A node of a reachable cluster and the store. -/
theorem Reachable.site_sound (h : cluster.Reachable) {number : Nat} {node : Node}
    (hnode : cluster.nodes[number]? = some node) : Site.Sound ⟨node, cluster.backend⟩ :=
  ⟨h.sound.store, h.sound.node hnode⟩

/-! ### After some requests -/

/-- What has become of a cluster after requests to its nodes.  A request to a node that there
is not is passed over. -/
def after (cluster : Cluster) : List (Nat × Timestamp × Request) → Cluster
  | [] => cluster
  | (number, now, request) :: requests =>
    match cluster.onNode? number (Site.answer now request) with
    | some (_, next) => next.after requests
    | none => cluster.after requests

/-- Requests lead from reachable clusters to reachable clusters. -/
theorem Reachable.after (h : cluster.Reachable) {requests : List (Nat × Timestamp × Request)}
    (hroom : cluster.backend.store.HasRoom (2 * requests.length)) :
    (cluster.after requests).Reachable := by
  induction requests generalizing cluster with
  | nil => exact h
  | cons head requests ih =>
    obtain ⟨number, now, request⟩ := head
    have hroom : cluster.backend.store.HasRoom (2 + 2 * requests.length) :=
      hroom.mono (by rw [List.length_cons]; omega)
    unfold Cluster.after
    split
    · rename_i reply next hdone
      apply ih (.answered h (hroom.mono (by omega)) hdone)
      obtain ⟨node, hnode, -, rfl⟩ := onNode?_eq_some_iff.1 hdone
      obtain ⟨n, hn, -, hpasses⟩ :=
        Site.answer_passes (h.site_sound hnode) (hroom.mono (by omega)) now request
      exact hpasses.hasRoom (hroom.mono (by omega))
    · exact ih h (hroom.mono (by omega))

/-- A node together with the store. -/
def siteOf (cluster : Cluster) (number : Nat) : Site :=
  ⟨cluster.nodes.getD number default, cluster.backend⟩

theorem nodes_siteOf {number : Nat} (h : number < cluster.nodes.size) :
    cluster.nodes[number]? = some (cluster.siteOf number).node := by
  simp [siteOf, h]

end Cluster

end AccessRights
