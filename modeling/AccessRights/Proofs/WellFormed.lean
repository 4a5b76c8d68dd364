/-
AccessRights/Proofs/WellFormed.lean

Every stored policy is well formed, on whichever nodes it was worked on.

Only drafts and updates are checked.  A policy gets another parent as the node
knows it, flags and all, and a node always writes back the whole row that it
has, which may be outdated.  So the store alone does not carry the argument: the
policies in the index of every node are well formed as well, and each write hands
a policy from one side to the other.

Two things are checked apart from that.  The parent of a new policy is a policy that
the node has found, so its number was handed out before.  A new parent of an old policy was
traced upwards, and the policy was not on the way.

Main result: `Reachable.stored_wellFormed`.
-/
import AccessRights.Proofs.Moves

namespace AccessRights

/-- A policy is proper and not its own parent. -/
structure Policy.WellFormed (policy : Policy) : Prop extends policy.Proper where
  apart : policy.parentId ≠ policy.id

/-- All stored policies are well formed. -/
def Store.WellFormed (store : Store) : Prop :=
  ∀ ⦃id : UInt64⦄ ⦃policy : Policy⦄, store.policies.byId? id = some policy → policy.WellFormed

/-- All policies that the node knows are well formed. -/
def Node.WellFormed (node : Node) : Prop :=
  ∀ ⦃id : UInt64⦄ ⦃policy : Policy⦄, node.policies.policy? id = some policy → policy.WellFormed

namespace Store

variable {store : Store}

/-- A store stays well-formed when a well-formed policy is stored. -/
theorem WellFormed.put (h : store.WellFormed) {policy : Policy} (hpolicy : policy.WellFormed)
    (record : RosterRecord) : WellFormed { store with policies := store.policies.put policy record } := by
  intro id found hfound
  replace hfound := (PolicyTables.policies_put _ _ _ _).symm.trans hfound
  split at hfound
  · cases hfound
    exact hpolicy
  · exact h hfound

end Store

namespace Node

variable {node : Node}

theorem wellFormed_blank (config : Config) : (Node.blank config).WellFormed := by
  intro id policy hpolicy
  simp [Node.blank, PolicyIndex.policy?] at hpolicy

theorem WellFormed.insert (h : node.WellFormed) {policy : Policy} (hpolicy : policy.WellFormed) :
    WellFormed { node with policies := node.policies.insert policy } := by
  intro id found hfound
  replace hfound := (PolicyIndex.policy?_insert _ _ _).symm.trans hfound
  split at hfound
  · cases hfound
    exact hpolicy
  · exact h hfound

end Node

namespace Site

variable {licence : Licence} {n : Nat} {site after : Site}

/-! ### What happens to well-formed policies -/

/-- A new policy does not hang below itself, as its parent has an older number. -/
theorem apart_of_found (hsound : site.Sound) (hroom : site.backend.store.HasRoom 1)
    {parentId : UInt64} (hplaced : parentId = 0 ∨
      ∃ parent, site.node.recalled.policy? parentId = some parent) :
    parentId ≠ site.backend.store.policies.lastId + 1 := by
  obtain rfl | ⟨parent, hparent⟩ := hplaced
  · exact (next_ne_zero hroom.policies).symm
  · rintro rfl
    have hold := (hsound.node.policy (policy_indexed_of_recalled hparent)).2
    exact UInt64.not_le.2 (lt_next hroom.policies) hold

/-- A policy does not hang below itself if it keeps its parent, or is not on the way up from the
new one. -/
theorem apart_of_line {links : Links} {policy current : Policy} (hcurrent : current.WellFormed)
    (hid : policy.id = current.id) (hnonzero : policy.id ≠ 0)
    (hplaced : policy.parentId = current.parentId ∨
      ∃ line, links.Line policy.parentId line ∧ policy.id ∉ line) : policy.parentId ≠ policy.id := by
  obtain hkept | ⟨line, hline, hclear⟩ := hplaced
  · rw [hkept, hid]
    exact hcurrent.apart
  · intro heq
    rw [heq] at hline
    exact hclear (hline.head_mem hnonzero)

/-- Every event keeps all policies well formed, the stored ones and those that the node knows. -/
theorem Event.wellFormed (h : site.Event licence n after) (hsound : site.Sound)
    (hroom : site.backend.store.HasRoom n) (hstore : site.backend.store.WellFormed)
    (hnode : site.node.WellFormed) : after.backend.store.WellFormed ∧ after.node.WellFormed := by
  cases h with
  | learn learn =>
    refine ⟨learn.still.store ▸ hstore, ?_⟩
    cases learn with
    | fault | group | roster | answers | cache => exact hnode
    | policy unknown stored => exact hnode.insert (hstore stored)
  | rosterBackedUp | rosterChanged | groupSlippedIn | groupStored | relationDropped | groupDeleted
  | related | unrelated | loaded | linked | regrouped => exact ⟨hstore, hnode⟩
  | @policyStored policy record stored policies new created bare placed proper =>
    obtain ⟨stored, storedRecord⟩ := stored
    obtain ⟨-, rfl, -, rfl⟩ := PolicyTables.create_eq_ok created
    -- a new policy cannot be its own parent, for its number was not there before
    have hpolicy : Policy.WellFormed { policy with id := site.backend.store.policies.lastId + 1 } :=
      { proper with apart := apart_of_found hsound hroom placed }
    exact ⟨fun id found hfound => hstore.put hpolicy record hfound, hnode⟩
  | @policyUpdated policy current update policies _ _ indexed key object updated _ _ _ _ _ placed _
      _ proper =>
    obtain ⟨⟨before, hbefore⟩, -, rfl⟩ := PolicyTables.update_eq_ok updated
    have hcurrent := hnode indexed
    have hid := (hsound.node.policy indexed).1
    have hnonzero := (hsound.store.policies.policy hbefore).2.1
    have hpolicy : policy.WellFormed :=
      { proper hcurrent.toProper with apart := apart_of_line hcurrent hid.symm hnonzero placed }
    exact ⟨hstore.put hpolicy update.record, hnode.insert hpolicy⟩
  | policyDeleted deleted =>
    obtain ⟨-, rfl⟩ := PolicyTables.delete_eq_ok deleted
    refine ⟨fun id found hfound => hstore (Table.of_lookup_erase hfound),
      fun id found hfound => ?_⟩
    replace hfound := (PolicyIndex.policy?_remove _ _ _).symm.trans hfound
    split at hfound
    · cases hfound
    · exact hnode hfound

end Site

/-! ### Clusters -/

namespace Cluster

/-- Well-formedness lasts through everything that may happen to a cluster. -/
theorem wellFormed_lasting : Lasting Store.WellFormed Node.WellFormed fun _ => True where
  blank := Node.wellFormed_blank
  event := Site.Event.wellFormed
  step _ _ hnode := hnode

/-- Whatever is asked of however many nodes over one store, every stored policy is well formed. -/
theorem Reachable.stored_wellFormed {cluster : Cluster} (h : cluster.Reachable) {id : UInt64}
    {policy : Policy} (hstored : cluster.backend.store.policies.byId? id = some policy) :
    policy.WellFormed := by
  have hempty : Store.WellFormed {} := fun id policy hfound => by
    simp [PolicyTables.byId?] at hfound
  exact (h.throughout hempty wellFormed_lasting).store hstored

/-- A policy that extends another one, with a nameless flag as well, is detached by a second node
and written back by the first, which still knows it as it was. -/
def writtenBack : Cluster :=
  run {} [.launch {}, .launch {},
    .answer 0 default (.createPolicy (some "base") 1 0 none .empty),
    .answer 0 default (.createPolicy (some "part") 1 1 none ⟨6⟩),
    .answer 1 default (.movePolicy 2 0),
    .answer 0 default (.movePolicy 2 1)]

theorem reachable_writtenBack : writtenBack.Reachable :=
  Reachable.empty.run ⟨by decide +kernel, by decide +kernel⟩

theorem stored_wellFormed_writtenBack :
    ∃ policy, writtenBack.backend.store.policies.byId? 2 = some policy ∧
      policy.flags = ⟨6⟩ ∧ policy.parentId = 1 ∧ policy.WellFormed := by
  have hflags : (writtenBack.backend.store.policies.byId? 2).map
      (fun policy => (policy.flags, policy.parentId)) = some (⟨6⟩, 1) := by decide +kernel
  obtain ⟨policy, hstored, hpolicy⟩ := Option.map_eq_some_iff.1 hflags
  obtain ⟨hflags, hparent⟩ := Prod.mk.inj hpolicy
  exact ⟨policy, hstored, hflags, hparent, reachable_writtenBack.stored_wellFormed hstored⟩

end Cluster

end AccessRights
