/-
AccessRights/Proofs/PolicyTree.lean

The tree of the stored policies.

A policy may be deleted while others hang below it, so a chain of parent links
need not end at zero.  But it ends: a new policy has a number that no link leads
to, a policy that is moved was checked against the chain above its new parent,
and a deleted one takes its link away.  The check is made in the memory of the
node, which is good enough because a node that has its store to itself knows
policies only as they are stored.

Main results: `Event.indexed`, `Event.rooted` and `Reached.rooted`.
-/
import AccessRights.Proofs.Reached

namespace AccessRights

namespace PolicyTables

variable {tables tables' : PolicyTables}

/-! ### Stored links -/

/-- The parent links of the stored policies. -/
def links (tables : PolicyTables) : Links := fun id =>
  (tables.byId? id).map Policy.parentId

/-- A stored policy links to its parent. -/
theorem links_of_stored {id : UInt64} {policy : Policy} (h : tables.byId? id = some policy) :
    tables.links id = some policy.parentId := by
  rw [links, h, Option.map_some]

/-- Storing a policy changes one link. -/
theorem links_put (tables : PolicyTables) (policy : Policy) (record : RosterRecord) (id : UInt64) :
    (tables.put policy record).links id =
      if policy.id = id then some policy.parentId else tables.links id := by
  unfold links byId?
  rw [policies_put]
  split <;> rfl

/-- Deleting a policy cuts one link. -/
theorem links_delete {id : UInt64} (h : PolicyTables.delete id tables = .ok ((), tables'))
    (other : UInt64) : tables'.links other = if id = other then none else tables.links other := by
  obtain ⟨-, rfl⟩ := delete_eq_ok h
  unfold links byId?
  rw [lookup_erase]
  split <;> rfl

/-- Nothing is stored under the number zero. -/
theorem Sound.links_zero (h : tables.Sound) : tables.links 0 = none := by
  refine Option.eq_none_iff_forall_ne_some.2 fun parentId hlink => ?_
  obtain ⟨policy, hpolicy, -⟩ := Option.map_eq_some_iff.1 hlink
  exact (h.policy hpolicy).2.1 rfl

/-- Parent links lead to numbers that were handed out, and never run in a circle. -/
structure Rooted (tables : PolicyTables) : Prop where
  parent {id parentId : UInt64} : tables.links id = some parentId → parentId ≤ tables.lastId
  ends : tables.links.Ends

theorem rooted_empty : Rooted {} := by
  have hnone (id : UInt64) : links {} id = none := by simp [links, byId?]
  constructor
  · intro id parentId hlink
    cases (hnone id).symm.trans hlink
  · refine ⟨fun id => ⟨_, fun next hlink => ?_⟩⟩
    cases (hnone id).symm.trans hlink

/-- A policy may be put where no chain from its parent comes. -/
theorem Rooted.put (h : tables.Rooted) {policy : Policy} (record : RosterRecord) {lastId : UInt64}
    (hlast : tables.lastId ≤ lastId) (hparent : policy.parentId ≤ lastId)
    (hclear : ¬ tables.links.Chain policy.parentId policy.id) :
    Rooted { tables.put policy record with lastId } := by
  have hlinks : links { tables.put policy record with lastId } =
      (tables.put policy record).links := rfl
  constructor
  · intro id parentId hlink
    rw [hlinks, links_put] at hlink
    split at hlink
    · cases hlink
      exact hparent
    · exact UInt64.le_trans (h.parent hlink) hlast
  · rw [hlinks]
    refine h.ends.relink policy.id (fun other hother => ?_) fun next hnext => ?_
    · rw [links_put, if_neg hother]
    · rw [links_put, if_pos rfl] at hnext
      cases hnext
      exact hclear

/-- A new policy has a number that no link leads to. -/
theorem Rooted.create (h : tables.Rooted) (hsound : tables.Sound)
    (hroom : tables.lastId.toNat + 1 < UInt64.size) {policy : Policy} {record : RosterRecord}
    {stored : Policy × RosterRecord}
    (hplaced : policy.parentId = 0 ∨ ∃ parent, tables.byId? policy.parentId = some parent)
    (hcreate : PolicyTables.create policy record tables = .ok (stored, tables')) :
    tables'.Rooted := by
  obtain ⟨stored, storedRecord⟩ := stored
  obtain ⟨-, rfl, rfl, rfl⟩ := create_eq_ok hcreate
  have hlt := lt_next hroom
  have hparent : policy.parentId ≤ tables.lastId := by
    obtain hroot | ⟨parent, hparent⟩ := hplaced
    · rw [hroot]
      exact UInt64.zero_le
    · exact (hsound.policy hparent).2.2
  have hfresh {id : UInt64} (hle : id ≤ tables.lastId) : id ≠ tables.lastId + 1 := by
    rintro rfl
    exact UInt64.not_le.2 hlt hle
  refine h.put record (UInt64.le_of_lt hlt) (UInt64.le_trans hparent (UInt64.le_of_lt hlt)) ?_
  exact Links.not_chain_of_unlinked (fun other hlink => hfresh (h.parent hlink) rfl)
    (hfresh hparent)

/-- A stored policy keeps its parent, or moves to where no chain comes back from. -/
theorem Rooted.update (h : tables.Rooted) (hsound : tables.Sound) {policy : Policy}
    {update : RosterUpdate}
    (hplaced : tables.links policy.id = some policy.parentId ∨
      ∃ line, tables.links.Line policy.parentId line ∧ policy.id ∉ line)
    (hupdate : PolicyTables.update policy update tables = .ok ((), tables')) : tables'.Rooted := by
  obtain ⟨⟨before, hbefore⟩, -, rfl⟩ := update_eq_ok hupdate
  obtain ⟨-, hnonzero, -⟩ := hsound.policy hbefore
  obtain hkept | ⟨line, hline, hclear⟩ := hplaced
  · refine h.put update.record (UInt64.le_refl _) (h.parent hkept) fun hchain => ?_
    exact h.ends.not_cyclic policy.id (.head' hkept hchain)
  · refine h.put update.record (UInt64.le_refl _) ?_ fun hchain => ?_
    · obtain hroot | ⟨next, hlink⟩ := hline.linked
      · rw [hroot]
        exact UInt64.zero_le
      · obtain ⟨parent, hparent, -⟩ := Option.map_eq_some_iff.1 hlink
        exact (hsound.policy hparent).2.2
    · exact hclear ((hline.mem_iff hsound.links_zero).2 ⟨hnonzero, hchain⟩)

/-- A deleted policy takes its link away. -/
theorem Rooted.delete (h : tables.Rooted) {id : UInt64}
    (hdelete : PolicyTables.delete id tables = .ok ((), tables')) : tables'.Rooted := by
  have hlinks := links_delete hdelete
  obtain ⟨-, rfl⟩ := delete_eq_ok hdelete
  constructor
  · intro other parentId hlink
    rw [hlinks] at hlink
    split at hlink
    · cases hlink
    · exact h.parent hlink
  · refine h.ends.relink id (fun other hother => ?_) fun next hnext => ?_
    · rw [hlinks, if_neg hother]
    · rw [hlinks, if_pos rfl] at hnext
      cases hnext

end PolicyTables

namespace Site

variable {rules : Rules} {licence : Licence} {n : Nat} {site after : Site}

/-! ### What is known of policies -/

/-- Every policy that the node knows is stored, as the node knows it. -/
structure Indexed (site : Site) : Prop where
  policy {id : UInt64} {policy : Policy} : site.node.policies.policy? id = some policy →
    site.backend.store.policies.byId? id = some policy

theorem indexed_blank (config : Config) (backend : Backend) :
    Indexed ⟨.blank config, backend⟩ :=
  ⟨fun hpolicy => by simp [Node.blank, PolicyIndex.policy?] at hpolicy⟩

/-- What is recalled of policies is stored. -/
theorem Indexed.of_recalled (h : site.Indexed) {id : UInt64} {policy : Policy}
    (hpolicy : site.node.recalled.policy? id = some policy) :
    site.backend.store.policies.byId? id = some policy :=
  h.policy (policy_indexed_of_recalled hpolicy)

/-- What the node knows of the links is so. -/
theorem Indexed.links_of_recalled (h : site.Indexed) {id parentId : UInt64}
    (hlink : site.node.recalled.policyLinks id = some parentId) :
    site.backend.store.policies.links id = some parentId := by
  obtain ⟨policy, hpolicy, rfl⟩ := Option.map_eq_some_iff.1 hlink
  exact PolicyTables.links_of_stored (h.of_recalled hpolicy)

/-- A policy that is stored and taken in is known as it is stored. -/
theorem Indexed.put (h : site.Indexed) (policy : Policy) (record : RosterRecord) {id : UInt64}
    {found : Policy} (hfound : (site.node.policies.insert policy).policy? id = some found) :
    (site.backend.store.policies.put policy record).byId? id = some found := by
  rw [PolicyIndex.policy?_insert] at hfound
  refine (PolicyTables.policies_put ..).trans ?_
  split at hfound
  · rwa [if_pos ‹_›]
  · rw [if_neg ‹_›]
    exact h.policy hfound

/-- What is learned was stored. -/
theorem Learn.indexed (h : site.Learn after) (hkeyed : site.Keyed) (hindexed : site.Indexed) :
    after.Indexed := by
  cases h with
  | fault | group | roster | answers | cache => exact ⟨hindexed.policy⟩
  | @policy id policy unknown stored =>
    obtain rfl := hkeyed.policy stored
    refine ⟨fun {other found} hfound => ?_⟩
    rw [PolicyIndex.policy?_insert] at hfound
    split at hfound
    · rename_i heq
      cases hfound
      exact heq ▸ stored
    · exact hindexed.policy hfound

theorem Learns.indexed (h : site.Learns after) (hkeyed : site.Keyed) (hindexed : site.Indexed) :
    after.Indexed := by
  induction h with
  | refl => exact hindexed
  | step first _ ih => exact ih (first.keyed hkeyed) (first.indexed hkeyed hindexed)

/-- An event changes the index and the store together. -/
theorem Event.indexed (h : site.Event licence n after) (hsound : site.Sound)
    (hroom : site.backend.store.HasRoom n) (hindexed : site.Indexed) : after.Indexed := by
  cases h with
  | learn learn => exact learn.indexed hsound.keyed hindexed
  | rosterBackedUp | rosterChanged | groupSlippedIn | groupStored | relationDropped | groupDeleted
  | related | unrelated | loaded | linked | regrouped => exact ⟨hindexed.policy⟩
  | policyStored new created =>
    obtain ⟨hpolicies, -⟩ := hsound.store.policies.create_keeps hroom.policies created
    exact ⟨fun hfound => hpolicies _ _ (hindexed.policy hfound)⟩
  | policyUpdated _ _ _ updated =>
    obtain ⟨-, -, rfl⟩ := PolicyTables.update_eq_ok updated
    exact ⟨fun hfound => hindexed.put _ _ hfound⟩
  | policyDeleted deleted =>
    obtain ⟨-, rfl⟩ := PolicyTables.delete_eq_ok deleted
    refine ⟨fun {other found} hfound => ?_⟩
    rw [PolicyIndex.policy?_remove] at hfound
    split at hfound
    · cases hfound
    · exact (lookup_erase ..).trans ((if_neg ‹_›).trans (hindexed.policy hfound))

/-! ### Sites without circles -/

/-- The stored links never run in a circle, and the node knows policies as they are stored. -/
structure Rooted (site : Site) : Prop extends site.Indexed where
  tables : site.backend.store.policies.Rooted

theorem Learns.rooted (h : site.Learns after) (hkeyed : site.Keyed) (hrooted : site.Rooted) :
    after.Rooted where
  toIndexed := h.indexed hkeyed hrooted.toIndexed
  tables := h.still.store ▸ hrooted.tables

/-- Every event keeps the links free of circles: a parent was found or checked before. -/
theorem Event.rooted (h : site.Event licence n after) (hsound : site.Sound)
    (hroom : site.backend.store.HasRoom n) (hrooted : site.Rooted) : after.Rooted := by
  refine ⟨h.indexed hsound hroom hrooted.toIndexed, ?_⟩
  obtain ⟨hindexed, htables⟩ := hrooted
  cases h with
  | learn learn => exact learn.still.store ▸ htables
  | rosterBackedUp | rosterChanged | groupSlippedIn | groupStored | relationDropped | groupDeleted
  | related | unrelated | loaded | linked | regrouped => exact htables
  | policyStored new created bare placed =>
    refine htables.create hsound.store.policies hroom.policies (placed.imp_right ?_) created
    rintro ⟨parent, hparent⟩
    exact ⟨parent, hindexed.of_recalled hparent⟩
  | policyUpdated indexed _ _ updated _ _ _ _ _ placed =>
    refine htables.update hsound.store.policies ?_ updated
    obtain hkept | ⟨line, hline, hclear⟩ := placed
    · rw [hkept]
      exact .inl (PolicyTables.links_of_stored (hindexed.policy indexed))
    · exact .inr ⟨line, hline.mono hindexed.links_of_recalled, hclear⟩
  | policyDeleted deleted => exact htables.delete deleted

/-- The stored links at a reached site never run in a circle, whatever was asked of the node and
whatever the store failed to do. -/
theorem Reached.rooted (h : site.Reached rules) : site.Rooted :=
  h.keeps (fun config => ⟨indexed_blank config _, PolicyTables.rooted_empty⟩)
    (fun config hrooted => ⟨indexed_blank config _, hrooted.tables⟩)
    (fun _ hrooted => ⟨⟨hrooted.policy⟩, hrooted.tables⟩)
    (fun hevent hsound hroom hrooted => hevent.rooted hsound hroom hrooted)
    fun _ _ _ hrooted => ⟨⟨hrooted.policy⟩, hrooted.tables⟩

end Site

end AccessRights
