/-
AccessRights/Proofs/Event.lean

What a request can do to a site.

`Site.Event` lists it once: besides learning, a request stores a row and
takes it in, changes a live roster, settles or removes something, and counts
the change.  Whatever is to be known of every request is shown by cases on
this list, and by induction along `Site.Passes`, a sequence of events.

Two events change the index without counting the change: a membership or
another version of a group that only the store knew is taken in.  They are
possible only where a node lags behind its store.  And a policy is stored anew or
removed only by a request that names it.  So the list is indexed by a `Licence` that
allows these.  The number is the count of numbers that the store hands out.

Main results: `Passes.sound`, `Passes.hasRoom` and `Passes.inStep`.
-/
import AccessRights.Proofs.Parents
import AccessRights.Proofs.Rights
import AccessRights.Proofs.Sound

namespace AccessRights

/-! ### What a node has checked -/

namespace Node

variable {node other : Node} {childId parentId : UInt64} {kind : GroupKind}

/-- The node has found the parent, with all groups above it: it is of the kind, and the child
is not among them.  A child that is not stored yet has the number zero. -/
structure Accepts (node : Node) (childId : UInt64) (kind : GroupKind) (parentId : UInt64) :
    Prop where
  parent : ∃ parent, node.recalled.group? parentId = some parent ∧ parent.kind? = some kind
  clear : ∃ ancestors, node.recalled.Lineage parentId ancestors ∧
    (childId ≠ 0 → ∀ ancestor ∈ ancestors, ancestor.id ≠ childId)

/-- A place that was accepted is accepted still when more is known. -/
theorem Accepts.mono (hle : node.recalled.Le other.recalled)
    (h : node.Accepts childId kind parentId) : other.Accepts childId kind parentId := by
  obtain ⟨⟨parent, hparent, hkind⟩, ancestors, hlineage, hclear⟩ := h
  exact ⟨⟨parent, hle.group hparent, hkind⟩, ancestors, hlineage.mono hle, hclear⟩

/-- The group has a kind, the one it had if it was known, as has its age, and its parent is none,
the one it had, or one that the node accepts. -/
structure Places (node : Node) (group : Group) : Prop where
  kind : group.kind?.isSome = true
  own : group.id ≠ 0 →
    ∃ current, node.groups.group? group.id = some current ∧ current.kind? = group.kind? ∧
      current.createdAt = group.createdAt
  parent : group.parentId = 0 ∨
    (∃ current, node.groups.group? group.id = some current ∧
      current.parentId = group.parentId) ∨
    ∃ kind, group.kind? = some kind ∧ node.Accepts group.id kind group.parentId

end Node

/-! ### Events -/

/-- What is allowed to some requests only. -/
structure Licence where
  /-- The node may take in what only the store knew, without counting that. -/
  lags : Prop
  /-- The policies that may be removed. -/
  removes : UInt64 → Prop := fun _ => False
  /-- The policies that may be stored anew. -/
  stores : UInt64 → Prop := fun _ => False

/-- A proposition by itself says when the node may lag behind. -/
instance : Coe Prop Licence := ⟨fun lags => { lags }⟩

namespace Site

/-- One thing that a request does, with the count of numbers handed out for it. -/
inductive Event (licence : Licence) (site : Site) : Nat → Site → Prop
  | learn {after : Site} (learn : site.Learn after) : Event licence site 0 after
  /-- A policy is stored, with a roster on which nobody has rights. -/
  | policyStored {policy : Policy} {record : RosterRecord} {stored : Policy × RosterRecord}
      {policies : PolicyTables} (new : policy.id = 0)
      (created : PolicyTables.create policy record site.backend.store.policies =
        .ok (stored, policies)) (bare : record = .empty 0)
      (placed : policy.parentId = 0 ∨
        ∃ parent, site.node.recalled.policy? policy.parentId = some parent)
      (proper : policy.Proper) :
      Event licence site 1
        { site with backend := { site.backend with store := { site.backend.store with policies } } }
  /-- A policy and its live roster are stored anew and taken in, and that is counted. -/
  | policyUpdated {policy current : Policy} {update : RosterUpdate} {policies : PolicyTables}
      {before roster : Roster} (indexed : site.node.policies.policy? policy.id = some current)
      (key : policy.key = current.key) (object : policy.object = current.object)
      (updated : PolicyTables.update policy update site.backend.store.policies =
        .ok ((), policies))
      (live : site.node.rosters[policy.id]? = some before) (own : roster.policyId = policy.id)
      (consistent : roster.Consistent) (handed : update = before.update)
      (edit : roster = before.commit ∨ roster = before.commit.forgetCalculated)
      (placed : policy.parentId = current.parentId ∨
        ∃ line, site.node.recalled.policyLinks.Line policy.parentId line ∧ policy.id ∉ line)
      (allowed : licence.stores policy.id) (created : policy.createdAt = current.createdAt)
      (proper : current.Proper → policy.Proper) :
      Event licence site 0
        { node := { site.node with
            policies := site.node.policies.insert policy
            rosters := site.node.rosters.insert policy.id roster
            changes := site.node.changes + 1 }
          backend := { site.backend with store := { site.backend.store with policies } } }
  /-- A policy is removed with its roster, and that is counted. -/
  | policyDeleted {id : UInt64} {policies : PolicyTables}
      (deleted : PolicyTables.delete id site.backend.store.policies = .ok ((), policies))
      (allowed : licence.removes id) :
      Event licence site 0
        { node := { site.node with
            policies := site.node.policies.remove id
            rosters := site.node.rosters.erase id
            changes := site.node.changes + 1 }
          backend := { site.backend with store := { site.backend.store with policies } } }
  /-- A live roster takes a backup. -/
  | rosterBackedUp {id : UInt64} {roster : Roster} (live : site.node.rosters[id]? = some roster) :
      Event licence site 0
        { site with node := { site.node with
            rosters := site.node.rosters.insert id roster.backUp } }
  /-- A live roster is changed or rolled back, and that is counted.  Somebody has all the rights
  that the change hands out. -/
  | rosterChanged {id : UInt64} {before roster : Roster}
      (live : site.node.rosters[id]? = some before) (own : roster.policyId = id)
      (consistent : roster.Consistent)
      (edit : roster = before.rollBack ∨ ∃ change, roster = before.change change ∧
        ∃ grantor held, site.node.Holds ⟨id, grantor⟩ held ∧ change.rights ⊆ held) :
      Event licence site 0
        { site with node := { site.node with
            rosters := site.node.rosters.insert id roster
            changes := site.node.changes + 1 } }
  /-- Another writer stores a group. -/
  | groupSlippedIn {group stored : Group} {groups : GroupTables} (new : group.id = 0)
      (upserted : GroupTables.upsert group site.backend.store.groups = .ok (stored, groups))
      (kind : group.kind?.isSome = true) (root : group.parentId = 0) :
      Event licence site 1
        { site with backend := { site.backend with store := { site.backend.store with groups } } }
  /-- A group is stored and taken in, and that is counted. -/
  | groupStored {group stored : Group} {groups : GroupTables}
      (upserted : GroupTables.upsert group site.backend.store.groups = .ok (stored, groups))
      (placed : site.node.Places group) :
      Event licence site (if group.id = 0 then 1 else 0)
        { node := { site.node with
            groups := site.node.groups.insert stored, changes := site.node.changes + 1 }
          backend := { site.backend with store := { site.backend.store with groups } } }
  /-- A membership is removed from the store only. -/
  | relationDropped (relation : Relation) :
      Event licence site 0
        { site with backend := { site.backend with store := { site.backend.store with
            groups := { site.backend.store.groups with
              relations := site.backend.store.groups.relations.erase relation } } } }
  /-- A group is removed, and that is counted. -/
  | groupDeleted {id : UInt64} {groups : GroupTables}
      (deleted : GroupTables.delete id site.backend.store.groups = .ok ((), groups))
      (childless : site.node.groups.hasChildren id = false) :
      Event licence site 0
        { node := { site.node with
            groups := site.node.groups.remove id, changes := site.node.changes + 1 }
          backend := { site.backend with store := { site.backend.store with groups } } }
  /-- An asset becomes a member of a known group, and that is counted. -/
  | related {groupId : UInt64} {asset : Actor} {group : Group} {groups : GroupTables}
      (indexed : site.node.groups.group? groupId = some group)
      (related : GroupTables.relate groupId asset site.backend.store.groups = .ok ((), groups)) :
      Event licence site 0
        { node := { site.node with
            groups := site.node.groups.link groupId asset
            changes := site.node.changes + 1 }
          backend := { site.backend with store := { site.backend.store with groups } } }
  /-- A membership ends, and that is counted. -/
  | unrelated (groupId : UInt64) (asset : Actor) :
      Event licence site 0
        { node := { site.node with
            groups := site.node.groups.unlink groupId asset
            changes := site.node.changes + 1 }
          backend := { site.backend with store := { site.backend.store with
            groups := { site.backend.store.groups with
              relations := site.backend.store.groups.relations.erase ⟨groupId, asset⟩ } } } }
  /-- All groups and memberships are read anew, and that is counted. -/
  | loaded :
      Event licence site 0
        { site with node := { site.node with
            groups := .build site.backend.store.groups.all site.backend.store.groups.allRelations
            changes := site.node.changes + 1 } }
  /-- A membership that only the store knew is taken in. -/
  | linked {groupId : UInt64} {asset : Actor} {group : Group} (lagging : licence.lags)
      (indexed : site.node.groups.group? groupId = some group) :
      Event licence site 0
        { site with node := { site.node with groups := site.node.groups.link groupId asset } }
  /-- The stored version of a group takes the place of the known one. -/
  | regrouped {id : UInt64} {group : Group}
      (lagging : site.node.groups.group? id ≠ some group → licence.lags)
      (stored : site.backend.store.groups.byId? id = some group) :
      Event licence site 0
        { site with node := { site.node with groups := site.node.groups.insert group } }

/-- Events in sequence, with the count of numbers handed out for all of them. -/
inductive Passes (licence : Licence) : Nat → Site → Site → Prop
  | refl (site : Site) : Passes licence 0 site site
  | step {site middle last : Site} {m n : Nat} (first : site.Event licence m middle)
      (rest : Passes licence n middle last) : Passes licence (m + n) site last

variable {licence : Licence} {site middle after last : Site} {m n : Nat}

theorem Passes.single (h : site.Event licence n after) : Passes licence n site after :=
  .step h (.refl after)

/-- Events follow upon events, and the numbers they take add up. -/
theorem Passes.trans (h : Passes licence m site middle) (h' : Passes licence n middle last) :
    Passes licence (m + n) site last := by
  induction h with
  | refl =>
    rw [Nat.zero_add]
    exact h'
  | step first _ ih =>
    rw [Nat.add_assoc]
    exact .step first (ih h')

theorem Learns.passes (h : site.Learns after) : Passes licence 0 site after := by
  induction h with
  | refl => exact .refl _
  | step first _ ih => exact .step (.learn first) ih

/-! ### Sites stay sound -/

/-- Rules that the tables of groups keep are kept by the store with these groups, and a node
that agreed with the store agrees with it still. -/
theorem Sound.regroup (hsound : site.Sound) {groups : GroupTables}
    (h : groups.Sound ∧ site.backend.store.groups.Later groups) :
    Store.Sound { site.backend.store with groups } ∧
      site.node.Sound { site.backend.store with groups } ∧
        site.backend.store.Later { site.backend.store with groups } :=
  ⟨⟨hsound.store.policies, h.1⟩, hsound.node.of_later (.of_groups h.2), .of_groups h.2⟩

/-- A policy that keeps its designators and its age and is stored anew, with its roster, is taken
in. -/
theorem Sound.restore (hsound : site.Sound) {policy current : Policy} {update : RosterUpdate}
    {policies : PolicyTables} {roster : Roster}
    (indexed : site.node.policies.policy? policy.id = some current)
    (key : policy.key = current.key) (object : policy.object = current.object)
    (created : policy.createdAt = current.createdAt)
    (updated : PolicyTables.update policy update site.backend.store.policies = .ok ((), policies))
    (own : roster.policyId = policy.id) (consistent : roster.Consistent) :
    Store.Sound { site.backend.store with policies } ∧
      Node.Sound { site.node with
        policies := site.node.policies.insert policy
        rosters := site.node.rosters.insert policy.id roster }
        { site.backend.store with policies } ∧
        site.backend.store.Later { site.backend.store with policies } := by
  obtain ⟨hstore, hnode⟩ := hsound
  obtain ⟨hpolicies, hlater⟩ := hstore.policies.update updated
  obtain ⟨-, -, rfl⟩ := PolicyTables.update_eq_ok updated
  have hlater : site.backend.store.policies.Later
      (site.backend.store.policies.put policy update.record) := by
    apply hlater
    intro before hbefore
    obtain ⟨hkey, hobject, -⟩ := hnode.designators indexed hbefore
    exact ⟨key.trans hkey.symm, object.trans hobject.symm,
      created.trans (hnode.age indexed hbefore).symm⟩
  have hstore' : Store.Sound { site.backend.store with
      policies := site.backend.store.policies.put policy update.record } :=
    ⟨hpolicies, hstore.groups⟩
  have hrow : (site.backend.store.policies.put policy update.record).policies[policy.id]? =
      some policy := by
    rw [PolicyTables.policies_put, if_pos rfl]
  -- the stored policy is taken in first, then the roster that was stored with it
  have hnode' := (hnode.of_later (.of_policies hlater)).insertPolicy hstore' hrow
  refine ⟨hstore', ?_, .of_policies hlater⟩
  rw [← own]
  apply hnode'.insertRoster _ consistent
  rw [own]
  exact (hpolicies.policy hrow).2.2

/-- Every event keeps to the rules of a site, as long as numbers do not run out. -/
theorem Event.sound (h : site.Event licence n after) (hsound : site.Sound)
    (hroom : site.backend.store.HasRoom n) :
    after.Sound ∧ site.backend.store.Later after.backend.store := by
  obtain ⟨hstore, hnode⟩ := hsound
  cases h with
  | learn learn => exact ⟨learn.sound ⟨hstore, hnode⟩, learn.still.store ▸ .refl _⟩
  | @policyStored policy record stored policies new created =>
    obtain ⟨stored, storedRecord⟩ := stored
    obtain ⟨hpolicies, hlater⟩ := hstore.policies.create hroom.policies new created
    have hnode' := hnode.of_later (.of_policies hlater)
    exact ⟨⟨⟨hpolicies, hstore.groups⟩, hnode'⟩, .of_policies hlater⟩
  | policyUpdated indexed key object updated live own consistent _ _ _ _ created =>
    obtain ⟨hstore', hnode', hlater⟩ :=
      Sound.restore ⟨hstore, hnode⟩ indexed key object created updated own consistent
    exact ⟨⟨hstore', hnode'.recount _⟩, hlater⟩
  | @policyDeleted id policies deleted =>
    obtain ⟨hpolicies, hlater⟩ := hstore.policies.delete deleted
    obtain ⟨⟨before, hbefore⟩, rfl⟩ := PolicyTables.delete_eq_ok deleted
    refine ⟨⟨⟨hpolicies, hstore.groups⟩, ?_⟩, .of_policies hlater⟩
    refine (hnode.removePolicy hstore hbefore (.of_policies hlater) fun other => ?_).recount _
    exact lookup_erase _ id other
  | @rosterBackedUp id roster live =>
    obtain ⟨rfl, hle, hconsistent⟩ := hnode.roster live
    refine ⟨⟨hstore, ?_⟩, .refl _⟩
    rw [← roster.policyId_backUp] at hle ⊢
    exact hnode.insertRoster hle hconsistent.backUp
  | @rosterChanged id live roster hlive own consistent =>
    obtain ⟨-, hle, -⟩ := hnode.roster hlive
    subst own
    exact ⟨⟨hstore, (hnode.insertRoster hle consistent).recount _⟩, .refl _⟩
  | @groupSlippedIn group stored groups new upserted =>
    obtain ⟨hgroups, hlater⟩ := hstore.groups.upsert (fun _ => hroom.groups) upserted
    obtain ⟨hstore', hnode', hlater⟩ := Sound.regroup ⟨hstore, hnode⟩
      ⟨hgroups, hlater fun before hbefore => absurd new (hstore.groups.group hbefore).2.1⟩
    exact ⟨⟨hstore', hnode'⟩, hlater⟩
  | @groupStored group stored groups upserted placed =>
    have hroom' : group.id = 0 → site.backend.store.groups.lastId.toNat + 1 < UInt64.size :=
      fun hnew => by simpa [hnew] using hroom.groups
    obtain ⟨hgroups, hlater⟩ := hstore.groups.upsert hroom' upserted
    -- a stored group has the kind and the age that the node knows, and keeps them
    have hkept (before : Group) (hbefore : site.backend.store.groups.groups[group.id]? = some before) :
        group.kind? = before.kind? ∧ group.createdAt = before.createdAt := by
      obtain ⟨current, hcurrent, hkind, hage⟩ := placed.own (hstore.groups.group hbefore).2.1
      obtain ⟨hkind', hage'⟩ := hnode.nature hcurrent hbefore
      exact ⟨(hkind'.trans hkind).symm, (hage'.trans hage).symm⟩
    obtain ⟨hstore', hnode', hlater⟩ := Sound.regroup ⟨hstore, hnode⟩ ⟨hgroups, hlater hkept⟩
    have hrow : groups.groups[stored.id]? = some stored := by
      rw [GroupTables.groups_of_upsert upserted, if_pos rfl]
    exact ⟨⟨hstore', (hnode'.insertGroup hstore' hrow).recount _⟩, hlater⟩
  | relationDropped relation =>
    obtain ⟨hstore', hnode', hlater⟩ := Sound.regroup ⟨hstore, hnode⟩
      (hstore.groups.erase relation)
    exact ⟨⟨hstore', hnode'⟩, hlater⟩
  | @groupDeleted id groups deleted =>
    obtain ⟨hstore', hnode', hlater⟩ := Sound.regroup ⟨hstore, hnode⟩
      (hstore.groups.delete deleted)
    refine ⟨⟨hstore', (hnode'.removeGroup ?_).recount _⟩, hlater⟩
    rw [GroupTables.delete_eq_ok deleted]
    exact Std.ExtTreeMap.getElem?_erase_self
  | @related groupId asset group groups indexed related =>
    obtain ⟨hstore', hnode', hlater⟩ := Sound.regroup ⟨hstore, hnode⟩
      (hstore.groups.relate related)
    exact ⟨⟨hstore', (hnode'.link indexed asset).recount _⟩, hlater⟩
  | unrelated groupId asset =>
    obtain ⟨hstore', hnode', hlater⟩ := Sound.regroup ⟨hstore, hnode⟩
      (hstore.groups.erase ⟨groupId, asset⟩)
    exact ⟨⟨hstore', (hnode'.unlink groupId asset).recount _⟩, hlater⟩
  | loaded => exact ⟨⟨hstore, (hnode.build hstore).recount _⟩, .refl _⟩
  | linked lagging indexed => exact ⟨⟨hstore, hnode.link indexed _⟩, .refl _⟩
  | regrouped lagging stored => exact ⟨⟨hstore, hnode.insertGroup hstore stored⟩, .refl _⟩

/-- An event takes no more numbers than it is said to. -/
theorem Event.lastId_le (h : site.Event licence n after) :
    after.backend.store.policies.lastId.toNat ≤ site.backend.store.policies.lastId.toNat + n ∧
      after.backend.store.groups.lastId.toNat ≤ site.backend.store.groups.lastId.toNat + n := by
  -- the next number may come round, and is smaller then
  have hnext (lastId : UInt64) : (lastId + 1).toNat ≤ lastId.toNat + 1 := by
    rw [UInt64.toNat_add]
    exact Nat.mod_le _ _
  cases h with
  | learn learn =>
    rw [learn.still.store]
    exact ⟨Nat.le_refl _, Nat.le_refl _⟩
  | @policyStored policy record stored policies new created =>
    obtain ⟨stored, storedRecord⟩ := stored
    obtain ⟨-, rfl, rfl, rfl⟩ := PolicyTables.create_eq_ok created
    exact ⟨hnext _, Nat.le_succ _⟩
  | policyUpdated _ _ _ updated =>
    obtain ⟨-, -, rfl⟩ := PolicyTables.update_eq_ok updated
    exact ⟨Nat.le_refl _, Nat.le_refl _⟩
  | policyDeleted deleted =>
    obtain ⟨-, rfl⟩ := PolicyTables.delete_eq_ok deleted
    exact ⟨Nat.le_refl _, Nat.le_refl _⟩
  | groupSlippedIn new upserted =>
    obtain ⟨-, -, rfl⟩ | ⟨hold, -⟩ := GroupTables.upsert_eq_ok upserted
    · exact ⟨Nat.le_succ _, hnext _⟩
    · exact absurd new hold
  | groupStored upserted =>
    obtain ⟨hnew, -, rfl⟩ | ⟨hold, -, -, rfl⟩ := GroupTables.upsert_eq_ok upserted
    · rw [if_pos hnew]
      exact ⟨Nat.le_succ _, hnext _⟩
    · rw [if_neg hold]
      exact ⟨Nat.le_refl _, Nat.le_refl _⟩
  | groupDeleted deleted =>
    obtain rfl := GroupTables.delete_eq_ok deleted
    exact ⟨Nat.le_refl _, Nat.le_refl _⟩
  | related _ related =>
    obtain ⟨-, rfl⟩ := GroupTables.relate_eq_ok related
    exact ⟨Nat.le_refl _, Nat.le_refl _⟩
  | relationDropped | unrelated | rosterBackedUp | rosterChanged | loaded | linked | regrouped =>
    exact ⟨Nat.le_refl _, Nat.le_refl _⟩

/-- An event takes no more numbers than it says. -/
theorem Event.hasRoom (h : site.Event licence n after) {count : Nat}
    (hroom : site.backend.store.HasRoom (n + count)) : after.backend.store.HasRoom count := by
  obtain ⟨hpolicies, hgroups⟩ := hroom
  obtain ⟨hpolicies', hgroups'⟩ := h.lastId_le
  exact ⟨by omega, by omega⟩

/-- So a site stays sound through any number of events. -/
theorem Passes.sound (h : Passes licence n site after) (hsound : site.Sound)
    (hroom : site.backend.store.HasRoom n) :
    after.Sound ∧ site.backend.store.Later after.backend.store := by
  induction h with
  | refl => exact ⟨hsound, .refl _⟩
  | step first _ ih =>
    obtain ⟨hmiddle, hlater⟩ := first.sound hsound (hroom.mono (Nat.le_add_right _ _))
    obtain ⟨hlast, hlater'⟩ := ih hmiddle (first.hasRoom hroom)
    exact ⟨hlast, hlater.trans hlater'⟩

/-- Nor do several events take more numbers than they say. -/
theorem Passes.hasRoom (h : Passes licence n site after) {count : Nat}
    (hroom : site.backend.store.HasRoom (n + count)) : after.backend.store.HasRoom count := by
  induction h with
  | refl => rwa [Nat.zero_add] at hroom
  | step first _ ih =>
    rw [Nat.add_assoc] at hroom
    exact ih (first.hasRoom hroom)

/-- No event plans a fault. -/
theorem Event.calm (h : site.Event licence n after) (hcalm : site.backend.faults = []) :
    after.backend.faults = [] := by
  cases h with
  | learn learn => exact learn.still.calm hcalm
  | policyStored | policyUpdated | policyDeleted | rosterBackedUp | rosterChanged
  | groupSlippedIn | groupStored | relationDropped | groupDeleted | related | unrelated | loaded
  | linked | regrouped => exact hcalm

theorem Passes.calm (h : Passes licence n site after) (hcalm : site.backend.faults = []) :
    after.backend.faults = [] := by
  induction h with
  | refl => exact hcalm
  | step first _ ih => exact ih (first.calm hcalm)

/-- Changes are counted up, never down. -/
theorem Event.changes_le (h : site.Event licence n after) :
    site.node.changes ≤ after.node.changes := by
  cases h with
  | learn learn => exact Nat.le_of_eq learn.still.changes.symm
  | policyStored | rosterBackedUp | groupSlippedIn | relationDropped | linked | regrouped =>
    exact Nat.le_refl _
  | policyUpdated | policyDeleted | rosterChanged | groupStored | groupDeleted | related
  | unrelated | loaded =>
    exact Nat.le_succ _

/-- Changes are counted upwards. -/
theorem Passes.changes_le (h : Passes licence n site after) :
    site.node.changes ≤ after.node.changes := by
  induction h with
  | refl => exact Nat.le_refl _
  | step first _ ih => exact Nat.le_trans first.changes_le ih

/-! ### Nodes that keep up -/

/-- Nobody but the node has written to the store: every group it knows is stored as it knows
it, and it knows all memberships in stored groups. -/
structure InStep (site : Site) : Prop where
  group {id : UInt64} {group : Group} : site.node.groups.group? id = some group →
    site.backend.store.groups.groups[id]? = some group
  relation {id : UInt64} {group : Group} {asset : Actor} :
    site.backend.store.groups.groups[id]? = some group →
    (⟨id, asset⟩ : Relation) ∈ site.backend.store.groups.relations →
    asset ∈ site.node.groups.membersOf id

/-- Who learns from the store does not fall out of step with it. -/
theorem Learn.inStep (h : site.Learn after) (hsound : site.Sound) (hstep : site.InStep) :
    after.InStep := by
  cases h with
  | fault | policy | roster | answers | cache => exact ⟨hstep.group, hstep.relation⟩
  | @group stored group unknown hstored =>
    refine ⟨fun {id other} hother => ?_, hstep.relation⟩
    rw [GroupIndex.group?_insert, hsound.keyed.group hstored] at hother
    split at hother
    · rename_i heq
      rw [← hother, ← heq]
      exact hstored
    · exact hstep.group hother

/-- A group that is stored takes its place among the others and has the members that its
number had: none if the number is new. -/
theorem relation_of_upsert (hsound : site.Sound) {group stored : Group} {groups : GroupTables}
    (upserted : GroupTables.upsert group site.backend.store.groups = .ok (stored, groups))
    (hroom : group.id = 0 → site.backend.store.groups.lastId.toNat + 1 < UInt64.size)
    (hstep : site.InStep) {id : UInt64} {other : Group} {asset : Actor}
    (hother : groups.groups[id]? = some other)
    (hrelation : (⟨id, asset⟩ : Relation) ∈ groups.relations) :
    asset ∈ site.node.groups.membersOf id := by
  rw [GroupTables.relations_of_upsert upserted] at hrelation
  obtain ⟨before, hbefore⟩ | hnew :=
    hsound.store.groups.old_or_new_of_upsert hroom upserted hother
  · exact hstep.relation hbefore hrelation
  · exact absurd (hsound.store.groups.relation hrelation) (UInt64.not_le.2 hnew)

/-- Whatever happens at a node that keeps up, it still does afterwards: both sides change
alike, and a group that only the store gets has no members. -/
theorem Event.inStep (h : site.Event licence n after) (hsound : site.Sound)
    (hroom : site.backend.store.HasRoom n) (hstep : site.InStep) : after.InStep := by
  cases h with
  | learn learn => exact learn.inStep hsound hstep
  | policyStored | policyUpdated | policyDeleted | rosterBackedUp | rosterChanged =>
    exact ⟨hstep.group, hstep.relation⟩
  | @groupSlippedIn group stored groups new upserted =>
    -- only the store gets a group, and no known group is overwritten
    refine ⟨fun {id other} hother => ?_,
      relation_of_upsert hsound upserted (fun _ => hroom.groups) hstep⟩
    exact hsound.store.groups.upsert_keeps hroom.groups new upserted (hstep.group hother)
  | @groupStored group stored groups upserted =>
    have hroom' : group.id = 0 → site.backend.store.groups.lastId.toNat + 1 < UInt64.size :=
      fun hnew => by simpa [hnew] using hroom.groups
    -- both sides get the same group under the same number
    refine ⟨fun {id other} hother => ?_, relation_of_upsert hsound upserted hroom' hstep⟩
    rw [GroupIndex.group?_insert] at hother
    show groups.groups[id]? = some other
    rw [GroupTables.groups_of_upsert upserted]
    split at hother
    · rename_i heq
      rw [if_pos heq, hother]
    · rename_i hne
      rw [if_neg hne, hstep.group hother]
  | relationDropped relation =>
    exact ⟨hstep.group, fun hgroup hrelation =>
      hstep.relation hgroup (Std.ExtTreeSet.mem_of_mem_erase hrelation)⟩
  | @groupDeleted id groups deleted =>
    obtain rfl := GroupTables.delete_eq_ok deleted
    -- the store keeps the memberships of the group, but they count for nothing without it
    constructor
    · intro other group hother
      rw [GroupIndex.group?_remove] at hother
      show (site.backend.store.groups.groups.erase id)[other]? = some group
      split at hother
      · cases hother
      · rename_i hne
        rw [lookup_erase, if_neg hne, hstep.group hother]
    · intro other group asset hother hrelation
      have hother : (site.backend.store.groups.groups.erase id)[other]? = some group := hother
      rw [lookup_erase] at hother
      split at hother
      · cases hother
      · rename_i hne
        exact GroupIndex.mem_membersOf_remove.2
          ⟨hstep.relation hother hrelation, fun h => hne h.1⟩
  | @related groupId asset group groups indexed related =>
    obtain ⟨-, rfl⟩ := GroupTables.relate_eq_ok related
    -- a stored membership is the new one, which is linked, or an old one
    refine ⟨hstep.group, fun {id other member} hother hrelation => ?_⟩
    apply GroupIndex.mem_membersOf_link.2
    obtain heq | hold := mem_insert_iff.1 hrelation
    · cases heq
      exact .inl ⟨rfl, rfl⟩
    · exact .inr (hstep.relation hother hold)
  | unrelated groupId asset =>
    refine ⟨hstep.group, fun {id other member} hother hrelation => ?_⟩
    obtain ⟨hne, hold⟩ := mem_erase_iff.1 hrelation
    refine GroupIndex.mem_membersOf_unlink.2 ⟨hstep.relation hother hold, ?_⟩
    rintro ⟨rfl, rfl⟩
    exact hne rfl
  | loaded =>
    constructor
    · intro id group hgroup
      rw [← hgroup]
      exact (Node.group?_build_store hsound.store id).symm
    · intro id group asset _ hrelation
      exact GroupIndex.mem_membersOf_build.2 (Std.ExtTreeSet.mem_toList.2 hrelation)
  | linked lagging indexed =>
    exact ⟨hstep.group, fun hother hrelation =>
      GroupIndex.mem_membersOf_link.2 (.inr (hstep.relation hother hrelation))⟩
  | @regrouped stored group lagging hstored =>
    refine ⟨fun {id other} hother => ?_, hstep.relation⟩
    rw [GroupIndex.group?_insert, hsound.keyed.group hstored] at hother
    split at hother
    · rename_i heq
      rw [← hother, ← heq]
      exact hstored
    · exact hstep.group hother

/-- A node stays in step with its store through any number of events. -/
theorem Passes.inStep (h : Passes licence n site after) (hsound : site.Sound)
    (hroom : site.backend.store.HasRoom n) (hstep : site.InStep) : after.InStep := by
  induction h with
  | refl => exact hstep
  | step first _ ih =>
    have hfirst := hroom.mono (Nat.le_add_right _ _)
    exact ih (first.sound hsound hfirst).1 (first.hasRoom hroom)
      (first.inStep hsound hfirst hstep)

end Site

end AccessRights
