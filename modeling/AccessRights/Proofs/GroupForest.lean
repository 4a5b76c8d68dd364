/-
AccessRights/Proofs/GroupForest.lean

The forest of the stored groups.

Every group has a kind, and below a group there are only groups of its kind.  A
parent is stored as long as something hangs below it: a group is created below
or moved below one that the node has found, and only a group without children is
removed.  That the chains of parents end is shown as for policies, except that
here they always end at a root.

Whether a group has children is asked of the store, whose answer may be bent,
and of the index.  The index is enough: a node that has its store to itself
knows every group that hangs below another one.  It does not know all roots,
since a rival may have stored one.

Main results: `GroupTables.Forest.upsert`, `Event.forested` and
`Reached.forested`.
-/
import AccessRights.Proofs.Reached

namespace AccessRights

namespace GroupTables

variable {tables tables' : GroupTables}

/-! ### Stored links -/

/-- The parent links of the stored groups. -/
def links (tables : GroupTables) : Links := fun id =>
  (tables.byId? id).map Group.parentId

theorem links_of_stored {id : UInt64} {group : Group} (h : tables.byId? id = some group) :
    tables.links id = some group.parentId := by
  rw [links, h, Option.map_some]

/-- Nothing is stored under the number zero. -/
theorem Sound.links_zero (h : tables.Sound) : tables.links 0 = none := by
  refine Option.eq_none_iff_forall_ne_some.2 fun parentId hlink => ?_
  obtain ⟨group, hgroup, -⟩ := Option.map_eq_some_iff.1 hlink
  exact (h.group hgroup).2.1 rfl

/-- Every group has a kind and a key of its own, and every parent is stored and of the same kind.
Parent links never run in a circle. -/
structure Forest (tables : GroupTables) : Prop where
  kind {id : UInt64} {group : Group} : tables.byId? id = some group → group.kind?.isSome = true
  key {id other : UInt64} {group rival : Group} : tables.byId? id = some group →
    tables.byId? other = some rival → group.key = rival.key → id = other
  parent {id : UInt64} {group : Group} : tables.byId? id = some group → group.parentId ≠ 0 →
    ∃ parent, tables.byId? group.parentId = some parent ∧ parent.kind? = group.kind?
  ends : tables.links.Ends

theorem forest_empty : Forest {} := by
  have hnone (id : UInt64) : byId? {} id = none := by simp [byId?]
  constructor
  · exact fun hgroup => by cases (hnone _).symm.trans hgroup
  · exact fun hgroup => by cases (hnone _).symm.trans hgroup
  · exact fun hgroup => by cases (hnone _).symm.trans hgroup
  refine ⟨fun id => ⟨_, fun next hlink => ?_⟩⟩
  obtain ⟨group, hgroup, -⟩ := Option.map_eq_some_iff.1 hlink
  cases (hnone _).symm.trans hgroup

/-- Memberships do not matter. -/
theorem Forest.relations (h : tables.Forest) (relations : Std.ExtTreeSet Relation) :
    Forest { tables with relations } :=
  ⟨h.kind, h.key, h.parent, h.ends⟩

/-! ### Storing a group -/

/-- The group has a kind, the one it had if it is stored, and its parent is none, the one it had, or
a stored group of the kind that it is not above. -/
structure Admits (tables : GroupTables) (group : Group) : Prop where
  kind : group.kind?.isSome = true
  own : group.id ≠ 0 →
    ∃ current, tables.byId? group.id = some current ∧ current.kind? = group.kind?
  parent : group.parentId = 0 ∨
    (∃ current, tables.byId? group.id = some current ∧ current.parentId = group.parentId) ∨
    (∃ parent, tables.byId? group.parentId = some parent ∧ parent.kind? = group.kind?) ∧
      (group.id ≠ 0 → ¬ tables.links.Chain group.parentId group.id)

/-- The parent of such a group is stored. -/
theorem Forest.parent_of_admits (h : tables.Forest) (hsound : tables.Sound) {group : Group}
    (hadmits : tables.Admits group) (hnonzero : group.parentId ≠ 0) :
    ∃ parent, tables.byId? group.parentId = some parent ∧ parent.kind? = group.kind? := by
  obtain hroot | ⟨current, hcurrent, hkept⟩ | ⟨hparent, -⟩ := hadmits.parent
  · exact absurd hroot hnonzero
  · have hown := hadmits.own fun hnew => (hsound.group hcurrent).2.1 hnew
    obtain ⟨known, hknown, hkind⟩ := hown
    cases hcurrent.symm.trans hknown
    rw [← hkept, ← hkind]
    exact h.parent hcurrent (hkept ▸ hnonzero)
  · exact hparent

/-- No chain leads from the parent of such a group to where the group is stored. -/
theorem Forest.clear_of_admits (h : tables.Forest) (hsound : tables.Sound) {group stored : Group}
    (hroom : group.id = 0 → tables.lastId.toNat + 1 < UInt64.size)
    (hadmits : tables.Admits group) (hupsert : upsert group tables = .ok (stored, tables')) :
    ¬ tables.links.Chain group.parentId stored.id := by
  by_cases hroot : group.parentId = 0
  · rw [hroot, Links.chain_iff_of_none hsound.links_zero]
    exact fun heq => (hsound.stored_of_upsert hroom hupsert).2.1 heq.symm
  obtain ⟨parent, hparent, -⟩ := h.parent_of_admits hsound hadmits hroot
  obtain ⟨hnew, rfl, -⟩ | ⟨hold, -, rfl, -⟩ := upsert_eq_ok hupsert
  · -- no link leads to a new number
    have hfresh {id : UInt64} {found : Group} (hfound : tables.byId? id = some found) :
        id ≠ tables.lastId + 1 := by
      rintro rfl
      exact UInt64.not_le.2 (lt_next (hroom hnew)) (hsound.group hfound).2.2
    refine Links.not_chain_of_unlinked (fun other hlink => ?_) (hfresh hparent)
    obtain ⟨child, hchild, hlink⟩ := Option.map_eq_some_iff.1 hlink
    obtain ⟨above, habove, -⟩ := h.parent hchild (hlink ▸ next_ne_zero (hroom hnew))
    exact hfresh (hlink ▸ habove) rfl
  · obtain hzero | ⟨current, hcurrent, hkept⟩ | ⟨-, hclear⟩ := hadmits.parent
    · exact absurd hzero hroot
    · intro hchain
      exact h.ends.not_cyclic stored.id (.head' (hkept ▸ links_of_stored hcurrent) hchain)
    · exact hclear hold

/-- Storing a group where it may hang keeps the forest. -/
theorem Forest.upsert (h : tables.Forest) (hsound : tables.Sound) {group stored : Group}
    (hroom : group.id = 0 → tables.lastId.toNat + 1 < UInt64.size)
    (hadmits : tables.Admits group)
    (hupsert : GroupTables.upsert group tables = .ok (stored, tables')) : tables'.Forest := by
  have hrow (id : UInt64) : tables'.byId? id =
      if stored.id = id then some stored else tables.byId? id := groups_of_upsert hupsert id
  have hsame : stored.kind? = group.kind? ∧ stored.parentId = group.parentId := by
    obtain ⟨-, rfl, -⟩ | ⟨-, -, rfl, -⟩ := upsert_eq_ok hupsert <;> exact ⟨rfl, rfl⟩
  -- whoever was stored where the group is now was of its kind
  have hplace {id : UInt64} {found : Group} (hfound : tables.byId? id = some found)
      (heq : stored.id = id) : found.kind? = stored.kind? := by
    obtain ⟨hnew, rfl, -⟩ | ⟨hold, -, rfl, -⟩ := upsert_eq_ok hupsert
    · subst heq
      exact absurd (hsound.group hfound).2.2 (UInt64.not_le.2 (lt_next (hroom hnew)))
    · subst heq
      obtain ⟨current, hcurrent, hkind⟩ := hadmits.own hold
      cases hfound.symm.trans hcurrent
      exact hkind
  have hfound {id : UInt64} {kind : Option GroupKind}
      (hparent : ∃ parent, tables.byId? id = some parent ∧ parent.kind? = kind) :
      ∃ parent, tables'.byId? id = some parent ∧ parent.kind? = kind := by
    obtain ⟨parent, hparent, hkind⟩ := hparent
    rw [hrow]
    split
    · exact ⟨stored, rfl, (hplace hparent ‹_›).symm.trans hkind⟩
    · exact ⟨parent, hparent, hkind⟩
  -- and nobody else has its key
  have hown {other : UInt64} {rival : Group} (hrival : tables.byId? other = some rival)
      (hkey : rival.key = stored.key) : stored.id = other := by
    have hid := keyFree_of_upsert hupsert hrival hkey
    obtain ⟨hrivalId, hzero, -⟩ := hsound.group hrival
    rw [hrivalId] at hid
    obtain ⟨hnew, -⟩ | ⟨-, -, rfl, -⟩ := upsert_eq_ok hupsert
    · exact absurd (hid.trans hnew) hzero
    · exact hid.symm
  constructor
  · intro id found hgroup
    rw [hrow] at hgroup
    split at hgroup
    · cases hgroup
      rw [hsame.1]
      exact hadmits.kind
    · exact h.kind hgroup
  · intro id other found rival hgroup hrival hkey
    rw [hrow] at hgroup hrival
    split at hgroup <;> split at hrival
    · exact ‹stored.id = id›.symm.trans ‹stored.id = other›
    · cases hgroup
      exact ‹stored.id = id›.symm.trans (hown hrival hkey.symm)
    · cases hrival
      exact (hown hgroup hkey).symm.trans ‹stored.id = other›
    · exact h.key hgroup hrival hkey
  · intro id found hgroup hnonzero
    rw [hrow] at hgroup
    split at hgroup
    · cases hgroup
      rw [hsame.1, hsame.2]
      exact hfound (h.parent_of_admits hsound hadmits (hsame.2 ▸ hnonzero))
    · exact hfound (h.parent hgroup hnonzero)
  · refine h.ends.relink stored.id (fun other hother => ?_) fun next hnext => ?_
    · rw [links, hrow, if_neg hother, links]
    · rw [links, hrow, if_pos rfl, Option.map_some] at hnext
      cases hnext
      rw [hsame.2]
      exact h.clear_of_admits hsound hroom hadmits hupsert

/-- Removing a group that nothing hangs below keeps the forest. -/
theorem Forest.delete (h : tables.Forest) {id : UInt64}
    (hdelete : GroupTables.delete id tables = .ok ((), tables'))
    (hchildless : ∀ {childId : UInt64} {child : Group}, tables.byId? childId = some child →
      child.parentId ≠ 0 → child.parentId ≠ id) : tables'.Forest := by
  obtain rfl := delete_eq_ok hdelete
  have hrow (other : UInt64) : byId? { tables with groups := tables.groups.erase id } other =
      if id = other then none else tables.byId? other := lookup_erase _ id other
  have hkept {other : UInt64} {group : Group}
      (hgroup : byId? { tables with groups := tables.groups.erase id } other = some group) :
      tables.byId? other = some group := by
    rw [hrow] at hgroup
    split at hgroup
    · cases hgroup
    · exact hgroup
  refine ⟨fun hgroup => h.kind (hkept hgroup), fun hgroup hrival => h.key (hkept hgroup)
    (hkept hrival), fun hgroup hnonzero => ?_, ?_⟩
  · -- the parent of a group that is left was not deleted, for it had a child
    obtain ⟨parent, hparent⟩ := h.parent (hkept hgroup) hnonzero
    refine ⟨parent, ?_⟩
    rwa [hrow, if_neg (hchildless (hkept hgroup) hnonzero).symm]
  · refine h.ends.relink id (fun other hother => ?_) fun next hnext => ?_
    · rw [links, hrow, if_neg hother, links]
    · rw [links, hrow, if_pos rfl] at hnext
      cases hnext

end GroupTables

/-! ### What has to be known of groups -/

/-- A group that nothing in the index hangs below. -/
theorem GroupIndex.parentId_of_hasChildren {index : GroupIndex} {id childId : UInt64}
    {child : Group} (h : index.hasChildren id = false)
    (hchild : index.group? childId = some child) : child.parentId ≠ id := by
  intro heq
  have hmem : child ∈ index.byId.rows := Table.mem_rows.2 ⟨childId, hchild⟩
  have hparent := List.any_eq_false.1 h child hmem
  exact hparent (beq_iff_eq.2 heq)

namespace Site

variable {rules : Rules} {licence : Licence} {n : Nat} {site after : Site}

/-- The stored groups are a forest, and the node knows every group that hangs below another. -/
structure Forested (site : Site) : Prop where
  tables : site.backend.store.groups.Forest
  known {id : UInt64} {group : Group} : site.backend.store.groups.byId? id = some group →
    group.parentId ≠ 0 → site.node.groups.group? id = some group

/-- A node in step finds the groups that are stored. -/
theorem InStep.view_group? (h : site.InStep) (hsound : site.Sound) (id : UInt64) :
    site.view.group? id = site.backend.store.groups.byId? id :=
  found_eq_stored (fun _ hstored => (hsound.store.groups.group hstored).2.1) fun _ hknown =>
    h.group hknown

/-- What is found above a group is the line of stored links. -/
theorem InStep.line_of_lineage (h : site.InStep) (hsound : site.Sound) {id : UInt64}
    {groups : List Group} (hlineage : site.view.Lineage id groups) :
    site.backend.store.groups.links.Line id (groups.map Group.id) := by
  induction hlineage with
  | root => exact .root
  | child nonzero found above ih =>
    rw [h.view_group? hsound] at found
    obtain ⟨rfl, -⟩ := hsound.store.groups.group found
    exact .step nonzero (GroupTables.links_of_stored found) ih

/-- What a node in step has checked of a group is so. -/
theorem InStep.admits (h : site.InStep) (hsound : site.Sound) {group : Group}
    (hplaces : site.node.Places group) : site.backend.store.groups.Admits group where
  kind := hplaces.kind
  own hold := by
    obtain ⟨current, hcurrent, hkind, -⟩ := hplaces.own hold
    exact ⟨current, h.group hcurrent, hkind⟩
  parent := by
    obtain hroot | ⟨current, hcurrent, hkept⟩ | ⟨kind, hkind, hparent, hclear⟩ := hplaces.parent
    · exact .inl hroot
    · exact .inr (.inl ⟨current, h.group hcurrent, hkept⟩)
    · obtain ⟨parent, hparent, hsame⟩ := hparent
      obtain ⟨ancestors, hlineage, hclear⟩ := hclear
      have hline := h.line_of_lineage hsound (hlineage.mono hsound.keyed.recalled_le)
      have hstored := h.group (indexed_of_recalled hparent).2
      refine .inr (.inr ⟨⟨parent, hstored, hsame.trans hkind.symm⟩, fun hold hchain => ?_⟩)
      have hmem := (hline.mem_iff hsound.store.groups.links_zero).2 ⟨hold, hchain⟩
      obtain ⟨ancestor, hancestor, heq⟩ := List.mem_map.1 hmem
      exact hclear hold ancestor hancestor heq

/-! ### What happens to a forest -/

/-- A group that is stored as the index is to have it may be taken in. -/
theorem Forested.insert (h : site.Forested) {id : UInt64} {group : Group}
    (hstored : site.backend.store.groups.byId? id = some group) (hid : group.id = id)
    {other : UInt64} {found : Group} (hfound : site.backend.store.groups.byId? other = some found)
    (hnonzero : found.parentId ≠ 0) :
    (site.node.groups.insert group).group? other = some found := by
  rw [GroupIndex.group?_insert]
  split
  · rename_i heq
    rw [← hstored, ← hid, heq, hfound]
  · exact h.known hfound hnonzero

theorem Learn.forested (h : site.Learn after) (hkeyed : site.Keyed) (hforest : site.Forested) :
    after.Forested := by
  cases h with
  | fault | policy | roster | answers | cache => exact ⟨hforest.tables, hforest.known⟩
  | group unknown stored =>
    exact ⟨hforest.tables, fun hfound => hforest.insert stored (hkeyed.group stored) hfound⟩

/-- Every event leaves a forest: where a group hangs was checked, and only a group that nothing
hangs below is removed. -/
theorem Event.forested (h : site.Event licence n after) (hsound : site.Sound)
    (hroom : site.backend.store.HasRoom n) (hstep : site.InStep) (hforest : site.Forested) :
    after.Forested := by
  have hgroups := hsound.store.groups
  cases h with
  | learn learn => exact learn.forested hsound.keyed hforest
  | policyStored | policyUpdated | policyDeleted | rosterBackedUp | rosterChanged | linked =>
    exact ⟨hforest.tables, hforest.known⟩
  | relationDropped | unrelated => exact ⟨hforest.tables.relations _, hforest.known⟩
  | related indexed related =>
    obtain ⟨-, rfl⟩ := GroupTables.relate_eq_ok related
    exact ⟨hforest.tables.relations _, hforest.known⟩
  | @groupSlippedIn group stored groups new upserted kind root =>
    have hadmits : site.backend.store.groups.Admits group :=
      ⟨kind, fun hold => absurd new hold, .inl root⟩
    refine ⟨hforest.tables.upsert hgroups (fun _ => hroom.groups) hadmits upserted,
      fun {id found} hfound hnonzero => ?_⟩
    obtain ⟨-, rfl, -⟩ | ⟨hold, -⟩ := GroupTables.upsert_eq_ok upserted
    · -- the rival's group is a root, so it need not be known
      have hfound := (GroupTables.groups_of_upsert upserted id).symm.trans hfound
      split at hfound
      · cases hfound
        exact absurd root hnonzero
      · exact hforest.known hfound hnonzero
    · exact absurd new hold
  | @groupStored group stored groups upserted placed =>
    have hroom' : group.id = 0 → site.backend.store.groups.lastId.toNat + 1 < UInt64.size :=
      fun hnew => by simpa [hnew] using hroom.groups
    refine ⟨hforest.tables.upsert hgroups hroom' (hstep.admits hsound placed) upserted,
      fun {id found} hfound hnonzero => ?_⟩
    have hfound := (GroupTables.groups_of_upsert upserted id).symm.trans hfound
    rw [GroupIndex.group?_insert]
    split at hfound
    · rwa [if_pos ‹_›]
    · rw [if_neg ‹_›]
      exact hforest.known hfound hnonzero
  | @groupDeleted id groups deleted childless =>
    refine ⟨hforest.tables.delete deleted fun hchild hnonzero => ?_,
      fun {other found} hfound hnonzero => ?_⟩
    · exact GroupIndex.parentId_of_hasChildren childless (hforest.known hchild hnonzero)
    · obtain rfl := GroupTables.delete_eq_ok deleted
      have hfound := (lookup_erase _ id other).symm.trans hfound
      rw [GroupIndex.group?_remove]
      split at hfound
      · cases hfound
      · rw [if_neg ‹_›]
        exact hforest.known hfound hnonzero
  | loaded =>
    refine ⟨hforest.tables, fun {id found} hfound _ => ?_⟩
    exact (Node.group?_build_store hsound.store id).trans hfound
  | regrouped lagging stored =>
    exact ⟨hforest.tables, fun hfound => hforest.insert stored (hgroups.group stored).1 hfound⟩

/-- A node that has just read all groups knows those that hang below others. -/
theorem forested_reloaded (hsound : site.Sound) (hforest : site.backend.store.groups.Forest) :
    site.reloaded.Forested :=
  ⟨hforest, fun {id _} hfound _ => (Node.group?_build_store hsound.store id).trans hfound⟩

/-- The stored groups at a reached site are a forest, whatever was asked of the node and whatever
the store failed to do. -/
theorem Reached.forested (h : site.Reached rules) : site.Forested := by
  -- an event keeps the forest at a node that is in step
  have hevent {licence : Licence} {n : Nat} {site after : Site} (h : site.Event licence n after)
      (hsound : site.Sound) (hroom : site.backend.store.HasRoom n)
      (hsite : site.InStep ∧ site.Forested) : after.InStep ∧ after.Forested :=
    ⟨h.inStep hsound hroom hsite.1, h.forested hsound hroom hsite.1 hsite.2⟩
  induction h with
  | blank config =>
    exact ⟨GroupTables.forest_empty, fun hfound => by simp [GroupTables.byId?] at hfound⟩
  | @reopened site after before config done ih =>
    obtain ⟨last, hlearns, rfl⟩ := reloaded_of_load done
    have hsound : Site.Sound ⟨.blank config, site.backend⟩ :=
      ⟨before.sound.store, Cluster.blank_sound config _⟩
    exact forested_reloaded (hlearns.sound hsound) (hlearns.still.store ▸ ih.tables)
  | scheduled _ _ _ _ ih => exact ⟨ih.tables, ih.known⟩
  | answered before room now request _ ih =>
    obtain ⟨n, hn, -, hpasses⟩ := answer_passes before.sound room now request
    exact (hpasses.keeps before.sound (room.mono hn) hevent ⟨before.inStep, ih⟩).2
  | stepped before policyId step _ ih =>
    refine (rosterStep_keeps before.sound policyId step hevent (fun _ _ hsite => ?_)
      ⟨before.inStep, ih⟩).2
    exact ⟨⟨hsite.1.group, hsite.1.relation⟩, hsite.2.tables, hsite.2.known⟩

end Site

end AccessRights
