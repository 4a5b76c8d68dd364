/-
AccessRights/Proofs/Ancestry.lean

The ancestors of a stored group, and below which groups it may be hung.

At a reached site the stored groups are a forest, and the node finds them as
they are stored.  So if the store does not fail, the walk from a stored group
comes to a root, past groups of one kind.  And a group is hung below another one
exactly when they are of one kind and the other one is not below it: the check of
the new parent walks along the stored links, and the store itself, which refuses
only keys that are taken, has nothing against a group that keeps its key.

Main results: `ancestry_of_stored`, `checkGroupParent_eq_ok_iff`,
`moveGroup_eq_ok_iff` and `Reached.arranged`.
-/
import AccessRights.Proofs.GroupForest
import AccessRights.Proofs.Serving
import AccessRights.Proofs.Upkeep

namespace AccessRights

namespace GroupTables

variable {tables : GroupTables} {id : UInt64} {group : Group}

/-! ### Lines of stored groups -/

/-- The parent links of a stored group lead to a root. -/
theorem Forest.exists_line (h : tables.Forest) (hsound : tables.Sound)
    (hstored : tables.byId? id = some group) : ∃ line, tables.links.Line id line := by
  refine h.ends.exists_line (fun {other next} hlink hnonzero => ?_) (hsound.group hstored).2.1
    (links_of_stored hstored)
  obtain ⟨child, hchild, rfl⟩ := Option.map_eq_some_iff.1 hlink
  obtain ⟨parent, hparent, -⟩ := h.parent hchild hnonzero
  exact ⟨_, links_of_stored hparent⟩

/-- The store takes a version of a stored group that keeps the key. -/
theorem Forest.upsert_of_stored (h : tables.Forest) (hsound : tables.Sound) {current : Group}
    (hstored : tables.byId? group.id = some current) (hkey : group.key = current.key) :
    GroupTables.upsert group tables =
      .ok (group, { tables with groups := tables.groups.insert group.id group }) := by
  have hfree : tables.keyTaken group = false := by
    refine List.any_eq_false.2 fun other hother => ?_
    obtain ⟨otherId, hother⟩ := Table.mem_rows.1 hother
    rw [Bool.and_eq_true, bne_iff_ne, beq_iff_eq]
    rintro ⟨hne, hsame⟩
    have heq := h.key hother hstored (hsame.trans hkey)
    exact hne ((hsound.group hother).1.trans heq)
  unfold GroupTables.upsert
  rw [hfree, if_neg Bool.false_ne_true, if_neg (hsound.group hstored).2.1, hstored]

end GroupTables

namespace Site

open Call

variable {rules : Rules} {site : Site} {id childId parentId : UInt64} {group parent : Group}

/-! ### Finding stored groups -/

/-- Where the store does not fail, a node in step finds every stored group. -/
theorem perform_groupById_of_stored (hsound : site.Sound) (hstep : site.InStep)
    (hcalm : site.backend.faults = []) (hstored : site.backend.store.groups.byId? id = some group) :
    ∃ after, site.Learns after ∧ (groupById id).perform site = (.ok group, after) := by
  have hview := (hstep.view_group? hsound id).trans hstored
  obtain ⟨found, hfound⟩ := succeeds_groupById hcalm hview
  obtain ⟨error, after, -, hrun⟩ | ⟨other, after, hlearns, ⟨hrecalled, -⟩, hrun⟩ :=
    (reads_groupById hsound.keyed id).cases
  · rw [hrun] at hfound
    cases hfound
  · have hother := (hlearns.view_of_recalled hsound.keyed).group hrecalled
    cases hother.symm.trans hview
    exact ⟨after, hlearns, hrun⟩

/-- Where the store does not fail, the walk to the root goes through if the groups on it are
found. -/
theorem perform_ancestry_of_lineage (hkeyed : site.Keyed) (hcalm : site.backend.faults = [])
    {groups : List Group} (hlineage : site.view.Lineage id groups) :
    ∃ after, site.Learns after ∧ (ancestry id).perform site = (.ok groups, after) := by
  obtain ⟨found, hfound⟩ :=
    succeeds_ancestryFrom hlineage rfl hkeyed hcalm (View.past_empty _ groups)
  obtain ⟨error, after, -, hrun⟩ | ⟨others, after, hlearns, ⟨hrecalled, -⟩, hrun⟩ :=
    (reads_ancestry hkeyed id).cases
  · rw [ancestry] at hrun
    rw [hrun] at hfound
    cases hfound
  · have hothers := hrecalled.mono (hlearns.view_of_recalled hkeyed)
    cases hothers.unique hlineage
    exact ⟨after, hlearns, hrun⟩

/-- The groups on a line of stored links are found. -/
theorem InStep.exists_lineage (h : site.InStep) (hsound : site.Sound) {line : List UInt64}
    (hline : site.backend.store.groups.links.Line id line) :
    ∃ groups, site.view.Lineage id groups := by
  induction hline with
  | root => exact ⟨_, .root⟩
  | @step id next line nonzero link above ih =>
    obtain ⟨groups, hlineage⟩ := ih
    obtain ⟨group, hgroup, rfl⟩ := Option.map_eq_some_iff.1 link
    exact ⟨_, .child nonzero ((h.view_group? hsound id).trans hgroup) hlineage⟩

/-- A group and all groups above it are stored, and they are of one kind. -/
theorem Forested.kind_of_lineage (h : site.Forested) (hsound : site.Sound) (hstep : site.InStep)
    (hstored : site.backend.store.groups.byId? id = some group) {groups : List Group}
    (hlineage : site.view.Lineage id groups) (ancestor : Group) (hmem : ancestor ∈ groups) :
    site.backend.store.groups.byId? ancestor.id = some ancestor ∧ ancestor.kind? = group.kind? := by
  induction hlineage generalizing group with
  | root => cases hmem
  | @child id found ancestors nonzero hfound above ih =>
    rw [hstep.view_group? hsound, hstored] at hfound
    cases hfound
    obtain rfl | hmem := List.mem_cons.1 hmem
    · rw [(hsound.store.groups.group hstored).1]
      exact ⟨hstored, rfl⟩
    · by_cases hroot : found.parentId = 0
      · -- nothing is above a root
        rw [hroot] at above
        cases above.unique .root
        cases hmem
      · obtain ⟨parent, hparent, hkind⟩ := h.tables.parent hstored hroot
        rw [← hkind]
        exact ih hparent hmem

/-- Where the store does not fail, the walk to the root goes through for every stored group, along
the stored links. -/
theorem Forested.ancestry_of_stored (h : site.Forested) (hsound : site.Sound) (hstep : site.InStep)
    (hcalm : site.backend.faults = []) (hstored : site.backend.store.groups.byId? id = some group) :
    ∃ groups after, site.Learns after ∧ (ancestry id).perform site = (.ok groups, after) ∧
      site.backend.store.groups.links.Line id (groups.map Group.id) ∧
        ∀ ancestor ∈ groups, site.backend.store.groups.byId? ancestor.id = some ancestor ∧
          ancestor.kind? = group.kind? := by
  obtain ⟨line, hline⟩ := h.tables.exists_line hsound.store.groups hstored
  obtain ⟨groups, hlineage⟩ := hstep.exists_lineage hsound hline
  obtain ⟨after, hlearns, hrun⟩ := perform_ancestry_of_lineage hsound.keyed hcalm hlineage
  exact ⟨groups, after, hlearns, hrun, hstep.line_of_lineage hsound hlineage,
    h.kind_of_lineage hsound hstep hstored hlineage⟩

/-! ### Hanging a group below another -/

theorem Learns.forested {after : Site} (h : site.Learns after) (hkeyed : site.Keyed)
    (hforest : site.Forested) : after.Forested := by
  induction h with
  | refl => exact hforest
  | step first _ ih => exact ih (first.keyed hkeyed) (first.forested hkeyed hforest)

/-- A stored group may hang below a stored parent exactly when that is of the kind and no chain
leads back from it. -/
theorem Forested.checkGroupParent_eq_ok_iff (h : site.Forested) (hsound : site.Sound)
    (hstep : site.InStep) (hcalm : site.backend.faults = [])
    (hparent : site.backend.store.groups.byId? parentId = some parent) (hchild : childId ≠ 0)
    (kind : GroupKind) : ((checkGroupParent childId kind parentId).perform site).1 = .ok () ↔
      parent.kind? = some kind ∧ ¬ site.backend.store.groups.links.Chain parentId childId := by
  unfold checkGroupParent
  split
  · rename_i hself
    refine iff_of_false ?_ fun hclear => hclear.2 ?_
    · rintro ⟨⟩
    · rw [hself.2]
      exact .refl
  dsimp only
  obtain ⟨first, hlearns, hrun⟩ := perform_groupById_of_stored hsound hstep hcalm hparent
  have hstore := hlearns.still.store
  rw [fst_perform_bind hrun]
  split
  · rename_i hkind
    refine iff_of_false ?_ fun hclear => hkind hclear.1
    rintro ⟨⟩
  rename_i hkind
  have hfirst := hlearns.sound hsound
  rw [← hstore] at hparent ⊢
  obtain ⟨groups, last, -, hrun, hline, -⟩ :=
    (hlearns.forested hsound.keyed h).ancestry_of_stored hfirst (hlearns.inStep hsound hstep)
      (hlearns.still.calm hcalm) hparent
  rw [fst_perform_bind hrun, and_iff_right (Classical.not_not.1 hkind)]
  -- the child is among the ancestors exactly when a chain leads to it
  have hmem : (groups.any fun ancestor => ancestor.id == childId) = true ↔
      first.backend.store.groups.links.Chain parentId childId := by
    refine Iff.trans ?_ <| (hline.mem_iff hfirst.store.groups.links_zero).trans <|
      and_iff_right hchild
    rw [List.any_eq_true, List.mem_map]
    simp only [beq_iff_eq]
  split
  · rename_i habove
    refine iff_of_false ?_ (not_not_intro (hmem.1 habove.2))
    rintro ⟨⟩
  · rename_i habove
    exact iff_of_true rfl fun hchain => habove ⟨hchild, hmem.2 hchain⟩

/-- Where the store does not fail, it takes a version of a stored group that keeps the key. -/
theorem Forested.perform_storeGroup (h : site.Forested) (hsound : site.Sound)
    (hcalm : site.backend.faults = []) {current : Group}
    (hstored : site.backend.store.groups.byId? group.id = some current)
    (hkey : group.key = current.key) (wrap : StoreError → AccessError) :
    ((storeGroup wrap group).perform site).1 = .ok group := by
  have halone : site.backend.faults.Alone := by
    rw [hcalm]
    exact fun _ hmem => by cases hmem
  have hfault (error : StoreError) :
      (FaultPlan.next .upsertGroup site.backend.faults).1 ≠ .failure error := by
    rw [hcalm, FaultPlan.next_nil]
    rintro ⟨⟩
  have hrun := ask_performs_spared (Backend.performs_upsertGroup group halone) wrap hfault
    (h.tables.upsert_of_stored hsound.store.groups hstored hkey)
  unfold storeGroup
  rw [fst_perform_bind hrun]
  rfl

/-- Where the store does not fail, a stored group is hung below another one exactly when they are
of one kind and no chain leads back from it. -/
theorem Forested.moveGroup_eq_ok_iff (h : site.Forested) (hsound : site.Sound)
    (hstep : site.InStep) (hcalm : site.backend.faults = [])
    (hstored : site.backend.store.groups.byId? id = some group)
    (hparent : site.backend.store.groups.byId? parentId = some parent) (now : Timestamp)
    {moved : Group} : ((moveGroup now id parentId).perform site).1 = .ok moved ↔
      moved = { group with parentId, updatedAt := now } ∧ parent.kind? = group.kind? ∧
        ¬ site.backend.store.groups.links.Chain parentId id := by
  obtain ⟨hid, hnonzero, -⟩ := hsound.store.groups.group hstored
  obtain ⟨-, hroot, -⟩ := hsound.store.groups.group hparent
  obtain ⟨kind, hkind⟩ := Option.isSome_iff_exists.1 (h.tables.kind hstored)
  obtain ⟨first, hlearns, hrun⟩ := perform_groupById_of_stored hsound hstep hcalm hstored
  have hfirst := hlearns.sound hsound
  have hforest := hlearns.forested hsound.keyed h
  have hcalm' := hlearns.still.calm hcalm
  rw [← hlearns.still.store] at hstored hparent ⊢
  have hcheck := hforest.checkGroupParent_eq_ok_iff hfirst (hlearns.inStep hsound hstep) hcalm'
    hparent hnonzero kind
  rw [hkind, ← hcheck]
  unfold moveGroup
  rw [fst_perform_bind hrun, hkind]
  dsimp only
  rw [if_pos hroot]
  obtain ⟨error, last, -, hrun⟩ | ⟨_, last, hlearns', -, hrun⟩ :=
    (reads_checkGroupParent hfirst.keyed id kind parentId).cases
  · rw [perform_bind, hrun]
    refine iff_of_false ?_ fun hmoved => ?_
    · rintro ⟨⟩
    · cases hmoved.2
  · -- the group keeps its key, so the store takes it
    have hstored : last.backend.store.groups.byId? group.id = some group := by
      rw [hlearns'.still.store, hid, hstored]
    have hlast := hlearns'.forested hfirst.keyed hforest
    have hmoved := @Forested.perform_storeGroup last { group with parentId, updatedAt := now } hlast
      (hlearns'.sound hfirst) (hlearns'.still.calm hcalm') group hstored rfl
    rw [fst_perform_bind hrun, hmoved, hrun]
    constructor
    · rintro ⟨⟩
      exact ⟨rfl, rfl⟩
    · rintro ⟨rfl, -⟩
      rfl

/-! ### Reached sites -/

/-- The stored groups are a forest of groups and roles.  If the store does not fail, the node finds
the ancestors of each of them, and hangs one below another exactly when that leaves a forest. -/
structure Arranged (site : Site) : Prop where
  parent {id : UInt64} {group : Group} : site.backend.store.groups.byId? id = some group →
    group.parentId ≠ 0 → ∃ parent, site.backend.store.groups.byId? group.parentId = some parent
  ancestry {id : UInt64} {group : Group}
    (stored : site.backend.store.groups.byId? id = some group) :
    ∃ kind groups, (Site.ancestry id).gives site = .ok groups ∧
      site.backend.store.groups.links.Line id (groups.map Group.id) ∧
        (groups.map Group.id).Nodup ∧ ∀ ancestor ∈ groups,
          site.backend.store.groups.byId? ancestor.id = some ancestor ∧ ancestor.kind? = some kind
  move {groupId parentId : UInt64} {group parent moved : Group}
    (stored : site.backend.store.groups.byId? groupId = some group)
    (above : site.backend.store.groups.byId? parentId = some parent) (now : Timestamp) :
    (moveGroup now groupId parentId).gives site = .ok moved ↔
      moved = { group with parentId, updatedAt := now } ∧ parent.kind? = group.kind? ∧
        ¬ site.backend.store.groups.links.Chain parentId groupId

/-- Whatever was asked of a node that has its store to itself, in whatever order, and whatever the
store failed to do meanwhile. -/
theorem Reached.arranged (h : site.Reached rules) : site.Arranged := by
  have hgroups := h.sound.store.groups
  have hforest := h.forested.tables
  have hsound := h.sound.unfailing
  have hstep : site.unfailing.InStep := ⟨h.inStep.group, h.inStep.relation⟩
  have hforested : site.unfailing.Forested := ⟨hforest, h.forested.known⟩
  refine ⟨fun hstored hnonzero => ?_, fun {id group} hstored => ?_, fun hstored habove now => ?_⟩
  · obtain ⟨parent, hparent, -⟩ := hforest.parent hstored hnonzero
    exact ⟨parent, hparent⟩
  · obtain ⟨kind, hkind⟩ := Option.isSome_iff_exists.1 (hforest.kind hstored)
    obtain ⟨groups, after, -, hrun, hline, habove⟩ :=
      hforested.ancestry_of_stored hsound hstep rfl hstored
    refine ⟨kind, groups, congrArg Prod.fst hrun, hline,
      hline.nodup hforest.ends hgroups.links_zero, fun ancestor hmem => ?_⟩
    rw [← hkind]
    exact habove ancestor hmem
  · exact hforested.moveGroup_eq_ok_iff hsound hstep rfl hstored habove now

/-- Three groups, each below the one before, the last two of which changed places, and a role.  The
store failed once. -/
def grafted : Site :=
  (live ⟨.blank {}, { faults :=
      FaultPlan.schedule .upsertGroup (.failure (.backend "disk full")) 1 [] }⟩ [
    (default, .createGroup .group 0 "staff" "Staff"),
    (default, .createGroup .group 0 "staff" "Staff"),
    (default, .createGroup .group 1 "sales" "Sales"),
    (default, .createGroup .group 2 "export" "Export"),
    (default, .createGroup .role 0 "clerk" "Clerk"),
    (default, .deleteGroup 2),
    (default, .moveGroup 3 1),
    (default, .moveGroup 2 3)]).2

theorem reached_grafted : grafted.Reached .all :=
  (Reached.scheduled (.blank {}) .upsertGroup trivial 1).live (fun _ _ _ => trivial)
    ⟨by decide +kernel, by decide +kernel⟩

/-- The first group is above the others and cannot be hung below them, and a role cannot be hung
below a group at all. -/
theorem arranged_grafted : grafted.Arranged ∧
    ((Site.ancestry 2).gives grafted).map (List.map Group.id) = .ok [2, 3, 1] ∧
      (moveGroup default 1 2).gives grafted = .error (.circularGroup 1) ∧
        (moveGroup default 4 1).gives grafted =
          .error (.groupKindMismatch "parent 1 is not of kind Role") :=
  ⟨reached_grafted.arranged, by decide +kernel, by decide +kernel, by decide +kernel⟩

end Site

end AccessRights
