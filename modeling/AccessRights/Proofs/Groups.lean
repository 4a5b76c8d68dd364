/-
AccessRights/Proofs/Groups.lean

Calls on the forest of groups and on memberships, as events.

Every such call looks groups up, then asks the store for one change and makes
the same change in the index.  So there are two things to show: that the first
stage of a call only reads (`reads_…`), and that storing a group is an event
(`passes_bind_storeGroup`).  The calls follow.

What a request for membership comes to is spelled out (`RelateEnds`), because it is
the one call that may change the index and count nothing: where the store knew of the
membership already.

Main results: `relate_ends`, and a lemma `…_passes` for each call.
-/
import AccessRights.Proofs.Passing

namespace AccessRights

namespace Site

open Call

variable {licence : Licence} {most count : Nat} {site : Site}

/-! ### Groups -/

/-- Storing a group: a rival may have stored another one before. -/
theorem storeGroup_passes (licence : Licence) (site : Site) (wrap : StoreError → AccessError)
    {group : Group} (hplaced : site.node.Places group) :
    (storeGroup wrap group).Passes licence 2 (if group.id = 0 then 1 else 0) site := by
  obtain ⟨faults, middle, hcalm, hslip, hcases⟩ :=
    ask_cases (Backend.writes_upsertGroup group) wrap site
  obtain ⟨k, hk, hcalm', hmet⟩ := met_passes licence hcalm hslip (by
    rintro ⟨rival, stored, groups, hnew, hroot, hkind, hupsert, rfl⟩
    exact .groupSlippedIn hnew hupsert (hkind ▸ hplaced.kind) hroot)
  unfold storeGroup Call.Passes
  rw [perform_bind]
  -- the rival's group has been counted in `k`; the own one comes on top if it is new
  obtain ⟨error, hrun⟩ | ⟨stored, store, ⟨groups, hupsert, rfl⟩, hrun⟩ := hcases <;> rw [hrun]
  · exact ⟨k, by omega, fun h => by have := hcalm' h; omega, hmet⟩
  · refine ⟨_, ?_, ?_, hmet.trans (.single (.groupStored hupsert hplaced))⟩
    · split <;> omega
    · intro h
      have hnone := hcalm' h
      omega

/-- The site whose index of groups was just read from the store, which was counted. -/
def reloaded (site : Site) : Site :=
  { site with node := { site.node with
      groups := .build site.backend.store.groups.all site.backend.store.groups.allRelations
      changes := site.node.changes + 1 } }

/-- What is read is what the store has. -/
theorem reads_readAll (site : Site) : readAll.Reads site fun found after =>
    found = (after.backend.store.groups.all, after.backend.store.groups.allRelations) := by
  unfold readAll
  apply (reads_ask Backend.looks_allGroups (.store "all groups") site).andThen
  rintro groups first hlearns ⟨hgroups, -⟩
  apply (reads_ask Backend.looks_allRelations (.store "all relations") first).andThen
  rintro relations last hlearns' ⟨hrelations, -⟩
  -- both lists were read from the store that is there now
  refine reads_pure (Prod.ext (hgroups.trans ?_) (hrelations.trans ?_))
  · rw [(hlearns.trans hlearns').still.store]
  · rw [hlearns'.still.store]

/-- Reading everything anew is reading first, and putting what was read in place of the index
last. -/
theorem load_cases (site : Site) :
    (∃ error after, site.Learns after ∧ load.perform site = (.error error, after)) ∨
    ∃ last, site.Learns last ∧ load.perform site = (.ok (), last.reloaded) := by
  rw [load_eq, perform_bind]
  obtain ⟨error, after, hlearns, hrun⟩ | ⟨_, last, hlearns, rfl, hrun⟩ :=
    (reads_readAll site).cases <;> rw [hrun]
  · exact .inl ⟨error, after, hlearns, rfl⟩
  · exact .inr ⟨last, hlearns, rfl⟩

/-- Where everything could be read anew, that has been read last. -/
theorem reloaded_of_load {after : Site} (hdone : load.perform site = (.ok (), after)) :
    ∃ last, site.Learns last ∧ after = last.reloaded := by
  obtain ⟨error, last, -, hrun⟩ | ⟨last, hlearns, hrun⟩ := load_cases site
  · cases hrun.symm.trans hdone
  · cases hrun.symm.trans hdone
    exact ⟨last, hlearns, rfl⟩

theorem load_passes (site : Site) : load.Passes licence most count site := by
  apply passes_of_zero
  obtain ⟨error, after, hlearns, hrun⟩ | ⟨last, hlearns, hrun⟩ := load_cases site <;> rw [hrun]
  · exact hlearns.passes
  · exact hlearns.passes.trans (.single .loaded)

/-- A group that is recalled is indexed. -/
theorem indexed_of_recalled {node : Node} {groupId : UInt64} {group : Group}
    (h : node.recalled.group? groupId = some group) :
    groupId ≠ 0 ∧ node.groups.group? groupId = some group := by
  have h : (if groupId = 0 then none else node.groups.group? groupId) = some group := h
  split at h
  · cases h
  · rename_i hid
    exact ⟨hid, h⟩

/-! ### Memberships -/

/-- A membership in an existing group that only the store knows. -/
structure Unseen (site : Site) (groupId : UInt64) (asset : Actor) : Prop where
  stored : (⟨groupId, asset⟩ : Relation) ∈ site.backend.store.groups.relations
  unknown : asset ∉ site.node.groups.membersOf groupId
  group : ∃ group, site.view.group? groupId = some group

theorem Learns.unseen_iff {after : Site} (h : site.Learns after) (hkeyed : site.Keyed)
    {groupId : UInt64} {asset : Actor} :
    after.Unseen groupId asset ↔ site.Unseen groupId asset := by
  have hmembers : after.node.groups.membersOf groupId = site.node.groups.membersOf groupId := by
    unfold GroupIndex.membersOf
    rw [h.still.members]
  refine ⟨fun hunseen => ⟨?_, ?_, ?_⟩, fun hunseen => ⟨?_, ?_, ?_⟩⟩
  · exact h.still.store ▸ hunseen.stored
  · exact hmembers ▸ hunseen.unknown
  · exact h.view_eq hkeyed ▸ hunseen.group
  · exact h.still.store ▸ hunseen.stored
  · exact hmembers ▸ hunseen.unknown
  · exact h.view_eq hkeyed ▸ hunseen.group

/-- What a request for membership comes to. -/
inductive RelateEnds (site : Site) (groupId : UInt64) (asset : Actor) :
    Except AccessError Unit × Site → Prop
  /-- It is refused. -/
  | refused {error : AccessError} {after : Site} (learns : site.Learns after) :
      RelateEnds site groupId asset (.error error, after)
  /-- It is refused, but only the store knew of the membership, and it is taken in. -/
  | linked {middle : Site} {group : Group} (learns : site.Learns middle)
      (indexed : middle.node.groups.group? groupId = some group)
      (unseen : site.Unseen groupId asset) :
      RelateEnds site groupId asset (.error (.alreadyMember groupId),
        { middle with node := { middle.node with groups := middle.node.groups.link groupId asset } })
  /-- The asset becomes a member, and that is counted. -/
  | related {middle : Site} {group : Group} {groups : GroupTables} (learns : site.Learns middle)
      (indexed : middle.node.groups.group? groupId = some group)
      (new : (⟨groupId, asset⟩ : Relation) ∉ middle.backend.store.groups.relations)
      (related : GroupTables.relate groupId asset middle.backend.store.groups = .ok ((), groups)) :
      RelateEnds site groupId asset (.ok (),
        { node := { middle.node with
            groups := middle.node.groups.link groupId asset
            changes := middle.node.changes + 1 }
          backend := { middle.backend with store := { middle.backend.store with groups } } })

theorem reads_checkAsset (asset : Actor) :
    (checkAsset asset).Reads site fun _ after => after = site := by
  unfold checkAsset
  split
  · exact reads_throw _ _
  · exact reads_pure rfl

/-- A request for membership is checked against the index, and is then left to the store. -/
theorem reads_checkNew (hkeyed : site.Keyed) (groupId : UInt64) (asset : Actor) :
    (checkNew groupId asset).Reads site fun stored after =>
      (∃ group, after.node.groups.group? groupId = some group) ∧
        (stored = true ↔ site.Unseen groupId asset) ∧
          (stored = true ↔ (⟨groupId, asset⟩ : Relation) ∈ after.backend.store.groups.relations) := by
  unfold checkNew
  apply (reads_checkAsset asset).bind hkeyed
  rintro _ first _ _ rfl
  apply (reads_groupById hkeyed groupId).bind hkeyed
  rintro group middle hlearns hkeyed' ⟨hgroup, _⟩
  have hindexed := (indexed_of_recalled hgroup).2
  apply reads_currentNode
  split
  · exact reads_throw_bind _ _
  rename_i hmember
  refine (reads_ask (Backend.looks_hasRelation groupId asset) _ middle).mono ?_
  rintro stored last hlearns' ⟨hstored, hnode⟩
  have hlisted : stored = true ↔
      (⟨groupId, asset⟩ : Relation) ∈ middle.backend.store.groups.relations := by
    rw [hstored]
    exact Std.ExtTreeSet.contains_iff_mem
  refine ⟨⟨group, by rw [hnode, hindexed]⟩, ?_, by rw [hlisted, hlearns'.still.store]⟩
  -- the node does not know the membership, so it is unseen exactly if the store has it
  rw [← hlearns.unseen_iff hkeyed, hlisted]
  refine ⟨fun hstored => ⟨hstored, ?_, group, hkeyed'.recalled_le.group hgroup⟩,
    fun hunseen => hunseen.stored⟩
  exact fun hmem => hmember (Std.ExtTreeSet.contains_iff_mem.2 hmem)

theorem relate_ends (hkeyed : site.Keyed) (groupId : UInt64) (asset : Actor) :
    RelateEnds site groupId asset ((relate groupId asset).perform site) := by
  rw [relate_eq]
  apply (reads_checkNew hkeyed groupId asset).bind_ends _ hkeyed (fun _ _ => .refused)
  rintro stored last hlearns - ⟨⟨group, hindexed⟩, hunseen, hstored⟩
  cases stored with
  | true => exact .linked hlearns hindexed (hunseen.1 rfl)
  | false =>
    obtain ⟨faults, hcalm, hcases⟩ :=
      ask_cases_alone (Backend.writes_createRelation groupId asset)
        (.store (relationContext groupId asset)) last
    have hfault : last.Learns { last with backend := { last.backend with faults } } :=
      .single (.fault faults hcalm)
    unfold enrollUnless enroll
    rw [if_neg Bool.false_ne_true, perform_bind]
    obtain ⟨error, hrun⟩ | ⟨_, store, ⟨groups, hrelate, rfl⟩, hrun⟩ := hcases <;> rw [hrun]
    · exact .refused (hlearns.trans hfault)
    · have hnew (hlisted : (⟨groupId, asset⟩ : Relation) ∈ last.backend.store.groups.relations) :
          False := Bool.false_ne_true (hstored.2 hlisted)
      exact @RelateEnds.related site groupId asset
        { last with backend := { last.backend with faults } } _ _ (hlearns.trans hfault) hindexed
        hnew hrelate

/-- An asset becomes a member.  The event is not counted if only the store knew so
before. -/
theorem relate_passes (hkeyed : site.Keyed) {groupId : UInt64} {asset : Actor}
    (hlag : site.Unseen groupId asset → licence.lags) :
    Site.Passes licence 0 site ((relate groupId asset).perform site).2 := by
  have hends := relate_ends hkeyed groupId asset
  generalize (relate groupId asset).perform site = run at hends ⊢
  cases hends with
  | refused learns => exact learns.passes
  | linked learns indexed unseen =>
    exact learns.passes.trans (.single (.linked (hlag unseen) indexed))
  | related learns indexed _ related =>
    exact learns.passes.trans (.single (.related indexed related))

/-- Of the memberships of an asset, no more are unseen after a request for one. -/
theorem unseen_of_relate (hkeyed : site.Keyed) {groupId other : UInt64} {asset : Actor}
    (h : ((relate groupId asset).perform site).2.Unseen other asset) :
    site.Unseen other asset := by
  have hends := relate_ends hkeyed groupId asset
  generalize (relate groupId asset).perform site = run at hends h
  -- a membership that was known is known still
  have hmembers {index : GroupIndex} (hunknown : asset ∉ (index.link groupId asset).membersOf other) :
      asset ∉ index.membersOf other ∧ groupId ≠ other := by
    rw [GroupIndex.mem_membersOf_link, not_or] at hunknown
    exact ⟨hunknown.2, fun heq => hunknown.1 ⟨heq, rfl⟩⟩
  cases hends with
  | refused learns => exact (learns.unseen_iff hkeyed).1 h
  | linked learns indexed unseen =>
    exact (learns.unseen_iff hkeyed).1 ⟨h.stored, (hmembers h.unknown).1, h.group⟩
  | related learns indexed new related =>
    obtain ⟨-, rfl⟩ := GroupTables.relate_eq_ok related
    refine (learns.unseen_iff hkeyed).1 ⟨?_, (hmembers h.unknown).1, h.group⟩
    obtain heq | hold := mem_insert_iff.1 h.stored
    · cases heq
      exact absurd rfl (hmembers h.unknown).2
    · exact hold

/-- The site after a membership has ended, which was counted. -/
def severed (site : Site) (groupId : UInt64) (asset : Actor) : Site :=
  { node := { site.node with
      groups := site.node.groups.unlink groupId asset
      changes := site.node.changes + 1 }
    backend := { site.backend with store := { site.backend.store with
      groups := { site.backend.store.groups with
        relations := site.backend.store.groups.relations.erase ⟨groupId, asset⟩ } } } }

/-- Whether there is a membership to end is only read. -/
theorem reads_checkMember (site : Site) (groupId : UInt64) (asset : Actor) :
    (checkMember groupId asset).Reads site fun _ _ => True := by
  unfold checkMember
  apply reads_currentNode
  split
  · apply (reads_ask (Backend.looks_hasRelation groupId asset) _ site).andThen
    intro stored after _ _
    split
    · exact reads_throw _ _
    · exact reads_pure trivial
  · exact reads_pure trivial

/-- Ending a membership is reading first, and removing it from the store and the index last. -/
theorem unrelate_cases (site : Site) (groupId : UInt64) (asset : Actor) :
    (∃ error after, site.Learns after ∧
      (unrelate groupId asset).perform site = (.error error, after)) ∨
    ∃ last, site.Learns last ∧
      (unrelate groupId asset).perform site = (.ok (), last.severed groupId asset) := by
  rw [unrelate_eq, perform_bind]
  obtain ⟨error, after, hlearns, hrun⟩ | ⟨_, after, hlearns, -, hrun⟩ :=
    (reads_checkMember site groupId asset).cases <;> rw [hrun]
  · exact .inl ⟨error, after, hlearns, rfl⟩
  obtain ⟨faults, hcalm, hcases⟩ :=
    ask_cases_alone (Backend.writes_deleteRelation groupId asset)
      (.store (relationContext groupId asset)) after
  have hfault : site.Learns { after with backend := { after.backend with faults } } :=
    hlearns.trans (.single (.fault faults hcalm))
  unfold dismiss
  dsimp only
  rw [perform_bind]
  obtain ⟨error, hrun⟩ | ⟨_, store, rfl, hrun⟩ := hcases <;> rw [hrun]
  · exact .inl ⟨error, _, hfault, rfl⟩
  · exact .inr ⟨_, hfault, rfl⟩

/-- A membership ends. -/
theorem unrelate_passes (groupId : UInt64) (asset : Actor) :
    (unrelate groupId asset).Passes licence most count site := by
  apply passes_of_zero
  obtain ⟨error, after, hlearns, hrun⟩ | ⟨last, hlearns, hrun⟩ :=
    unrelate_cases site groupId asset <;> rw [hrun]
  · exact hlearns.passes
  · exact hlearns.passes.trans (.single (.unrelated groupId asset))

/-- Becoming a member leaves a sound site. -/
theorem sound_of_relate (hsound : site.Sound) (groupId : UInt64) (asset : Actor) :
    ((relate groupId asset).perform site).2.Sound := by
  have hpasses : Site.Passes { lags := True } 0 site ((relate groupId asset).perform site).2 :=
    relate_passes hsound.keyed fun _ => trivial
  exact (hpasses.sound hsound (Store.hasRoom_zero _)).1

/-- Whatever relates a site to what a request for membership leaves relates it to what a list of
them leaves. -/
theorem joinAll_keeps (keeps : Site → Site → Prop) (hrefl : ∀ site, keeps site site)
    (htrans : ∀ {site middle after}, keeps site middle → keeps middle after → keeps site after)
    {asset : Actor} {groupIds : List UInt64}
    (hrelate : ∀ site : Site, site.Sound → ∀ groupId ∈ groupIds,
      keeps site ((relate groupId asset).perform site).2) (hsound : site.Sound) :
    keeps site ((joinAll asset groupIds).perform site).2 := by
  induction groupIds generalizing site with
  | nil => exact hrefl site
  | cons groupId groupIds ih =>
    have hfirst := hrelate site hsound groupId List.mem_cons_self
    have hrest := ih (fun site hsound other hmem =>
      hrelate site hsound other (List.mem_cons_of_mem _ hmem)) (sound_of_relate hsound groupId asset)
    have hboth := htrans hfirst hrest
    unfold joinAll
    rw [perform_bind, perform_outcome]
    dsimp only
    -- whatever the outcome, the rest is tried or the call ends here
    split
    · rw [snd_perform_bind fun _ _ => rfl]
      exact hboth
    · exact hboth
    · exact hfirst

/-- Joining several groups: each of them may be one that only the store knew of. -/
theorem joinAll_passes (hsound : site.Sound) {asset : Actor} {groupIds : List UInt64}
    (hlag : ∀ groupId ∈ groupIds, site.Unseen groupId asset → licence.lags) :
    Site.Passes licence 0 site ((joinAll asset groupIds).perform site).2 := by
  refine (joinAll_keeps (fun site after =>
    (∀ groupId ∈ groupIds, site.Unseen groupId asset → licence.lags) →
      Site.Passes licence 0 site after ∧
        ∀ groupId ∈ groupIds, after.Unseen groupId asset → licence.lags)
    (fun site hlag => ⟨.refl site, hlag⟩) (fun hfirst hrest hlag => ?_)
    (fun site hsound groupId hmem hlag => ?_) hsound hlag).1
  · obtain ⟨hpasses, hlag'⟩ := hfirst hlag
    obtain ⟨hpasses', hlag''⟩ := hrest hlag'
    exact ⟨hpasses.trans hpasses', hlag''⟩
  · -- what is unseen after one group was unseen before
    exact ⟨relate_passes hsound.keyed (hlag groupId hmem), fun other hother hunseen =>
      hlag other hother (unseen_of_relate hsound.keyed hunseen)⟩

theorem joinDefaults_passes (hsound : site.Sound) {asset : Actor}
    (hlag : ∀ groupId ∈ site.node.groups.missingDefaults asset, site.Unseen groupId asset → licence.lags) :
    (joinDefaults asset).Passes licence most count site := by
  unfold joinDefaults
  apply (reads_checkAsset asset).bind_passes hsound.keyed
  intro _ after _ _ hafter
  subst hafter
  exact passes_currentNode (passes_of_zero (joinAll_passes hsound hlag))

/-! ### Changing the forest -/

theorem reads_checkGroupParent (hkeyed : site.Keyed) (childId : UInt64) (kind : GroupKind)
    (parentId : UInt64) : (checkGroupParent childId kind parentId).Reads site fun _ after =>
      after.node.Accepts childId kind parentId := by
  unfold checkGroupParent
  split
  · exact reads_throw_bind _ _
  dsimp only
  apply (reads_groupById hkeyed parentId).bind hkeyed
  rintro parent after _ hkeyed' ⟨hparent, _⟩
  split
  · exact reads_throw_bind _ _
  rename_i hkind
  apply (reads_ancestry hkeyed' parentId).bind hkeyed'
  rintro ancestors last hlearns _ ⟨hancestors, _⟩
  split
  · exact reads_throw _ _
  · rename_i habsent
    have hparent := (hlearns.recalled_le hkeyed').group hparent
    refine reads_pure ⟨⟨parent, hparent, Classical.not_not.1 hkind⟩, ancestors, hancestors, ?_⟩
    intro hchild ancestor hmem heq
    exact habsent ⟨hchild, List.any_eq_true.2 ⟨ancestor, hmem, beq_iff_eq.2 heq⟩⟩

theorem reads_checkGroupKeyFree (hkeyed : site.Keyed) (key : String) (ownId : UInt64) :
    (checkGroupKeyFree key ownId).Reads site fun _ _ => True :=
  (composed_checkGroupKeyFree (learning_find · _ _) ownId site).reads hkeyed

theorem id_of_groupDraft {now : Timestamp} {flags : GroupFlags} {parentId : UInt64}
    {key displayName : String} {group : Group}
    (h : Group.draft now flags parentId key displayName = .ok group) :
    group.id = 0 ∧ group.parentId = parentId := by
  unfold Group.draft Except.map at h
  dsimp only at h
  split at h
  · cases h
  · cases h
    exact ⟨rfl, rfl⟩

/-- A draft may be placed below a group that is accepted for its kind. -/
theorem places_draft {node : Node} {group : Group} {parentId : UInt64} {kind : GroupKind}
    (hnew : group.id = 0) (hparent : group.parentId = parentId) (hkind : group.kind? = some kind)
    (hplaced : parentId = 0 ∨ node.Accepts 0 kind parentId) : node.Places group where
  kind := by
    rw [hkind]
    rfl
  own hold := absurd hnew hold
  parent := by
    rw [hparent, hnew]
    exact hplaced.imp_right fun haccepts => .inr ⟨kind, hkind, haccepts⟩

/-- What is to be created has no number yet and may be placed where it is to be. -/
theorem reads_groupToCreate (hkeyed : site.Keyed) (now : Timestamp) (flags : GroupFlags)
    (parentId : UInt64) (key displayName : String) :
    (groupToCreate now flags parentId key displayName).Reads site fun group after =>
      group.id = 0 ∧ after.node.Places group := by
  unfold groupToCreate
  apply (reads_liftExcept _).bind hkeyed
  rintro group first _ _ ⟨hdraft, hfirst⟩
  subst hfirst
  obtain ⟨hnew, hparent⟩ := id_of_groupDraft hdraft
  cases hkind : group.kind? with
  | none => exact reads_throw _ _
  | some kind =>
    -- the key is checked last, with or without a parent
    have hrest (site : Site) (hkeyed : site.Keyed)
        (hplaced : parentId = 0 ∨ site.node.Accepts 0 kind parentId) : (do
        checkGroupKeyFree key 0
        pure group : Call Group).Reads site fun group after =>
          group.id = 0 ∧ after.node.Places group := by
      apply (reads_checkGroupKeyFree hkeyed key 0).bind hkeyed
      intro _ last hlearns _ _
      exact reads_pure ⟨hnew, places_draft hnew hparent hkind
        (hplaced.imp_right fun haccepts => haccepts.mono (hlearns.recalled_le hkeyed))⟩
    dsimp only
    split
    · exact (reads_checkGroupParent hkeyed 0 kind parentId).bind hkeyed
        fun _ after _ hkeyed' haccepts => hrest after hkeyed' (.inr haccepts)
    · rename_i hroot
      exact hrest _ hkeyed (.inl (Classical.not_not.1 hroot))

/-- What is to be changed is known, and may be placed where it is. -/
theorem reads_groupToUpdate (hkeyed : site.Keyed) (now : Timestamp) (group : Group) :
    (groupToUpdate now group).Reads site fun group after =>
      group.id ≠ 0 ∧ after.node.Places group := by
  unfold groupToUpdate
  apply (reads_groupById hkeyed group.id).bind hkeyed
  rintro current after _ hkeyed' ⟨hcurrent, _⟩
  have hid := (indexed_of_recalled hcurrent).1
  apply (reads_liftExcept _).bind hkeyed'
  rintro _ first _ _ ⟨hvalid, hfirst⟩
  subst hfirst
  dsimp only
  split
  · exact reads_throw_bind _ _
  rename_i hkind
  split
  · exact reads_throw_bind _ _
  rename_i hparent
  -- neither the kind nor the parent has changed, and the age is that of the known group
  have hplaces (last : Site) (hlearns : first.Learns last) :
      last.node.Places { group with createdAt := current.createdAt, updatedAt := now } := by
    have hknown := (indexed_of_recalled ((hlearns.recalled_le hkeyed').group hcurrent)).2
    exact ⟨(Group.validate_eq_ok_iff.1 hvalid).1,
      fun _ => ⟨current, hknown, (Classical.not_not.1 hkind).symm, rfl⟩,
      .inr (.inl ⟨current, hknown, (Classical.not_not.1 hparent).symm⟩)⟩
  split
  · exact (reads_checkGroupKeyFree hkeyed' group.key group.id).bind hkeyed'
      fun _ last hlearns _ _ => reads_pure ⟨hid, hplaces last hlearns⟩
  · exact reads_pure ⟨hid, hplaces _ (.refl _)⟩

/-- What is to be hung elsewhere is known, and may be placed there. -/
theorem reads_groupToMove (hsound : site.Sound) (now : Timestamp) (groupId parentId : UInt64) :
    (groupToMove now groupId parentId).Reads site fun group after =>
      group.id ≠ 0 ∧ after.node.Places group := by
  have hkeyed := hsound.keyed
  unfold groupToMove
  apply (reads_groupById hkeyed groupId).bind hkeyed
  rintro group after hlearns hkeyed' ⟨hgroup, _⟩
  obtain ⟨hid, hindexed⟩ := indexed_of_recalled hgroup
  obtain ⟨rfl, -⟩ := (hlearns.sound hsound).node.group hindexed
  cases hkind : group.kind? with
  | none => exact reads_throw _ _
  | some kind =>
    have hplaces (last : Site) (hlearns : after.Learns last)
        (hplaced : parentId = 0 ∨ last.node.Accepts group.id kind parentId) :
        last.node.Places { group with parentId, updatedAt := now } := by
      have hknown := (indexed_of_recalled ((hlearns.recalled_le hkeyed').group hgroup)).2
      exact ⟨Option.isSome_iff_exists.2 ⟨kind, hkind⟩, fun _ => ⟨group, hknown, rfl, rfl⟩,
        hplaced.imp_right fun haccepts => .inr ⟨kind, hkind, haccepts⟩⟩
    dsimp only
    split
    · exact (reads_checkGroupParent hkeyed' group.id kind parentId).bind hkeyed'
        fun _ last hlearns' _ haccepts => reads_pure ⟨hid, hplaces last hlearns' (.inr haccepts)⟩
    · rename_i hroot
      exact reads_pure ⟨hid, hplaces after (.refl _) (.inl (Classical.not_not.1 hroot))⟩

/-- A draft has no number yet, so exactly one is taken. -/
theorem createGroup_passes (hkeyed : site.Keyed) (now : Timestamp) (flags : GroupFlags)
    (parentId : UInt64) (key displayName : String) :
    (createGroup now flags parentId key displayName).Passes licence 2 1 site := by
  rw [createGroup_eq]
  apply (reads_groupToCreate hkeyed now flags parentId key displayName).bind_passes hkeyed
  rintro group last _ _ ⟨hnew, hplaces⟩
  have h := storeGroup_passes licence last (groupKeyFailure key) hplaces
  rwa [if_pos hnew] at h

/-- A group that has a number keeps it. -/
theorem passes_bind_storeGroup (hkeyed : site.Keyed) {check : Call Group}
    (hcheck : check.Reads site fun group after => group.id ≠ 0 ∧ after.node.Places group)
    (wrap : StoreError → AccessError) :
    (check >>= storeGroup wrap).Passes licence 2 0 site := by
  apply hcheck.bind_passes hkeyed
  rintro group last _ _ ⟨hid, hplaces⟩
  have h := storeGroup_passes licence last wrap hplaces
  rwa [if_neg hid] at h

theorem updateGroup_passes (hkeyed : site.Keyed) (now : Timestamp) (group : Group) :
    (updateGroup now group).Passes licence 2 0 site := by
  rw [updateGroup_eq]
  exact passes_bind_storeGroup hkeyed (reads_groupToUpdate hkeyed now group) _

theorem moveGroup_passes (hsound : site.Sound) (now : Timestamp) (groupId parentId : UInt64) :
    (moveGroup now groupId parentId).Passes licence 2 0 site := by
  rw [moveGroup_eq]
  exact passes_bind_storeGroup hsound.keyed (reads_groupToMove hsound now groupId parentId) _

/-- Memberships are dropped as far as the store allows. -/
theorem dropRelations_passes (licence : Licence) (groupId : UInt64) (assets : List Actor) (site : Site) :
    ∃ after, (dropRelations groupId assets).perform site = (.ok (), after) ∧
      after.node = site.node ∧ Site.Passes licence 0 site after := by
  induction assets generalizing site with
  | nil => exact ⟨site, rfl, rfl, .refl site⟩
  | cons asset assets ih =>
    obtain ⟨faults, middle, hcalm, rfl | hslip, hcases⟩ :=
      Backend.writes_deleteRelation groupId asset site.backend
    · have hfault : site.Learns { site with backend := { site.backend with faults } } :=
        .single (.fault faults fun h => (hcalm h).1)
      unfold dropRelations
      rw [perform_bind]
      show ∃ after, (dropRelations groupId assets).perform { site with
        backend := ((Backend.deleteRelation groupId asset).run.run site.backend).2 } = _ ∧ _
      obtain ⟨error, hrun⟩ | ⟨_, store, rfl, hrun⟩ := hcases <;> rw [hrun]
      · obtain ⟨after, hperform, hnode, hpasses⟩ :=
          ih { site with backend := { site.backend with faults } }
        exact ⟨after, hperform, hnode, hfault.passes.trans hpasses⟩
      · obtain ⟨after, hperform, hnode, hpasses⟩ := ih _
        refine ⟨after, hperform, hnode, ?_⟩
        exact hfault.passes.trans ((Passes.single (.relationDropped ⟨groupId, asset⟩)).trans hpasses)
    · exact hslip.elim

/-- A group that is to be removed has no groups below it in the index. -/
theorem reads_checkRemoval (hkeyed : site.Keyed) (groupId : UInt64) :
    (checkRemoval groupId).Reads site fun _ after =>
      after.node.groups.hasChildren groupId = false := by
  unfold checkRemoval
  apply (reads_groupById hkeyed groupId).bind hkeyed
  intro _ after _ hkeyed' _
  apply (reads_ask (Backend.looks_childGroups groupId) _ after).bind hkeyed'
  intro children middle _ hkeyed'' _
  split
  · exact reads_throw_bind _ _
  apply reads_currentNode
  dsimp only
  split
  · exact reads_throw_bind _ _
  · rename_i hchildless
    exact reads_pure (Bool.eq_false_iff.2 hchildless)

theorem deleteGroup_passes (hkeyed : site.Keyed) (groupId : UInt64) :
    (deleteGroup groupId).Passes licence most count site := by
  rw [deleteGroup_eq]
  apply (reads_checkRemoval hkeyed groupId).bind_passes hkeyed
  intro members middle _ _ hchildless
  apply passes_of_zero
  obtain ⟨last, hdropped, hnode, hpasses⟩ := dropRelations_passes licence groupId members middle
  obtain ⟨faults, hcalm, hcases⟩ := ask_cases_alone (Backend.writes_deleteGroup groupId)
    (.store ("group " ++ toString groupId)) last
  have hfault : last.Learns { last with backend := { last.backend with faults } } :=
    .single (.fault faults hcalm)
  unfold removeWith
  rw [perform_bind, hdropped]
  dsimp only
  rw [perform_bind]
  obtain ⟨error, hrun⟩ | ⟨_, store, ⟨groups, hdelete, rfl⟩, hrun⟩ := hcases <;> rw [hrun]
  · exact hpasses.trans hfault.passes
  · rw [← hnode] at hchildless
    exact hpasses.trans (hfault.passes.trans (.single (.groupDeleted hdelete hchildless)))

end Site

end AccessRights
