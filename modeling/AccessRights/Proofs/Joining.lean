/-
AccessRights/Proofs/Joining.lean

Joining the default groups, with failures on the way.

A node that has its store to itself makes an asset a member of one default group
after the other.  Each of these steps goes through or has no effect: a membership
is stored first and taken into the index next, and nothing can fail in between.
So a call that is stopped has joined a part of the list from the front, in the
store and in the index alike, and the groups that are left are what the next call
begins with.

Main results: `InOrder.relate_ends` (one group), `InOrder.joinAll_ends` (a list of
them), `Reached.joinsDefaults` (the default groups).
-/
import AccessRights.Proofs.Twins

namespace AccessRights

/-- The asset can be a member of groups. -/
def Actor.CanJoin (asset : Actor) : Prop :=
  asset.kind ≠ .everyone ∧ asset.id ≠ 0

namespace Site

open Call

variable {site middle after last : Site} {asset : Actor} {id : UInt64} {ids rest : List UInt64}

/-! ### Memberships that were added -/

/-- The asset has become a member of the groups, in the store and in the index, and nothing
else has changed about groups and memberships. -/
structure Joins (site after : Site) (asset : Actor) (ids : List UInt64) : Prop where
  inOrder : after.InOrder
  store : after.backend.store = { site.backend.store with
    groups := { site.backend.store.groups with
      relations := after.backend.store.groups.relations } }
  related {id : UInt64} {other : Actor} :
    (⟨id, other⟩ : Relation) ∈ after.backend.store.groups.relations ↔
      (⟨id, other⟩ : Relation) ∈ site.backend.store.groups.relations ∨ other = asset ∧ id ∈ ids
  member {id : UInt64} {other : Actor} : other ∈ after.node.groups.membersOf id ↔
    other ∈ site.node.groups.membersOf id ∨ other = asset ∧ id ∈ ids
  membership {id : UInt64} {other : Actor} : id ∈ after.node.groups.groupsOf other ↔
    id ∈ site.node.groups.groupsOf other ∨ other = asset ∧ id ∈ ids
  /-- No fault comes up that was not planned. -/
  calm : site.backend.faults = [] → after.backend.faults = []

theorem Waits.calm (h : site.Waits after) (hcalm : site.backend.faults = []) :
    after.backend.faults = [] := by
  induction h with
  | refl => exact hcalm
  | step method _ _ _ ih =>
    refine ih ?_
    unfold met
    rw [hcalm]
    rfl

/-- While faults are used up nothing is joined. -/
theorem Waits.joins (h : site.Waits after) (horder : site.InOrder) (asset : Actor) :
    site.Joins after asset [] where
  inOrder := h.inOrder horder
  store := by rw [h.store]
  related := by simp [h.store]
  member := by simp [h.node]
  membership := by simp [h.node]
  calm := h.calm

/-- Groups are joined one list after the other. -/
theorem Joins.trans (h : site.Joins middle asset ids) (h' : middle.Joins after asset rest) :
    site.Joins after asset (ids ++ rest) where
  inOrder := h'.inOrder
  store := by rw [h'.store, h.store]
  related {id other} := by rw [h'.related, h.related, List.mem_append, or_assoc, and_or_left]
  member {id other} := by rw [h'.member, h.member, List.mem_append, or_assoc, and_or_left]
  membership {id other} := by rw [h'.membership, h.membership, List.mem_append, or_assoc, and_or_left]
  calm := h'.calm ∘ h.calm

/-- The groups themselves stay as they are. -/
theorem Joins.byId? (h : site.Joins after asset ids) (id : UInt64) :
    after.backend.store.groups.byId? id = site.backend.store.groups.byId? id := by
  rw [h.store]
  rfl

/-! ### One group -/

/-- The group is stored, and the asset is not a member. -/
structure Lacks (site : Site) (asset : Actor) (id : UInt64) : Prop where
  nonzero : id ≠ 0
  known : ∃ group, site.backend.store.groups.byId? id = some group
  unrelated : (⟨id, asset⟩ : Relation) ∉ site.backend.store.groups.relations

/-- A group that was not joined is lacking still. -/
theorem Joins.lacks (h : site.Joins after asset ids) (hlacks : site.Lacks asset id)
    (hid : id ∉ ids) : after.Lacks asset id where
  nonzero := hlacks.nonzero
  known := by
    rw [h.byId?]
    exact hlacks.known
  unrelated := by
    rw [h.related, not_or]
    exact ⟨hlacks.unrelated, fun hjoined => hid hjoined.2⟩

/-- A call of the store that fails is refused for the reason it is wrapped in. -/
theorem error_of_ask {α : Type} {wrap : StoreError → AccessError} {request : StoreCall α}
    {error : AccessError} (h : (ask wrap request).perform site = (.error error, after)) :
    ∃ failure, error = wrap failure := by
  rw [perform_ask] at h
  cases hresult : (request.run.run site.backend).1 with
  | error failure =>
    rw [hresult] at h
    exact ⟨failure, (Except.error.inj (congrArg Prod.fst h)).symm⟩
  | ok value =>
    rw [hresult] at h
    cases congrArg Prod.fst h

/-- A membership that is stored is taken in; where the store fails nothing changes. -/
theorem InOrder.enroll_ends (h : site.InOrder) (hlacks : site.Lacks asset id) :
    (∃ failure after, site.Waits after ∧ site.backend.faults ≠ [] ∧
      (enroll id asset).perform site = (.error (.store (relationContext id asset) failure), after)) ∨
    ∃ after, site.Joins after asset [id] ∧ (enroll id asset).perform site = (.ok (), after) := by
  obtain ⟨group, hgroup⟩ := hlacks.known
  have hperforms : Backend.Performs (Backend.createRelation id asset) .createRelation
      (GroupTables.relate id asset) site.backend := Backend.performs_onGroups _ _ _
  have hcreate : GroupTables.relate id asset site.backend.store.groups = .ok ((),
      { site.backend.store.groups with
        relations := site.backend.store.groups.relations.insert ⟨id, asset⟩ }) := by
    unfold GroupTables.relate
    rw [hgroup]
  unfold enroll
  rw [perform_bind]
  obtain ⟨hreason, error, hrun⟩ | ⟨⟨⟩, groups, hdone, hrun⟩ :=
    ask_performs hperforms (.store (relationContext id asset))
  · obtain ⟨failure, rfl⟩ := error_of_ask hrun
    refine .inl ⟨failure, _, .step .createRelation (by decide) (by decide) (.refl _), ?_, ?_⟩
    · -- the tables take the membership, so the failure was planned
      intro hcalm
      obtain ⟨error, hplanned⟩ | ⟨error, hrefused⟩ := hreason
      · rw [hcalm] at hplanned
        cases hplanned
      · cases hrefused.symm.trans hcreate
    · rw [hrun]
  · cases hdone.symm.trans hcreate
    rw [hrun]
    have hown {other : UInt64} {member : Actor} :
        id = other ∧ asset = member ↔ member = asset ∧ other ∈ [id] := by
      rw [List.mem_singleton, eq_comm, and_comm, eq_comm]
    refine .inr ⟨_, ?_, rfl⟩
    exact
      { inOrder := ⟨h.reflects.link id asset, (h.alone.next _).2⟩
        store := rfl
        related := fun {other member} => by
          show _ ∈ site.backend.store.groups.relations.insert ⟨id, asset⟩ ↔ _
          rw [mem_insert_iff, Relation.mk.injEq, hown, or_comm]
        member := GroupIndex.mem_membersOf_link.trans (or_comm.trans (or_congr_right hown))
        membership := GroupIndex.mem_groupsOf_link.trans (or_comm.trans (or_congr_right hown))
        calm := fun hcalm => by
          show (FaultPlan.next .createRelation site.backend.faults).2 = []
          rw [hcalm]
          rfl }

theorem Lacks.isRelated (h : site.Lacks asset id) :
    site.backend.store.groups.isRelated id asset = false := by
  rw [Bool.eq_false_iff]
  exact fun hrelated => h.unrelated (Std.ExtTreeSet.contains_iff_mem.1 hrelated)

/-- The index does not know of a membership that the store lacks. -/
theorem InOrder.isMember_of_lacks (h : site.InOrder) (hlacks : site.Lacks asset id) :
    site.node.groups.isMember id asset = false := by
  rw [Bool.eq_false_iff]
  intro hmember
  exact hlacks.unrelated (h.reflects.member.1 (Std.ExtTreeSet.contains_iff_mem.1 hmember))

theorem perform_checkAsset (hasset : asset.CanJoin) (site : Site) :
    (checkAsset asset).perform site = (.ok (), site) := by
  unfold checkAsset
  rw [if_neg (not_or.2 hasset)]
  rfl

/-- The checks pass, since neither the index nor the store has the membership. -/
theorem InOrder.checkNew_ends (h : site.InOrder) (hasset : asset.CanJoin)
    (hlacks : site.Lacks asset id) :
    (∃ failure after, site.Waits after ∧ site.backend.faults ≠ [] ∧
      (checkNew id asset).perform site =
        (.error (.store (relationContext id asset) failure), after)) ∨
    ∃ after, site.Waits after ∧ (checkNew id asset).perform site = (.ok false, after) := by
  obtain ⟨group, hgroup⟩ := hlacks.known
  have hrecalled : site.node.recalled.group? id = some group := by
    change (if id = 0 then none else site.node.groups.group? id) = some group
    rw [if_neg hlacks.nonzero, h.reflects.group, hgroup]
  -- the index has nothing against it, and leaves it to the store
  have hasks : (checkNew id asset).perform site =
      (ask (.store (relationContext id asset)) (Backend.hasRelation id asset)).perform site := by
    unfold checkNew
    rw [perform_bind, perform_checkAsset hasset]
    dsimp only
    rw [perform_bind, perform_groupById hrecalled]
    dsimp only
    rw [perform_bind, perform_currentNode]
    dsimp only
    rw [h.isMember_of_lacks hlacks, if_neg Bool.false_ne_true]
  have hwaits := @idles_ask _ site _ _ (Backend.uses_hasRelation id asset) (by decide) (by decide)
    (.store (relationContext id asset))
  unfold Idles at hwaits
  rw [hasks]
  obtain ⟨error, middle, -, hrun⟩ | ⟨stored, middle, -, ⟨hlooked, -⟩, hrun⟩ :=
    (reads_ask (Backend.looks_hasRelation id asset) (.store (relationContext id asset)) site).cases <;>
    rw [hrun] at hwaits ⊢
  · obtain ⟨failure, rfl⟩ := error_of_ask hrun
    refine .inl ⟨failure, middle, hwaits, fun hcalm => ?_, rfl⟩
    rw [perform_ask_of_calm (Backend.looks_hasRelation id asset) _ hcalm] at hrun
    cases hrun
  · rw [hlooked, hlacks.isRelated]
    exact .inr ⟨middle, hwaits, rfl⟩

/-- An asset that is not a member becomes one, or the store fails and nothing changes. -/
theorem InOrder.relate_ends (h : site.InOrder) (hasset : asset.CanJoin)
    (hlacks : site.Lacks asset id) :
    (∃ failure after, site.Waits after ∧ site.backend.faults ≠ [] ∧
      (Site.relate id asset).perform site =
        (.error (.store (relationContext id asset) failure), after)) ∨
    ∃ after, site.Joins after asset [id] ∧ (Site.relate id asset).perform site = (.ok (), after) := by
  rw [relate_eq, perform_bind]
  obtain ⟨failure, after, hwaits, hfaults, hrun⟩ | ⟨middle, hwaits, hrun⟩ :=
    h.checkNew_ends hasset hlacks <;> rw [hrun]
  · exact .inl ⟨failure, after, hwaits, hfaults, rfl⟩
  have hjoins := hwaits.joins h asset
  obtain ⟨failure, after, hwaits', hfaults, hrun⟩ | ⟨after, hafter, hrun⟩ :=
    (hwaits.inOrder h).enroll_ends (hjoins.lacks hlacks List.not_mem_nil)
  · exact .inl ⟨failure, after, hwaits.trans hwaits', hfaults ∘ hwaits.calm, hrun⟩
  · exact .inr ⟨after, hjoins.trans hafter, hrun⟩

/-! ### A list of groups -/

/-- Some groups from the front of the list are joined, and all of them unless the store fails. -/
theorem InOrder.joinAll_ends (h : site.InOrder) (hasset : asset.CanJoin) (hnodup : ids.Nodup)
    (hlacks : ∀ id ∈ ids, site.Lacks asset id) :
    (∃ after, site.Joins after asset ids ∧
      (Site.joinAll asset ids).perform site = (.ok ids, after)) ∨
    ∃ done rest error after, ids = done ++ rest ∧ rest ≠ [] ∧ site.Joins after asset done ∧
      site.backend.faults ≠ [] ∧ (Site.joinAll asset ids).perform site = (.error error, after) := by
  induction ids generalizing site with
  | nil => exact .inl ⟨site, (Waits.refl site).joins h asset, rfl⟩
  | cons id ids ih =>
    obtain ⟨hid, hnodup⟩ := List.nodup_cons.1 hnodup
    obtain ⟨hfirst, hrest⟩ := List.forall_mem_cons.1 hlacks
    unfold Site.joinAll
    rw [perform_bind, perform_outcome]
    -- the first group is not joined and nothing more is tried, or it is and the rest follows
    obtain ⟨failure, middle, hwaits, hfaults, hrun⟩ | ⟨middle, hjoins, hrun⟩ :=
      h.relate_ends hasset hfirst <;> rw [hrun] <;> dsimp only
    · exact .inr ⟨[], id :: ids, _, middle, rfl, List.cons_ne_nil _ _, hwaits.joins h asset, hfaults,
        rfl⟩
    rw [perform_bind]
    have hlacks (other : UInt64) (hother : other ∈ ids) : middle.Lacks asset other := by
      refine hjoins.lacks (hrest other hother) fun hmem => ?_
      rw [List.mem_singleton.1 hmem] at hother
      exact hid hother
    obtain ⟨after, hafter, hrun⟩ | ⟨done, rest, error, after, rfl, hne, hafter, hfaults, hrun⟩ :=
      ih hjoins.inOrder hnodup hlacks <;> rw [hrun]
    · exact .inl ⟨after, hjoins.trans hafter, rfl⟩
    · exact .inr ⟨id :: done, rest, error, after, rfl, hne, hjoins.trans hafter,
        hfaults ∘ hjoins.calm, rfl⟩

/-! ### The default groups -/

/-- The default groups that an asset is not in, by the store. -/
theorem InOrder.mem_missingDefaults (h : site.InOrder) :
    id ∈ site.node.groups.missingDefaults asset ↔
      (∃ group, site.backend.store.groups.byId? id = some group ∧ group.isDefault = true) ∧
        (⟨id, asset⟩ : Relation) ∉ site.backend.store.groups.relations := by
  have hdefault : id ∈ site.node.groups.defaults ↔
      ∃ group, site.backend.store.groups.byId? id = some group ∧ group.isDefault = true := by
    rw [h.reflects.default, h.reflects.group]
  have hmember : site.node.groups.isMember id asset = true ↔
      (⟨id, asset⟩ : Relation) ∈ site.backend.store.groups.relations :=
    Std.ExtTreeSet.contains_iff_mem.trans h.reflects.member
  unfold GroupIndex.missingDefaults
  rw [List.mem_filter, Std.ExtTreeSet.mem_toList, hdefault, ← hmember, Bool.not_eq_true',
    Bool.not_eq_true]

/-- Missing groups are listed in ascending order. -/
theorem pairwise_missingDefaults (index : GroupIndex) (asset : Actor) :
    (index.missingDefaults asset).Pairwise (· < ·) :=
  (Std.ExtTreeSet.ordered_toList.imp Std.compare_eq_lt.1).sublist List.filter_sublist

theorem nodup_missingDefaults (index : GroupIndex) (asset : Actor) :
    (index.missingDefaults asset).Nodup :=
  (pairwise_missingDefaults index asset).imp UInt64.ne_of_lt

/-- A group that is missing in the index is lacking in the store. -/
theorem InOrder.lacks_of_missing (h : site.InOrder)
    (hzero : site.backend.store.groups.byId? 0 = none)
    (hmissing : id ∈ site.node.groups.missingDefaults asset) : site.Lacks asset id := by
  obtain ⟨⟨group, hgroup, -⟩, hunrelated⟩ := h.mem_missingDefaults.1 hmissing
  refine ⟨?_, ⟨group, hgroup⟩, hunrelated⟩
  rintro rfl
  cases hgroup.symm.trans hzero

/-- What is left to join are the groups that were not joined. -/
theorem Joins.missingDefaults (hjoins : site.Joins after asset ids) (h : site.InOrder)
    (hsplit : site.node.groups.missingDefaults asset = ids ++ rest) :
    after.node.groups.missingDefaults asset = rest := by
  have hdefaults : after.node.groups.defaults = site.node.groups.defaults := by
    refine Std.ExtTreeSet.ext_mem fun id => ?_
    rw [hjoins.inOrder.reflects.default, h.reflects.default, hjoins.inOrder.reflects.group,
      h.reflects.group, hjoins.byId?]
  have hmember (id : UInt64) : after.node.groups.isMember id asset =
      (site.node.groups.isMember id asset || ids.contains id) := by
    rw [Bool.eq_iff_iff, Bool.or_eq_true, List.contains_iff_mem]
    exact Std.ExtTreeSet.contains_iff_mem.trans (hjoins.member.trans
      (or_congr Std.ExtTreeSet.contains_iff_mem.symm (and_iff_right rfl)))
  have hdisjoint := (List.nodup_append.1 (hsplit ▸ nodup_missingDefaults _ _)).2.2
  -- those that were joined are not missing any more, and those are the first of the list
  calc after.node.groups.missingDefaults asset
      = (site.node.groups.missingDefaults asset).filter (!ids.contains ·) := by
        unfold GroupIndex.missingDefaults
        simp only [hdefaults, hmember, List.filter_filter, Bool.not_or, Bool.and_comm]
    _ = rest := by
        rw [hsplit, List.filter_append, List.filter_eq_nil_iff.2, List.nil_append,
          List.filter_eq_self.2]
        · intro id hrest
          have hnot : id ∉ ids := fun hmem => hdisjoint id hmem id hrest rfl
          simpa using hnot
        · intro id hmem
          simpa using hmem

/-- To join the defaults is to join those that are missing. -/
theorem perform_joinDefaults (hasset : asset.CanJoin) (site : Site) :
    (Site.joinDefaults asset).perform site =
      (Site.joinAll asset (site.node.groups.missingDefaults asset)).perform site := by
  unfold Site.joinDefaults
  rw [perform_bind, perform_checkAsset hasset]
  rfl

/-- All default groups are joined, or a part of them from the front. -/
theorem InOrder.joinDefaults_ends (h : site.InOrder)
    (hzero : site.backend.store.groups.byId? 0 = none) (hasset : asset.CanJoin) :
    (∃ after, site.Joins after asset (site.node.groups.missingDefaults asset) ∧
      (Site.joinDefaults asset).perform site =
        (.ok (site.node.groups.missingDefaults asset), after)) ∨
    ∃ done rest error after, site.node.groups.missingDefaults asset = done ++ rest ∧ rest ≠ [] ∧
      site.Joins after asset done ∧ site.backend.faults ≠ [] ∧
        (Site.joinDefaults asset).perform site = (.error error, after) := by
  rw [perform_joinDefaults hasset]
  exact h.joinAll_ends hasset (nodup_missingDefaults _ _) fun _ => h.lacks_of_missing hzero

theorem InOrder.facing (h : site.InOrder) : (site.facing []).InOrder :=
  ⟨h.reflects, List.forall_mem_nil _⟩

/-- Where no fault is planned all default groups are joined. -/
theorem InOrder.joinDefaults_calm (h : site.InOrder)
    (hzero : site.backend.store.groups.byId? 0 = none) (hasset : asset.CanJoin) :
    ∃ after, site.Joins after asset (site.node.groups.missingDefaults asset) ∧
      (Site.joinDefaults asset).perform (site.facing []) =
        (.ok (site.node.groups.missingDefaults asset), after) := by
  obtain ⟨after, hjoins, hrun⟩ | ⟨_, _, _, _, -, -, -, hfaults, -⟩ :=
    h.facing.joinDefaults_ends hzero hasset
  · exact ⟨after, ⟨hjoins.inOrder, hjoins.store, hjoins.related, hjoins.member, hjoins.membership,
      fun _ => hjoins.calm rfl⟩, hrun⟩
  · exact absurd rfl hfaults

/-- The memberships depend only on what was joined. -/
theorem Joins.same (h : site.Joins after asset ids) (h' : site.Joins last asset ids) :
    after.backend.store = last.backend.store ∧ after.node.groups.Alike last.node.groups := by
  have hrelations : after.backend.store.groups.relations = last.backend.store.groups.relations :=
    Std.ExtTreeSet.ext_mem fun relation => h.related.trans h'.related.symm
  have hstore : after.backend.store = last.backend.store := by
    rw [h.store, hrelations, ← h'.store]
  exact ⟨hstore, h.inOrder.reflects.alike (hstore ▸ h'.inOrder.reflects)⟩

/-- How joining the default groups ends at a site, where `pending` are those that the asset
is not in. -/
structure JoinsDefaults (site : Site) (asset : Actor) (pending : List UInt64) : Prop where
  ascending : pending.Pairwise (· < ·)
  missing {id : UInt64} : id ∈ pending ↔
    (∃ group, site.backend.store.groups.byId? id = some group ∧ group.isDefault = true) ∧
      (⟨id, asset⟩ : Relation) ∉ site.backend.store.groups.relations
  /-- All of them are joined, and there are none left for a second call. -/
  joined {ids : List UInt64} {after : Site} :
    (joinDefaults asset).perform site = (.ok ids, after) → ids = pending ∧
      site.Joins after asset pending ∧
      (∀ id group, after.backend.store.groups.byId? id = some group → group.isDefault = true →
        asset ∈ after.node.groups.membersOf id) ∧
      ∀ faults, (joinDefaults asset).perform (after.facing faults) = (.ok [], after.facing faults)
  /-- A call that is stopped has joined the first of them.  Where no more faults are planned, the
  next call joins the others, and nothing tells the two calls from a single one. -/
  stopped {error : AccessError} {after : Site} :
    (joinDefaults asset).perform site = (.error error, after) →
      ∃ done rest, pending = done ++ rest ∧ rest ≠ [] ∧ site.Joins after asset done ∧
        ∃ last whole, (joinDefaults asset).perform (after.facing []) = (.ok rest, last) ∧
          (joinDefaults asset).perform (site.facing []) = (.ok pending, whole) ∧
          last.backend.store = whole.backend.store ∧ last.node.groups.Alike whole.node.groups
  /-- Only planned faults stop a call. -/
  completes : site.backend.faults = [] →
    ∃ after, (joinDefaults asset).perform site = (.ok pending, after)

/-- **A node joins the default groups in order**, where nobody else writes to its store, and
takes up where it was stopped. -/
theorem Reached.joinsDefaults (h : site.Reached .ofGroups) (hasset : asset.CanJoin) :
    ∃ pending, site.JoinsDefaults asset pending := by
  have horder := h.inOrder
  have hzero : site.backend.store.groups.byId? 0 = none :=
    Option.eq_none_iff_forall_ne_some.2 fun group hgroup =>
      (h.sound.store.groups.group hgroup).2.1 rfl
  have hends := horder.joinDefaults_ends hzero hasset
  refine ⟨_, pairwise_missingDefaults _ asset, horder.mem_missingDefaults, ?_, ?_, fun hcalm => ?_⟩
  · intro ids after hrun
    obtain ⟨_, hjoins, hrun'⟩ | ⟨_, _, _, _, -, -, -, -, hrun'⟩ := hends <;>
      cases hrun'.symm.trans hrun
    have hnone := hjoins.missingDefaults horder (List.append_nil _).symm
    refine ⟨rfl, hjoins, fun id group hgroup hdefault => ?_, fun faults => ?_⟩
    · rw [hjoins.inOrder.reflects.member]
      refine Decidable.not_not.1 fun hunrelated => ?_
      have hmissing := hjoins.inOrder.mem_missingDefaults.2 ⟨⟨group, hgroup, hdefault⟩, hunrelated⟩
      rw [hnone] at hmissing
      cases hmissing
    · rw [perform_joinDefaults hasset]
      show (Site.joinAll asset (after.node.groups.missingDefaults asset)).perform _ = _
      rw [hnone]
      rfl
  · intro error after hrun
    obtain ⟨_, -, hrun'⟩ | ⟨done, rest, _, _, hsplit, hne, hjoins, -, hrun'⟩ := hends <;>
      cases hrun'.symm.trans hrun
    -- the same request again joins what is left, and together that is all that was missing
    have hleft := hjoins.missingDefaults horder hsplit
    obtain ⟨last, hlast, hagain⟩ :=
      hjoins.inOrder.joinDefaults_calm ((hjoins.byId? 0).trans hzero) hasset
    obtain ⟨whole, hwhole, honce⟩ := horder.joinDefaults_calm hzero hasset
    rw [hleft] at hlast hagain
    have hlast := hjoins.trans hlast
    rw [← hsplit] at hlast
    exact ⟨done, rest, hsplit, hne, hjoins, last, whole, hagain, honce, hlast.same hwhole⟩
  · obtain ⟨after, -, hrun⟩ | ⟨_, _, _, _, -, -, -, hfaults, -⟩ := hends
    · exact ⟨after, hrun⟩
    · exact absurd hcalm hfaults

/-- Three default groups of which a user is in the last one, and a plain group between them. -/
def welcoming : Site :=
  (live ⟨.blank {}, {}⟩ [
    (default, .createGroup ⟨5⟩ 0 "guests" "Guests"),
    (default, .createGroup .group 0 "board" "Board"),
    (default, .createGroup ⟨5⟩ 0 "readers" "Readers"),
    (default, .createGroup ⟨5⟩ 1 "friends" "Friends"),
    (default, .relate 4 (.user 7))]).2

/-- The second membership that will be stored there fails. -/
def stalling : Site :=
  welcoming.facing ((welcoming.backend.faults.schedule .createRelation .harmless 1).schedule
    .createRelation (.failure (.backend "disk full")) 1)

theorem reached_stalling : stalling.Reached .ofGroups := by
  have hwelcoming : welcoming.Reached .ofGroups := by
    refine (Reached.blank {}).live (fun site => ?_) ⟨by decide +kernel, by decide +kernel⟩
    repeat refine List.forall_mem_cons.2 ⟨⟨trivial, trivial⟩, ?_⟩
    exact List.forall_mem_nil _
  exact .scheduled (.scheduled hwelcoming .createRelation (by simp [Rules.ofGroups]) 1)
    .createRelation (by simp [Rules.ofGroups]) 1

/-- The user joins the first group, and the other one when the call is repeated. -/
theorem joinsDefaults_stalling : ∃ pending, stalling.JoinsDefaults (.user 7) pending ∧
    ((joinDefaults (.user 7)).perform (stalling.facing [])).1 = .ok [1, 3] ∧
      ((joinDefaults (.user 7)).perform stalling).1 =
        .error (.store "relation user:7 -> 3" (.backend "disk full")) ∧
      ((joinDefaults (.user 7)).perform
        (((joinDefaults (.user 7)).perform stalling).2.facing [])).1 = .ok [3] := by
  have hasset : (Actor.user 7).CanJoin := ⟨by decide, by decide⟩
  obtain ⟨pending, hjoins⟩ := reached_stalling.joinsDefaults hasset
  exact ⟨pending, hjoins, by decide +kernel, by decide +kernel, by decide +kernel⟩

end Site

end AccessRights
