/-
AccessRights/Proofs/Alignment.lean

An index of groups whose maps do not drift apart.

The index keeps one thing in several places: groups by number and by key, marks of
the default ones, memberships by group and by asset.  What is read into it comes in
any order from a store that others write to.  A group may turn up under a key that
another indexed group has had, or come back with another key, and then the index is
out of date.  Its maps are aligned all the same: a key that leads somewhere leads to
a group that has it, the marks are those of the indexed groups, and the two maps of
memberships mirror each other.

A key need not lead anywhere.  A group whose key was taken over takes the new owner's
way out of the index with it when it is forgotten, which is why alignment is weaker
than coherence here.

Main results: `Edit.aligned` (an edit), `Exposed.aligned` (a run) and `Exposed.stays_consonant`.
-/
import AccessRights.Proofs.Editing
import AccessRights.Proofs.History
import AccessRights.Proofs.Reflection

namespace AccessRights

namespace GroupIndex

variable {index after : GroupIndex} {group : Group}

/-! ### Aligned indexes -/

/-- The maps of the index agree with each other. -/
structure Aligned (index : GroupIndex) : Prop where
  id {id : UInt64} {group : Group} : index.group? id = some group → group.id = id
  key {key : String} {id : UInt64} : index.byKey[key]? = some id →
    ∃ group, index.group? id = some group ∧ group.key = key
  default {id : UInt64} : id ∈ index.defaults ↔
    ∃ group, index.group? id = some group ∧ group.isDefault = true
  mirrored : index.Mirrored

theorem aligned_empty : Aligned {} where
  id h := by simp [group?] at h
  key h := by simp at h
  default := by simp [group?]
  mirrored id asset := by simp [membersOf, groupsOf]

/-- Any group can be taken in, whatever is known under its number and whoever has its key. -/
theorem Aligned.insert (h : index.Aligned) (group : Group) : (index.insert group).Aligned where
  id {id found} hfound := by
    rw [group?_insert] at hfound
    split at hfound
    · rename_i hid
      cases hfound
      exact hid
    · exact h.id hfound
  key {key id} hlead := by
    rw [byKey_insert] at hlead
    rw [group?_insert]
    split at hlead
    · rename_i hkey
      cases hlead
      exact ⟨group, if_pos rfl, hkey⟩
    · split at hlead
      · cases hlead
      · rename_i hprevious
        obtain ⟨found, hfound, hown⟩ := h.key hlead
        -- the old group of that number does not have the key, so it is another one
        have hid : group.id ≠ id := by
          rintro rfl
          exact hprevious (by rw [hfound, Option.map_some, hown])
        exact ⟨found, (if_neg hid).trans hfound, hown⟩
  default {id} := by
    rw [mem_defaults_insert, group?_insert]
    split
    · simp
    · exact h.default
  mirrored := h.mirrored.insert group

/-- A group is forgotten with its key, even where that leads to another group by now. -/
theorem Aligned.remove (h : index.Aligned) (id : UInt64) : (index.remove id).Aligned where
  id {other found} hfound := by
    rw [group?_remove] at hfound
    split at hfound
    · cases hfound
    · exact h.id hfound
  key {key other} hlead := by
    rw [byKey_remove] at hlead
    rw [group?_remove]
    split at hlead
    · cases hlead
    · rename_i hkept
      obtain ⟨found, hfound, hown⟩ := h.key hlead
      -- a key that is left is not that of the group that was forgotten
      have hid : id ≠ other := by
        rintro rfl
        exact hkept (by rw [hfound, Option.map_some, hown])
      exact ⟨found, (if_neg hid).trans hfound, hown⟩
  default {other} := by
    rw [mem_defaults_remove, group?_remove, h.default]
    split
    · rename_i hsame
      subst hsame
      refine iff_of_false ?_ (by simp)
      rintro ⟨⟨found, hfound, -⟩, hremoved⟩
      exact hremoved ⟨rfl, by rw [hfound]; rfl⟩
    · rename_i hne
      exact and_iff_left fun hremoved => hne hremoved.1
  mirrored := h.mirrored.remove id

theorem Aligned.link (h : index.Aligned) (groupId : UInt64) (asset : Actor) :
    (index.link groupId asset).Aligned :=
  ⟨h.id, h.key, h.default, h.mirrored.link groupId asset⟩

theorem Aligned.unlink (h : index.Aligned) (groupId : UInt64) (asset : Actor) :
    (index.unlink groupId asset).Aligned :=
  ⟨h.id, h.key, h.default, h.mirrored.unlink groupId asset⟩

/-- The index of any groups and memberships is aligned, also if they contradict each other. -/
theorem aligned_build (groups : List Group) (relations : List Relation) :
    (build groups relations).Aligned := by
  have hgroups (index : GroupIndex) (h : index.Aligned) :
      (groups.foldl GroupIndex.insert index).Aligned := by
    induction groups generalizing index with
    | nil => exact h
    | cons group groups ih => exact ih _ (h.insert group)
  have hrelations (index : GroupIndex) (h : index.Aligned) :
      (relations.foldl (fun index relation => index.link relation.groupId relation.asset)
        index).Aligned := by
    induction relations generalizing index with
    | nil => exact h
    | cons relation relations ih => exact ih _ (h.link relation.groupId relation.asset)
  exact hrelations _ (hgroups _ aligned_empty)

/-- Every edit keeps an index aligned. -/
theorem Edit.aligned (h : index.Edit after) (haligned : index.Aligned) : after.Aligned := by
  cases h with
  | insert group => exact haligned.insert group
  | remove id => exact haligned.remove id
  | link groupId asset => exact haligned.link groupId asset
  | unlink groupId asset => exact haligned.unlink groupId asset
  | build groups relations => exact aligned_build groups relations

/-! ### Looking things up -/

/-- A key that leads to a group is the key of that group. -/
theorem Aligned.key_of_groupOfKey? (h : index.Aligned) {key : String}
    (hfound : index.groupOfKey? key = some group) : group.key = key := by
  obtain ⟨id, hlead, hgroup⟩ := Option.bind_eq_some_iff.1 hfound
  obtain ⟨owner, howner, hkey⟩ := h.key hlead
  cases howner.symm.trans hgroup
  exact hkey

/-- The groups that some numbers lead to have those numbers. -/
theorem Aligned.map_id_sublist (h : index.Aligned) (ids : List UInt64) :
    ((ids.filterMap index.group?).map Group.id).Sublist ids := by
  induction ids with
  | nil => exact .slnil
  | cons id ids ih =>
    rw [List.filterMap_cons]
    cases hfound : index.group? id with
    | none => exact ih.cons id
    | some group =>
      dsimp only
      rw [List.map_cons, h.id hfound]
      exact ih.cons_cons id

/-- A group of an asset is given if it is indexed and of a kind in the mask. -/
theorem mem_groupsByAsset (hown : ∀ {id group}, index.group? id = some group → group.id = id)
    {mask : GroupFlags} {asset : Actor} {id : UInt64} :
    id ∈ (index.groupsByAsset mask asset).map Group.id ↔
      id ∈ index.groupsOf asset ∧ ∃ group, index.group? id = some group ∧
        group.flags.meets (mask.inter .anyKind) = true := by
  unfold groupsByAsset
  simp only [List.mem_map, List.mem_filter, List.mem_filterMap, Std.ExtTreeSet.mem_toList]
  constructor
  · rintro ⟨group, ⟨⟨other, hmem, hfound⟩, hmeets⟩, rfl⟩
    obtain rfl := hown hfound
    exact ⟨hmem, group, hfound, hmeets⟩
  · rintro ⟨hmem, group, hfound, hmeets⟩
    exact ⟨group, ⟨⟨id, hmem, hfound⟩, hmeets⟩, hown hfound⟩

theorem isMember_iff {id : UInt64} {asset : Actor} :
    index.isMember id asset = true ↔ asset ∈ index.membersOf id :=
  Std.ExtTreeSet.contains_iff_mem

/-- What is read from the index fits together. -/
structure Consonant (index : GroupIndex) : Prop where
  key {key : String} {group : Group} : index.groupOfKey? key = some group → group.key = key
  /-- The three ways of asking for a membership in a group of some kind. -/
  member {id : UInt64} {group : Group} {asset : Actor} : index.group? id = some group →
    group.flags.meets .anyKind = true →
      (index.isMember id asset = true ↔ asset ∈ (index.membersOf id).toList) ∧
        (index.isMember id asset = true ↔
          id ∈ (index.groupsByAsset .anyKind asset).map Group.id)
  groups (mask : GroupFlags) (asset : Actor) :
    ((index.groupsByAsset mask asset).map Group.id).Pairwise (· < ·) ∧
      ((index.groupsByAsset mask asset).map Group.id).Nodup
  members (id : UInt64) : (index.membersOf id).toList.Pairwise (compare · · = .lt) ∧
    (index.membersOf id).toList.Nodup

theorem Aligned.consonant (h : index.Aligned) : index.Consonant where
  key := h.key_of_groupOfKey?
  member {id group asset} hfound hkind := by
    refine ⟨isMember_iff.trans Std.ExtTreeSet.mem_toList.symm, ?_⟩
    have hmask : GroupFlags.anyKind.inter .anyKind = .anyKind := rfl
    rw [isMember_iff, mem_groupsByAsset h.id, ← h.mirrored, hmask]
    exact (and_iff_left ⟨group, hfound, hkind⟩).symm
  groups mask asset := by
    have hsublist : ((index.groupsByAsset mask asset).map Group.id).Sublist
        (index.groupsOf asset).toList :=
      (List.filter_sublist.map Group.id).trans (h.map_id_sublist _)
    have hsorted : ((index.groupsByAsset mask asset).map Group.id).Pairwise (· < ·) :=
      (Std.ExtTreeSet.ordered_toList.imp Std.compare_eq_lt.1).sublist hsublist
    exact ⟨hsorted, hsorted.imp UInt64.ne_of_lt⟩
  members id := by
    refine ⟨Std.ExtTreeSet.ordered_toList, Std.ExtTreeSet.distinct_toList.imp ?_⟩
    rintro asset _ hdistinct rfl
    exact hdistinct Std.ReflOrd.compare_self

end GroupIndex

namespace Site

open Call

variable {site : Site}

/-! ### Nodes over a store that anybody writes to -/

/-- A state that a node gets into while others do with its store what they like between its
calls. -/
inductive Exposed : Site → Prop
  /-- The node is new, over any store. -/
  | blank (config : Config) (backend : Backend) : Exposed ⟨.blank config, backend⟩
  /-- A request is answered, or refused. -/
  | answered {site : Site} (before : Exposed site) (now : Timestamp) (request : Request) :
      Exposed ((answer now request).perform site).2
  /-- Somebody works on a live roster. -/
  | stepped {site : Site} (before : Exposed site) (policyId : UInt64) (step : RosterStep) :
      Exposed ((rosterStep policyId step).perform site).2
  /-- Others have worked on the store. -/
  | disturbed {site : Site} (before : Exposed site) (backend : Backend) :
      Exposed { site with backend }

/-- The index of groups is aligned whatever others do with the store. -/
theorem Exposed.aligned (h : site.Exposed) : site.node.groups.Aligned := by
  induction h with
  | blank config backend => exact GroupIndex.aligned_empty
  | answered before now request ih =>
    exact keeps_of_steps (edited_answer now request _).groups GroupIndex.Edit.aligned ih
  | stepped before policyId step ih =>
    exact keeps_of_steps (edited_rosterStep policyId step _).groups GroupIndex.Edit.aligned ih
  | disturbed before backend ih => exact ih

/-- A group that is found by its key has that key, in the index or in the store. -/
theorem key_of_groupByKey (h : site.node.groups.Aligned) {key : String} {group : Group}
    {after : Site} (hrun : (groupByKey key).perform site = (.ok group, after)) :
    group.key = key := by
  unfold groupByKey readGroup at hrun
  rw [perform_bind, perform_currentNode] at hrun
  dsimp only at hrun
  split at hrun
  · rename_i known hknown
    cases hrun
    exact h.key_of_groupOfKey? hknown
  · have hlooks := Backend.looks_find .groupByKey fun store => store.groups.byKey? key
    have hbacked := hlooks.backed site.backend
    rw [perform_bind, perform_ask, Backend.groupByKey] at hrun
    rcases hfound : ((Backend.find .groupByKey fun store =>
        store.groups.byKey? key).run.run site.backend).1 with error | _ | stored <;>
      rw [hfound] at hrun
    · cases hrun
    · cases hrun
    · cases hrun
      have hstored : site.backend.store.groups.byKey? key = some group := hbacked _ hfound _ rfl
      simpa using List.find?_some hstored

/-- Whatever others do with the store between the calls of a node, the maps of its index of groups
agree with each other, what is read from them fits together, and no group is ever found by a key
that it does not have. -/
theorem Exposed.stays_consonant (h : site.Exposed) :
    site.node.groups.Aligned ∧ site.node.groups.Consonant ∧
      ∀ key group after, (groupByKey key).perform site = (.ok group, after) → group.key = key :=
  ⟨h.aligned, h.aligned.consonant, fun _ _ _ => key_of_groupByKey h.aligned⟩

/-- A node that has read a group with a member.  Then another node has given the group another key,
and its key to a new group, which the first node has read by its number. -/
def overtaken : Site :=
  let made := (live ⟨.blank {}, {}⟩ [
    (default, .createGroup .group 0 "team" "Team"), (default, .relate 1 (.user 5))]).2
  let reader := ((answer default .load).perform ⟨.blank {}, made.backend⟩).2
  let renamed := (live made [
    (default, .updateGroup ⟨1, 0, .group, "staff", "Staff", default, default⟩),
    (default, .createGroup .group 0 "team" "Team")]).2
  ((answer default (.groupById 2)).perform { reader with backend := renamed.backend }).2

theorem exposed_overtaken : overtaken.Exposed :=
  (((Exposed.blank {} _).answered default .load).disturbed _).answered default (.groupById 2)

/-- The node knows two groups of one key.  The key leads to the newcomer, and the other group has its
member still. -/
theorem consonant_overtaken :
    (overtaken.node.groups.group? 1).map Group.key = some "team" ∧
      (overtaken.node.groups.groupOfKey? "team").map Group.id = some 2 ∧
        1 ∈ (overtaken.node.groups.groupsByAsset .anyKind (.user 5)).map Group.id ∧
          overtaken.node.groups.Consonant := by
  obtain ⟨-, hconsonant, -⟩ := exposed_overtaken.stays_consonant
  have hgroup : (overtaken.node.groups.group? 1).isSome = true := by decide +kernel
  have hkind : (overtaken.node.groups.group? 1).all (·.flags.meets .anyKind) = true := by
    decide +kernel
  obtain ⟨group, hgroup⟩ := Option.isSome_iff_exists.1 hgroup
  rw [hgroup, Option.all_some] at hkind
  refine ⟨by decide +kernel, by decide +kernel, ?_, hconsonant⟩
  exact (hconsonant.member hgroup hkind).2.1 (by decide +kernel)

end Site

end AccessRights
