/-
AccessRights/Proofs/Index.lean

What edits of an index do to its look-ups.

An index keeps several maps that are changed together; these lemmas say of
each edit and each look-up what is found afterwards, so that nothing else
has to open an edit.  Memberships are kept by group and by asset, and
`GroupIndex.Mirrored` says that the two maps tell the same story: all edits
keep that, and only for a mirrored index does forgetting a group forget all of
its memberships.

Main results: `GroupIndex.mem_groupsOf_remove`, `GroupIndex.mem_groupsOf_build`
and the lemmas `Mirrored.*`.
-/
import AccessRights.Group.Index
import AccessRights.Policy.Index

namespace AccessRights

/-! ### Policies -/

namespace PolicyIndex

variable {index : PolicyIndex}

/-- A policy is found under its own number when it has been taken in. -/
theorem policy?_insert (index : PolicyIndex) (policy : Policy) (id : UInt64) :
    (index.insert policy).policy? id = if policy.id = id then some policy else index.policy? id := by
  exact lookup_insert index.byId policy.id id policy

/-- Its key leads to it, whoever it led to before. -/
theorem byKey_insert (index : PolicyIndex) (policy : Policy) (key : String) :
    (index.insert policy).byKey[key]? =
      if policy.key = some key then some policy.id else index.byKey[key]? := by
  unfold insert
  dsimp only
  cases policy.key with
  -- without a key of its own the policy leaves all keys alone
  | none => simp
  | some own => simp [lookup_insert]

/-- Its object leads to it as well. -/
theorem byObject_insert (index : PolicyIndex) (policy : Policy) (object : PolicyObject) :
    (index.insert policy).byObject[object]? =
      if policy.object = some object then some policy.id else index.byObject[object]? := by
  unfold insert
  dsimp only
  cases policy.object with
  | none => simp
  | some own => simp [lookup_insert]

/-- A policy that is forgotten is not found any more. -/
theorem policy?_remove (index : PolicyIndex) (id other : UInt64) :
    (index.remove id).policy? other = if id = other then none else index.policy? other := by
  unfold remove
  split
  · rename_i hnone
    split
    · rename_i heq
      rw [← heq, hnone]
    · rfl
  · exact lookup_erase index.byId id other

/-- A key leads nowhere any more if it was that of the policy that was forgotten. -/
theorem byKey_remove (index : PolicyIndex) (id : UInt64) (key : String) :
    (index.remove id).byKey[key]? =
      if (index.policy? id).bind Policy.key = some key then none else index.byKey[key]? := by
  unfold remove
  cases index.policy? id with
  | none => simp
  | some policy =>
    dsimp only
    rw [Option.bind_some]
    cases policy.key with
    | none => simp
    | some own => simp [lookup_erase]

/-- An object leads nowhere any more if it was that of the policy that was forgotten. -/
theorem byObject_remove (index : PolicyIndex) (id : UInt64) (object : PolicyObject) :
    (index.remove id).byObject[object]? =
      if (index.policy? id).bind Policy.object = some object then none
      else index.byObject[object]? := by
  unfold remove
  cases index.policy? id with
  | none => simp
  | some policy =>
    dsimp only
    rw [Option.bind_some]
    cases policy.object with
    | none => simp
    | some own => simp [lookup_erase]

end PolicyIndex

/-! ### Groups -/

namespace GroupIndex

variable {index : GroupIndex}

/-- A group is found under its own number when it has been taken in. -/
theorem group?_insert (index : GroupIndex) (group : Group) (id : UInt64) :
    (index.insert group).group? id = if group.id = id then some group else index.group? id := by
  exact lookup_insert index.byId group.id id group

/-- Taking in what is known makes no difference to what numbers lead to. -/
theorem group?_insert_known {group : Group} (h : index.group? group.id = some group)
    (id : UInt64) : (index.insert group).group? id = index.group? id := by
  rw [group?_insert]
  split
  · rename_i hid
    rw [← hid, h]
  · rfl

@[simp] theorem groupsOf_insert (index : GroupIndex) (group : Group) (asset : Actor) :
    (index.insert group).groupsOf asset = index.groupsOf asset := rfl

@[simp] theorem membersOf_insert (index : GroupIndex) (group : Group) (id : UInt64) :
    (index.insert group).membersOf id = index.membersOf id := rfl

@[simp] theorem group?_link (index : GroupIndex) (groupId : UInt64) (asset : Actor)
    (id : UInt64) : (index.link groupId asset).group? id = index.group? id := rfl

/-- A group that is forgotten is not found any more. -/
theorem group?_remove (index : GroupIndex) (id other : UInt64) :
    (index.remove id).group? other = if id = other then none else index.group? other := by
  unfold remove
  split
  · rename_i hnone
    split
    · rename_i heq
      rw [← heq, hnone]
    · rfl
  · exact lookup_erase index.byId id other

/-! ### Memberships -/

/-- The set under a key after one of the sets has been changed. -/
theorem getD_modify {Key Member : Type} [Ord Key] [Std.TransOrd Key] [Std.LawfulEqOrd Key]
    [DecidableEq Key] [Ord Member] [Std.TransOrd Member]
    (sets : Std.ExtTreeMap Key (Std.ExtTreeSet Member)) (key other : Key)
    (edit : Std.ExtTreeSet Member → Std.ExtTreeSet Member) (hempty : edit ∅ = ∅) :
    (sets.modify key edit).getD other ∅ =
      if key = other then edit (sets.getD other ∅) else sets.getD other ∅ := by
  rw [Std.ExtTreeMap.getD_eq_getD_getElem?, Std.ExtTreeMap.getD_eq_getD_getElem?, lookup_modify]
  split
  · rename_i heq
    subst heq
    cases sets[key]? with
    | none => exact hempty.symm
    | some members => rfl
  · rfl

theorem getD_insert {Key Value : Type} [Ord Key] [Std.TransOrd Key] [Std.LawfulEqOrd Key]
    [DecidableEq Key] (map : Std.ExtTreeMap Key Value) (key other : Key) (value fallback : Value) :
    (map.insert key value).getD other fallback =
      if key = other then value else map.getD other fallback := by
  rw [Std.ExtTreeMap.getD_eq_getD_getElem?, Std.ExtTreeMap.getD_eq_getD_getElem?, lookup_insert]
  split <;> rfl

/-- Linking adds the one group to those of the asset. -/
theorem mem_groupsOf_link {groupId id : UInt64} {asset other : Actor} :
    id ∈ (index.link groupId asset).groupsOf other ↔
      (groupId = id ∧ asset = other) ∨ id ∈ index.groupsOf other := by
  simp only [groupsOf, link, getD_insert]
  split
  · rename_i heq
    subst heq
    rw [mem_insert_iff]
    simp
  · rename_i hne
    simp [hne]

/-- Linking adds the one asset to the members of the group. -/
theorem mem_membersOf_link {groupId id : UInt64} {asset other : Actor} :
    other ∈ (index.link groupId asset).membersOf id ↔
      (groupId = id ∧ asset = other) ∨ other ∈ index.membersOf id := by
  simp only [membersOf, link, getD_insert]
  split
  · rename_i heq
    subst heq
    rw [mem_insert_iff]
    simp
  · rename_i hne
    simp [hne]

/-- Unlinking takes the one group away from those of the asset. -/
theorem mem_groupsOf_unlink {groupId id : UInt64} {asset other : Actor} :
    id ∈ (index.unlink groupId asset).groupsOf other ↔
      id ∈ index.groupsOf other ∧ ¬ (groupId = id ∧ asset = other) := by
  simp only [groupsOf, unlink]
  rw [getD_modify _ _ _ _ Std.ExtTreeSet.erase_empty]
  split
  · rename_i heq
    subst heq
    rw [mem_erase_iff]
    simp [and_comm]
  · rename_i hne
    simp [hne]

/-- Unlinking takes the one asset away from the members of the group. -/
theorem mem_membersOf_unlink {groupId id : UInt64} {asset other : Actor} :
    other ∈ (index.unlink groupId asset).membersOf id ↔
      other ∈ index.membersOf id ∧ ¬ (groupId = id ∧ asset = other) := by
  simp only [membersOf, unlink]
  rw [getD_modify _ _ _ _ Std.ExtTreeSet.erase_empty]
  split
  · rename_i heq
    subst heq
    rw [mem_erase_iff]
    simp [and_comm]
  · rename_i hne
    simp [hne]

/-- Erasing a number from the groups of several assets. -/
theorem mem_getD_foldl_erase {memberships : Std.ExtTreeMap Actor (Std.ExtTreeSet UInt64)}
    {assets : List Actor} {id other : UInt64} {asset : Actor} :
    other ∈ (assets.foldl (fun memberships asset => memberships.modify asset (·.erase id))
        memberships).getD asset ∅ ↔
      other ∈ memberships.getD asset ∅ ∧ ¬ (id = other ∧ asset ∈ assets) := by
  induction assets generalizing memberships with
  | nil => simp
  | cons first assets ih =>
    rw [List.foldl_cons, ih, getD_modify _ _ _ _ Std.ExtTreeSet.erase_empty, List.mem_cons]
    -- is the asset in question the first of the list?
    split
    · rename_i heq
      subst heq
      rw [mem_erase_iff]
      grind
    · rename_i hne
      simp only [Ne.symm hne, false_or]

/-- Forgetting an indexed group takes it away from the groups of those that it lists as
members. -/
theorem mem_groupsOf_remove {id other : UInt64} {asset : Actor} :
    other ∈ (index.remove id).groupsOf asset ↔
      other ∈ index.groupsOf asset ∧
        ¬ (id = other ∧ asset ∈ index.membersOf id ∧ (index.group? id).isSome = true) := by
  unfold remove
  split
  · -- a group that is not indexed is not forgotten, so its memberships stay
    rename_i hnone
    simp [hnone]
  · rename_i hsome
    simp only [groupsOf, mem_getD_foldl_erase, hsome, Std.ExtTreeSet.mem_toList, Option.isSome_some,
      and_true]

/-- It has no members any more then. -/
theorem mem_membersOf_remove {id other : UInt64} {asset : Actor} :
    asset ∈ (index.remove id).membersOf other ↔
      asset ∈ index.membersOf other ∧ ¬ (id = other ∧ (index.group? id).isSome = true) := by
  unfold remove
  split
  · rename_i hnone
    simp [hnone]
  · rename_i hsome
    simp only [membersOf, Std.ExtTreeMap.getD_erase, hsome]
    by_cases heq : id = other
    · simp [heq]
    · simp [heq]

/-! ### Indexes of given groups and memberships -/

/-- Of several groups with one number the last one is found. -/
theorem group?_foldl_insert (groups : List Group) (id : UInt64) :
    (groups.foldl insert index).group? id =
      (groups.reverse.find? fun group => group.id == id).or (index.group? id) := by
  induction groups generalizing index with
  | nil => rfl
  | cons group groups ih =>
    rw [List.foldl_cons, ih, group?_insert, List.reverse_cons, List.find?_append]
    -- the group comes last in the reversed list, so others of its number hide it
    by_cases hid : group.id = id <;>
      cases groups.reverse.find? fun group => group.id == id <;> simp [hid]

/-- However many groups are taken in, memberships stay as they are. -/
theorem groupsOf_foldl_insert (groups : List Group) (asset : Actor) :
    (groups.foldl insert index).groupsOf asset = index.groupsOf asset := by
  induction groups generalizing index with
  | nil => rfl
  | cons group groups ih => rw [List.foldl_cons, ih, groupsOf_insert]

theorem membersOf_foldl_insert (groups : List Group) (id : UInt64) :
    (groups.foldl insert index).membersOf id = index.membersOf id := by
  induction groups generalizing index with
  | nil => rfl
  | cons group groups ih => rw [List.foldl_cons, ih, membersOf_insert]

/-- Linking one by one gives each asset the groups that the list names for it. -/
theorem mem_groupsOf_foldl_link {relations : List Relation} {id : UInt64} {asset : Actor} :
    id ∈ (relations.foldl (fun index relation => index.link relation.groupId relation.asset)
        index).groupsOf asset ↔
      ⟨id, asset⟩ ∈ relations ∨ id ∈ index.groupsOf asset := by
  induction relations generalizing index with
  | nil => simp
  | cons relation relations ih =>
    rw [List.foldl_cons, ih, mem_groupsOf_link, List.mem_cons]
    obtain ⟨groupId, member⟩ := relation
    simp only [Relation.mk.injEq]
    grind

/-- The other way round, each group gets the members that the list names for it. -/
theorem mem_membersOf_foldl_link {relations : List Relation} {id : UInt64} {asset : Actor} :
    asset ∈ (relations.foldl (fun index relation => index.link relation.groupId relation.asset)
        index).membersOf id ↔
      ⟨id, asset⟩ ∈ relations ∨ asset ∈ index.membersOf id := by
  induction relations generalizing index with
  | nil => simp
  | cons relation relations ih =>
    rw [List.foldl_cons, ih, mem_membersOf_link, List.mem_cons]
    obtain ⟨groupId, member⟩ := relation
    simp only [Relation.mk.injEq]
    grind

theorem group?_foldl_link (relations : List Relation) (id : UInt64) :
    (relations.foldl (fun index relation => index.link relation.groupId relation.asset)
      index).group? id = index.group? id := by
  induction relations generalizing index with
  | nil => rfl
  | cons relation relations ih => rw [List.foldl_cons, ih, group?_link]

/-- An index that is built anew finds the last given group of each number. -/
theorem group?_build (groups : List Group) (relations : List Relation) (id : UInt64) :
    (build groups relations).group? id = groups.reverse.find? fun group => group.id == id := by
  rw [build, group?_foldl_link, group?_foldl_insert]
  simp [group?]

/-- In an index that is built anew an asset is in the groups it was given for. -/
theorem mem_groupsOf_build {groups : List Group} {relations : List Relation} {id : UInt64}
    {asset : Actor} : id ∈ (build groups relations).groupsOf asset ↔ ⟨id, asset⟩ ∈ relations := by
  rw [build, mem_groupsOf_foldl_link, groupsOf_foldl_insert]
  simp [groupsOf]

/-- In an index that is built anew a group has the members it was given with. -/
theorem mem_membersOf_build {groups : List Group} {relations : List Relation} {id : UInt64}
    {asset : Actor} : asset ∈ (build groups relations).membersOf id ↔ ⟨id, asset⟩ ∈ relations := by
  rw [build, mem_membersOf_foldl_link, membersOf_foldl_insert]
  simp [membersOf]

/-! ### The two maps of memberships -/

/-- The memberships by group are those by asset. -/
def Mirrored (index : GroupIndex) : Prop :=
  ∀ id asset, id ∈ index.groupsOf asset ↔ asset ∈ index.membersOf id

theorem Mirrored.insert (h : index.Mirrored) (group : Group) : (index.insert group).Mirrored :=
  h

/-- Both maps are told of a link. -/
theorem Mirrored.link (h : index.Mirrored) (groupId : UInt64) (asset : Actor) :
    (index.link groupId asset).Mirrored := by
  intro id other
  rw [mem_groupsOf_link, mem_membersOf_link, h id other]

theorem Mirrored.unlink (h : index.Mirrored) (groupId : UInt64) (asset : Actor) :
    (index.unlink groupId asset).Mirrored := by
  intro id other
  rw [mem_groupsOf_unlink, mem_membersOf_unlink, h id other]

/-- Forgetting an indexed group of a mirrored index forgets its memberships, and no
others. -/
theorem Mirrored.mem_groupsOf_remove (h : index.Mirrored) {id other : UInt64} {asset : Actor} :
    other ∈ (index.remove id).groupsOf asset ↔
      other ∈ index.groupsOf asset ∧ ¬ (id = other ∧ (index.group? id).isSome = true) := by
  rw [GroupIndex.mem_groupsOf_remove]
  -- the members that the group lists are those that are led to it
  have := h id asset
  grind

theorem Mirrored.remove (h : index.Mirrored) (id : UInt64) : (index.remove id).Mirrored := by
  intro other asset
  rw [h.mem_groupsOf_remove, mem_membersOf_remove, h other asset]

/-- An index that is built anew starts out mirrored. -/
theorem mirrored_build (groups : List Group) (relations : List Relation) :
    (build groups relations).Mirrored := by
  intro id asset
  rw [mem_groupsOf_build, mem_membersOf_build]

end GroupIndex

end AccessRights
