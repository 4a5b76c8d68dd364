/-
AccessRights/Proofs/Reflection.lean

An index of groups that says just what the tables say.

The index finds groups by key and marks default groups besides finding them by
number, and it keeps memberships by group and by asset.  It is coherent if keys
and marks are those of the groups it holds, and it reflects the tables if the
groups and memberships are theirs.

Each change that a request makes to the tables has its counterpart for the
index, and the two keep the reflection.  So does reading everything anew: the
index that is built from the tables reflects them, and any other that does so
answers alike.

Main results: `Reflects.upsert`, `Reflects.remove`, `reflects_build` and
`Reflects.alike`.
-/
import AccessRights.Proofs.Sound

namespace AccessRights

namespace GroupIndex

variable {index other : GroupIndex} {group : Group}

/-! ### Keys and default marks -/

/-- The key of a group that is taken in leads to it, and its old key leads nowhere. -/
theorem byKey_insert (index : GroupIndex) (group : Group) (key : String) :
    (index.insert group).byKey[key]? =
      if group.key = key then some group.id
      else if (index.group? group.id).map Group.key = some key then none
      else index.byKey[key]? := by
  unfold insert
  dsimp only
  rw [lookup_insert]
  by_cases hkey : group.key = key
  · rw [if_pos hkey, if_pos hkey]
  rw [if_neg hkey, if_neg hkey]
  cases index.group? group.id with
  | none => rfl
  | some previous =>
    dsimp only
    split
    · rename_i hsame
      rw [if_neg]
      simpa [hsame] using hkey
    · simp [lookup_erase]

/-- The key of a group leads nowhere when the group is forgotten. -/
theorem byKey_remove (index : GroupIndex) (id : UInt64) (key : String) :
    (index.remove id).byKey[key]? =
      if (index.group? id).map Group.key = some key then none else index.byKey[key]? := by
  unfold remove
  cases index.group? id with
  | none => rfl
  | some group => simp [lookup_erase]

/-- A group that is taken in is a default exactly if its flags say so. -/
theorem mem_defaults_insert {id : UInt64} : id ∈ (index.insert group).defaults ↔
    if group.id = id then group.isDefault = true else id ∈ index.defaults := by
  unfold insert
  dsimp only
  split <;> rename_i hdefault
  · rw [mem_insert_iff]
    split <;> simp_all
  · rw [mem_erase_iff]
    split <;> simp_all

theorem mem_defaults_remove {id removed : UInt64} : id ∈ (index.remove removed).defaults ↔
    id ∈ index.defaults ∧ ¬ (removed = id ∧ (index.group? removed).isSome = true) := by
  unfold remove
  cases index.group? removed with
  | none => simp
  | some group => simp [and_comm]

/-! ### Coherent indexes -/

/-- Keys and default marks are those of the groups. -/
structure Coherent (index : GroupIndex) : Prop where
  key {key : String} {id : UInt64} : index.byKey[key]? = some id ↔
    ∃ group, index.group? id = some group ∧ group.key = key
  default {id : UInt64} : id ∈ index.defaults ↔
    ∃ group, index.group? id = some group ∧ group.isDefault = true

theorem coherent_empty : Coherent {} :=
  ⟨by simp [group?], by simp [group?]⟩

/-- A group is taken in whose key no other group has. -/
theorem Coherent.insert (h : index.Coherent)
    (hfree : ∀ {id other}, index.group? id = some other → other.key = group.key → id = group.id) :
    (index.insert group).Coherent := by
  constructor
  · intro key id
    rw [byKey_insert, group?_insert]
    by_cases hid : group.id = id
    · subst hid
      simp only [if_true, Option.some.injEq, exists_eq_left']
      split
      · simp_all
      · split
        · simp_all
        · rename_i hkey hprevious
          refine iff_of_false (fun hlead => ?_) hkey
          obtain ⟨previous, hfound, hown⟩ := h.key.1 hlead
          exact hprevious (by rw [hfound, Option.map_some, hown])
    · rw [if_neg hid]
      split
      · rename_i hkey
        refine iff_of_false (by simpa using hid) ?_
        rintro ⟨found, hfound, hown⟩
        exact hid (hfree hfound (hown.trans hkey.symm)).symm
      · split
        · rename_i hprevious
          -- the old key of the group was its own, so it did not lead elsewhere
          refine iff_of_false nofun fun hlead => ?_
          obtain ⟨previous, hfound, hown⟩ := Option.map_eq_some_iff.1 hprevious
          have hold := h.key.2 ⟨previous, hfound, hown⟩
          cases hold.symm.trans (h.key.2 hlead)
          exact hid rfl
        · exact h.key
  · intro id
    rw [mem_defaults_insert, group?_insert]
    split
    · simp
    · exact h.default

/-- An index stays coherent when a group is forgotten: all that leads to the group goes
with it. -/
theorem Coherent.remove (h : index.Coherent) (id : UInt64) : (index.remove id).Coherent := by
  constructor
  · intro key other
    rw [byKey_remove, group?_remove]
    split
    · -- the key of the removed group leads to nobody else, since it led to that group
      rename_i hremoved
      obtain ⟨removed, hfound, hown⟩ := Option.map_eq_some_iff.1 hremoved
      refine iff_of_false nofun ?_
      rintro ⟨found, hfound', hown'⟩
      split at hfound'
      · cases hfound'
      · rename_i hne
        have hlead := h.key.2 ⟨removed, hfound, hown⟩
        exact hne (Option.some.inj (hlead.symm.trans (h.key.2 ⟨found, hfound', hown'⟩)))
    · rename_i hkept
      split
      · rename_i heq
        subst heq
        refine iff_of_false (fun hlead => ?_) (by simp)
        obtain ⟨found, hfound, hown⟩ := h.key.1 hlead
        exact hkept (by rw [hfound, Option.map_some, hown])
      · exact h.key
  · intro other
    rw [mem_defaults_remove, group?_remove, h.default]
    split
    · rename_i heq
      subst heq
      refine iff_of_false ?_ (by simp)
      rintro ⟨⟨found, hfound, -⟩, hremoved⟩
      exact hremoved ⟨rfl, by rw [hfound]; rfl⟩
    · rename_i hne
      exact and_iff_left fun hremoved => hne hremoved.1

/-- Groups with different keys can be taken in one after the other. -/
theorem Coherent.foldl_insert (h : index.Coherent) {groups : List Group}
    (hkeys : ∀ group ∈ groups, ∀ other ∈ groups, other.key = group.key → other.id = group.id)
    (hfree : ∀ group ∈ groups, ∀ {id other}, index.group? id = some other →
      other.key = group.key → id = group.id) : (groups.foldl GroupIndex.insert index).Coherent := by
  induction groups generalizing index with
  | nil => exact h
  | cons first groups ih =>
    refine ih (h.insert (hfree first List.mem_cons_self)) (fun group hgroup other hother => ?_)
      fun group hgroup id other hother hkey => ?_
    · exact hkeys group (List.mem_cons_of_mem _ hgroup) other (List.mem_cons_of_mem _ hother)
    · rw [group?_insert] at hother
      split at hother
      · rename_i heq
        cases hother
        exact heq ▸ hkeys group (List.mem_cons_of_mem _ hgroup) first List.mem_cons_self hkey
      · exact hfree group (List.mem_cons_of_mem _ hgroup) hother hkey

theorem Coherent.foldl_link (h : index.Coherent) (relations : List Relation) :
    (relations.foldl (fun index relation => index.link relation.groupId relation.asset)
      index).Coherent := by
  induction relations generalizing index with
  | nil => exact h
  | cons relation relations ih =>
    have hlink : (index.link relation.groupId relation.asset).Coherent := ⟨h.key, h.default⟩
    exact ih hlink

/-! ### Reflections of tables -/

variable {tables tables' : GroupTables}

/-- The index says what the tables say. -/
structure Reflects (index : GroupIndex) (tables : GroupTables) : Prop extends Coherent index where
  group (id : UInt64) : index.group? id = tables.byId? id
  member {id : UInt64} {asset : Actor} :
    asset ∈ index.membersOf id ↔ (⟨id, asset⟩ : Relation) ∈ tables.relations
  mirrored : index.Mirrored

theorem reflects_empty : Reflects {} {} where
  toCoherent := coherent_empty
  group id := by simp [group?, GroupTables.byId?]
  member := by simp [membersOf]
  mirrored id asset := by simp [membersOf, groupsOf]

/-- Tables that are reflected have no key twice. -/
theorem Reflects.key_unique (h : index.Reflects tables) {id id' : UInt64} {group group' : Group}
    (hgroup : tables.byId? id = some group) (hgroup' : tables.byId? id' = some group')
    (hkey : group.key = group'.key) : id = id' := by
  rw [← h.group] at hgroup hgroup'
  have hlead := h.key.2 ⟨group, hgroup, hkey⟩
  exact Option.some.inj (hlead.symm.trans (h.key.2 ⟨group', hgroup', rfl⟩))

/-- A group that is stored is taken in. -/
theorem Reflects.upsert (h : index.Reflects tables) (hsound : tables.Sound) {group stored : Group}
    (hupsert : GroupTables.upsert group tables = .ok (stored, tables')) :
    (index.insert stored).Reflects tables' where
  toCoherent := by
    refine h.toCoherent.insert fun {id other} hother hkey => ?_
    rw [h.group] at hother
    obtain ⟨hid, hzero, -⟩ := hsound.group hother
    have hown := GroupTables.keyFree_of_upsert hupsert hother hkey
    -- a new group has the number zero until it is stored, which no other has
    obtain ⟨hnew, -⟩ | ⟨-, -, rfl, -⟩ := GroupTables.upsert_eq_ok hupsert
    · exact absurd (hid.symm.trans (hown.trans hnew)) hzero
    · exact hid.symm.trans hown
  group id := by
    rw [group?_insert, h.group]
    exact (GroupTables.groups_of_upsert hupsert id).symm
  member := by
    rw [GroupTables.relations_of_upsert hupsert]
    exact h.member
  mirrored := h.mirrored.insert stored

/-- A membership that is stored and linked is reflected. -/
theorem Reflects.link (h : index.Reflects tables) (groupId : UInt64) (asset : Actor) :
    (index.link groupId asset).Reflects
      { tables with relations := tables.relations.insert ⟨groupId, asset⟩ } where
  toCoherent := ⟨h.key, h.default⟩
  group := h.group
  member {id other} := by
    rw [mem_membersOf_link, mem_insert_iff, h.member, Relation.mk.injEq]
  mirrored := h.mirrored.link groupId asset

/-- A membership that is removed and unlinked is gone on both sides. -/
theorem Reflects.unlink (h : index.Reflects tables) (groupId : UInt64) (asset : Actor) :
    (index.unlink groupId asset).Reflects
      { tables with relations := tables.relations.erase ⟨groupId, asset⟩ } where
  toCoherent := ⟨h.key, h.default⟩
  group := h.group
  member {id other} := by
    rw [mem_membersOf_unlink, mem_erase_iff, h.member, Ne, Relation.mk.injEq, and_comm]
  mirrored := h.mirrored.unlink groupId asset

/-- A group is removed together with its memberships. -/
theorem Reflects.remove (h : index.Reflects tables) {id : UInt64} {group : Group}
    (hgroup : tables.byId? id = some group) {relations : Std.ExtTreeSet Relation}
    (hrelations : ∀ relation, relation ∈ relations ↔
      relation ∈ tables.relations ∧ relation.groupId ≠ id) :
    (index.remove id).Reflects { tables with groups := tables.groups.erase id, relations } where
  toCoherent := h.toCoherent.remove id
  group other := by
    rw [group?_remove, h.group]
    exact (lookup_erase _ id other).symm
  member {other asset} := by
    rw [mem_membersOf_remove, h.member, hrelations, h.group, hgroup]
    simp [eq_comm]
  mirrored := h.mirrored.remove id

/-- The index of all that is stored reflects it, provided that no key is stored twice. -/
theorem reflects_build {store : Store} (hstore : store.Sound) (h : index.Reflects store.groups) :
    (build store.groups.all store.groups.allRelations).Reflects store.groups where
  toCoherent := by
    refine (coherent_empty.foldl_insert (fun group hgroup other hother hkey => ?_)
      fun group _ id other hother => ?_).foldl_link _
    · obtain ⟨id, hid⟩ := Table.mem_rows.1 hgroup
      obtain ⟨id', hid'⟩ := Table.mem_rows.1 hother
      have hsame := h.key_unique hid' hid hkey
      rw [(hstore.groups.group hid).1, (hstore.groups.group hid').1, hsame]
    · simp [group?] at hother
  group := Node.group?_build_store hstore
  member := mem_membersOf_build.trans Std.ExtTreeSet.mem_toList
  mirrored := mirrored_build _ _

/-! ### Indexes that answer alike -/

/-- The indexes may differ only in where they keep empty sets of members or groups. -/
structure Alike (index other : GroupIndex) : Prop where
  byId : index.byId = other.byId
  byKey : index.byKey = other.byKey
  defaults : index.defaults = other.defaults
  membersOf (id : UInt64) : index.membersOf id = other.membersOf id
  groupsOf (asset : Actor) : index.groupsOf asset = other.groupsOf asset

/-- Indexes that reflect the same tables answer alike. -/
theorem Reflects.alike (h : index.Reflects tables) (h' : other.Reflects tables) :
    index.Alike other where
  byId := Std.ExtTreeMap.ext_getElem? fun id => (h.group id).trans (h'.group id).symm
  byKey := by
    refine Std.ExtTreeMap.ext_getElem? fun key => Option.ext fun id => ?_
    rw [h.key, h'.key]
    simp only [h.group, h'.group]
  defaults := by
    refine Std.ExtTreeSet.ext_mem fun id => ?_
    rw [h.default, h'.default]
    simp only [h.group, h'.group]
  membersOf id := Std.ExtTreeSet.ext_mem fun asset => h.member.trans h'.member.symm
  groupsOf asset := by
    refine Std.ExtTreeSet.ext_mem fun id => ?_
    rw [h.mirrored, h'.mirrored, h.member, h'.member]

end GroupIndex

end AccessRights
