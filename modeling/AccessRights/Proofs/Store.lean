/-
AccessRights/Proofs/Store.lean

Tables that keep their own rules, and how they may change.

A sound store has every row under its own number, has handed out all numbers
it uses, and has no key and no object twice.  Its operations keep it sound as
long as there are numbers left (`Store.HasRoom`).  From one moment to a later
one (`Store.Later`) a policy that stays keeps its key, its object and its age, a
group its kind and its age, and whatever is new has a new number.

Main results: `PolicyTables.Sound.create`, `.update`, `.delete` and
`GroupTables.Sound.upsert`.
-/
import AccessRights.Store

namespace AccessRights

/-! ### Numbers -/

/-- The next number, as long as the counter does not run over. -/
theorem toNat_next {lastId : UInt64} (hroom : lastId.toNat + 1 < UInt64.size) :
    (lastId + 1).toNat = lastId.toNat + 1 := by
  rw [UInt64.toNat_add]
  exact Nat.mod_eq_of_lt hroom

/-- The next number is a new one, as long as the numbers have not come round. -/
theorem lt_next {lastId : UInt64} (hroom : lastId.toNat + 1 < UInt64.size) :
    lastId < lastId + 1 := by
  rw [UInt64.lt_iff_toNat_lt, toNat_next hroom]
  omega

theorem next_ne_zero {lastId : UInt64} (hroom : lastId.toNat + 1 < UInt64.size) :
    lastId + 1 ≠ 0 := by
  intro h
  have := toNat_next hroom
  rw [h] at this
  simp at this

/-! ### Designators -/

namespace Table

variable {Row Designator : Type} {table : Table Row} {designator : Row → Option Designator}

/-- No two rows have a designator in common. -/
def Distinct (table : Table Row) (designator : Row → Option Designator) : Prop :=
  ∀ ⦃id other : UInt64⦄ ⦃row rival : Row⦄ ⦃value : Designator⦄,
    table[id]? = some row → table[other]? = some rival →
    designator row = some value → designator rival = some value → id = other

/-- No row under another number has the designator of the given one. -/
def Free (table : Table Row) (designator : Row → Option Designator) (id : UInt64) (row : Row) :
    Prop :=
  ∀ ⦃other : UInt64⦄ ⦃rival : Row⦄ ⦃value : Designator⦄,
    table[other]? = some rival → other ≠ id →
    designator row = some value → designator rival ≠ some value

/-- A row, put in place of whatever was under its number, leaves the designators distinct exactly
if no other row has its designator. -/
theorem Distinct.insert_iff (h : table.Distinct designator) {id : UInt64} {row : Row} :
    Distinct (table.insert id row) designator ↔ table.Free designator id row := by
  refine ⟨fun hafter other rival value hrival hne hrow hshared => ?_,
    fun hfree first second one two value hone htwo hvalue hvalue' => ?_⟩
  · have hput : (table.insert id row)[id]? = some row := by rw [lookup_insert, if_pos rfl]
    have hkept : (table.insert id row)[other]? = some rival := by
      rw [lookup_insert, if_neg (Ne.symm hne), hrival]
    exact hne (hafter hkept hput hshared hrow)
  · rw [lookup_insert] at hone htwo
    -- both are the one put there, one of them is, or none
    split at hone <;> split at htwo
    · rename_i heq heq'
      exact heq.symm.trans heq'
    · rename_i heq hne
      cases hone
      exact absurd hvalue' (hfree htwo (Ne.symm hne) hvalue)
    · rename_i hne heq
      cases htwo
      exact absurd hvalue (hfree hone (Ne.symm hne) hvalue')
    · exact h hone htwo hvalue hvalue'

/-- What is left after a removal was there before. -/
theorem of_lookup_erase {id other : UInt64} {row : Row}
    (h : (table.erase id)[other]? = some row) : table[other]? = some row := by
  rw [lookup_erase] at h
  split at h
  · cases h
  · exact h

/-- A removal leaves designators distinct. -/
theorem Distinct.erase (h : table.Distinct designator) (id : UInt64) :
    Distinct (table.erase id) designator :=
  fun _ _ _ _ _ hrow hrival => h (of_lookup_erase hrow) (of_lookup_erase hrival)

end Table

/-! ### Policies -/

namespace PolicyTables

variable {tables tables' : PolicyTables}

/-- The tables keep their rules. -/
structure Sound (tables : PolicyTables) : Prop where
  policy {id : UInt64} {policy : Policy} : tables.policies[id]? = some policy →
    policy.id = id ∧ id ≠ 0 ∧ id ≤ tables.lastId
  roster {id : UInt64} {record : RosterRecord} : tables.rosters[id]? = some record →
    record.policyId = id ∧ id ≤ tables.lastId
  key {id other : UInt64} {policy rival : Policy} {key : String} :
    tables.policies[id]? = some policy → tables.policies[other]? = some rival →
    policy.key = some key → rival.key = some key → id = other
  object {id other : UInt64} {policy rival : Policy} {object : PolicyObject} :
    tables.policies[id]? = some policy → tables.policies[other]? = some rival →
    policy.object = some object → rival.object = some object → id = other

/-- A policy stored at a later moment is new, or has its designators and its age from before. -/
structure Later (tables tables' : PolicyTables) : Prop where
  lastId : tables.lastId ≤ tables'.lastId
  policy {id : UInt64} {policy : Policy} : tables'.policies[id]? = some policy →
    (∃ before, tables.policies[id]? = some before ∧ policy.key = before.key ∧
      policy.object = before.object ∧ policy.createdAt = before.createdAt) ∨ tables.lastId < id

theorem Later.refl (tables : PolicyTables) : tables.Later tables :=
  ⟨UInt64.le_refl _, fun {_ policy} h => .inl ⟨policy, h, rfl, rfl, rfl⟩⟩

/-- Tables that are later than later ones are later. -/
theorem Later.trans {tables'' : PolicyTables} (h : tables.Later tables')
    (h' : tables'.Later tables'') : tables.Later tables'' := by
  refine ⟨UInt64.le_trans h.lastId h'.lastId, fun {id policy} hpolicy => ?_⟩
  obtain ⟨before, hbefore, hkey, hobject, hage⟩ | hnew := h'.policy hpolicy
  · obtain ⟨first, hfirst, hkey', hobject', hage'⟩ | hnew := h.policy hbefore
    · exact .inl ⟨first, hfirst, hkey.trans hkey', hobject.trans hobject', hage.trans hage'⟩
    · exact .inr hnew
  · exact .inr (UInt64.lt_of_le_of_lt h.lastId hnew)

/-- Two policies with a designator in common share one. -/
theorem sharedDesignator?_eq_none {policy other : Policy} (h : sharedDesignator? policy other = none)
    (hid : other.id ≠ policy.id) :
    (∀ key, policy.key = some key → other.key ≠ some key) ∧
      ∀ object, policy.object = some object → other.object ≠ some object := by
  rw [sharedDesignator?, if_neg hid] at h
  constructor
  · intro key hkey hother
    simp [hkey, hother] at h
  · intro object hobject hother
    cases hkey : policy.key with
    | none => simp [hkey, hobject, hother, sharedDesignator?.sharedObject?] at h
    | some key =>
      simp only [hkey, hobject, hother, sharedDesignator?.sharedObject?] at h
      split at h <;> simp at h

/-- A policy without a conflict has a key and an object of its own. -/
theorem conflict?_eq_none {policy : Policy} (h : tables.conflict? policy = none)
    {id : UInt64} {other : Policy} (hother : tables.policies[id]? = some other)
    (hid : other.id ≠ policy.id) :
    (∀ key, policy.key = some key → other.key ≠ some key) ∧
      ∀ object, policy.object = some object → other.object ≠ some object :=
  sharedDesignator?_eq_none
    (List.findSome?_eq_none_iff.1 h other (Table.mem_rows.2 ⟨id, hother⟩)) hid

/-! ### Policies by their designators -/

theorem byKey?_eq_some {key : String} {policy : Policy} (h : tables.byKey? key = some policy) :
    (∃ id : UInt64, tables.policies[id]? = some policy) ∧ policy.key = some key :=
  ⟨Table.mem_rows.1 (List.mem_of_find?_eq_some h), by simpa using List.find?_some h⟩

theorem byObject?_eq_some {object : PolicyObject} {policy : Policy}
    (h : tables.byObject? object = some policy) :
    (∃ id : UInt64, tables.policies[id]? = some policy) ∧ policy.object = some object :=
  ⟨Table.mem_rows.1 (List.mem_of_find?_eq_some h), by simpa using List.find?_some h⟩

/-- A key is stored at most once, so what is found by it is whatever has it. -/
theorem Sound.byKey?_eq_some_iff (h : tables.Sound) {key : String} {policy : Policy} :
    tables.byKey? key = some policy ↔
      ∃ id, tables.byId? id = some policy ∧ policy.key = some key := by
  refine ⟨fun hfound => ?_, fun ⟨id, hid, hkey⟩ => ?_⟩
  · obtain ⟨⟨id, hid⟩, hkey⟩ := byKey?_eq_some hfound
    exact ⟨id, hid, hkey⟩
  · cases hfound : tables.byKey? key with
    | none =>
      have hnone := List.find?_eq_none.1 hfound policy (Table.mem_rows.2 ⟨id, hid⟩)
      exact absurd (by simpa using hkey) hnone
    | some other =>
      obtain ⟨⟨otherId, hother⟩, hotherKey⟩ := byKey?_eq_some hfound
      obtain rfl := h.key hid hother hkey hotherKey
      exact hother.symm.trans hid

/-- A search by object finds the one policy that has the object. -/
theorem Sound.byObject?_eq_some_iff (h : tables.Sound) {object : PolicyObject} {policy : Policy} :
    tables.byObject? object = some policy ↔
      ∃ id, tables.byId? id = some policy ∧ policy.object = some object := by
  refine ⟨fun hfound => ?_, fun ⟨id, hid, hobject⟩ => ?_⟩
  · obtain ⟨⟨id, hid⟩, hobject⟩ := byObject?_eq_some hfound
    exact ⟨id, hid, hobject⟩
  · cases hfound : tables.byObject? object with
    | none =>
      have hnone := List.find?_eq_none.1 hfound policy (Table.mem_rows.2 ⟨id, hid⟩)
      exact absurd (by simpa using hobject) hnone
    | some other =>
      obtain ⟨⟨otherId, hother⟩, hotherObject⟩ := byObject?_eq_some hfound
      obtain rfl := h.object hid hother hobject hotherObject
      exact hother.symm.trans hid

/-! ### Operations on policies -/

/-- A creation that goes through met no conflict, and put the policy under the next
number. -/
theorem create_eq_ok {policy stored : Policy} {record storedRecord : RosterRecord}
    (h : create policy record tables = .ok ((stored, storedRecord), tables')) :
    tables.conflict? policy = none ∧ stored = { policy with id := tables.lastId + 1 } ∧
      storedRecord = { record with policyId := tables.lastId + 1 } ∧
      tables' = { tables.put stored record with lastId := tables.lastId + 1 } := by
  unfold create at h
  split at h
  · cases h
  · rename_i hconflict
    cases h
    exact ⟨hconflict, rfl, rfl, rfl⟩

/-- An update that goes through met no conflict, and replaced both rows. -/
theorem update_eq_ok {policy : Policy} {update : RosterUpdate}
    (h : PolicyTables.update policy update tables = .ok ((), tables')) :
    (∃ before, tables.policies[policy.id]? = some before) ∧ tables.conflict? policy = none ∧
      tables' = tables.put policy update.record := by
  unfold PolicyTables.update at h
  split at h
  · cases h
  · rename_i before hbefore
    split at h
    · cases h
    · rename_i hconflict
      cases h
      exact ⟨⟨before, hbefore⟩, hconflict, rfl⟩

/-- A deletion that goes through took both rows away. -/
theorem delete_eq_ok {id : UInt64} (h : delete id tables = .ok ((), tables')) :
    (∃ before, tables.policies[id]? = some before) ∧
      tables' = { tables with
        policies := tables.policies.erase id, rosters := tables.rosters.erase id } := by
  unfold delete at h
  split at h
  · cases h
  · rename_i before hbefore
    cases h
    exact ⟨⟨before, hbefore⟩, rfl⟩

theorem policies_put (tables : PolicyTables) (policy : Policy) (record : RosterRecord)
    (id : UInt64) : (tables.put policy record).policies[id]? =
      if policy.id = id then some policy else tables.policies[id]? := by
  exact lookup_insert _ _ _ _

theorem rosters_put (tables : PolicyTables) (policy : Policy) (record : RosterRecord)
    (id : UInt64) : (tables.put policy record).rosters[id]? =
      if policy.id = id then some { record with policyId := policy.id }
      else tables.rosters[id]? := by
  exact lookup_insert _ _ _ _

/-- A policy that conflicts with none, put under its number, leaves the designators
unique. -/
theorem Sound.put (h : tables.Sound) {policy : Policy} (record : RosterRecord)
    (hconflict : tables.conflict? policy = none) {id : UInt64} {lastId : UInt64}
    (hid : id ≠ 0 ∧ id ≤ lastId) (hlast : tables.lastId ≤ lastId)
    (hown : policy.id = id ∨ policy.id = 0) :
    Sound { tables.put { policy with id } record with lastId } := by
  -- no policy under another number has a designator of the new one
  have hfree {other : UInt64} {rival : Policy} (hrival : tables.policies[other]? = some rival)
      (hne : other ≠ id) :
      (∀ key, policy.key = some key → rival.key ≠ some key) ∧
        ∀ object, policy.object = some object → rival.object ≠ some object := by
    obtain ⟨hrivalId, hzero, -⟩ := h.policy hrival
    refine conflict?_eq_none hconflict hrival ?_
    rw [hrivalId]
    rcases hown with hown | hown <;> rw [hown] <;> assumption
  have hrow (other : UInt64) : (tables.put { policy with id } record).policies[other]? =
      if id = other then some { policy with id } else tables.policies[other]? :=
    policies_put tables _ record other
  refine ⟨?_, ?_, ?_, ?_⟩
  · intro other rival hrival
    rw [hrow] at hrival
    split at hrival
    · rename_i heq
      cases hrival
      cases heq
      exact ⟨rfl, hid⟩
    · obtain ⟨hrivalId, hzero, hle⟩ := h.policy hrival
      exact ⟨hrivalId, hzero, UInt64.le_trans hle hlast⟩
  · intro other stored hstored
    rw [show (_ : PolicyTables).rosters[other]? = _ from rosters_put tables _ record other]
      at hstored
    split at hstored
    · rename_i heq
      cases hstored
      cases heq
      exact ⟨rfl, hid.2⟩
    · exact ⟨(h.roster hstored).1, UInt64.le_trans (h.roster hstored).2 hlast⟩
  · have hdistinct : tables.policies.Distinct Policy.key := fun _ _ _ _ _ => h.key
    exact @(hdistinct.insert_iff.2 fun _ _ _ hrival hne => (hfree hrival hne).1 _)
  · have hdistinct : tables.policies.Distinct Policy.object := fun _ _ _ _ _ => h.object
    exact @(hdistinct.insert_iff.2 fun _ _ _ hrival hne => (hfree hrival hne).2 _)

/-- Storing a new policy keeps the rules, as long as there is a number for it. -/
theorem Sound.create (h : tables.Sound) (hroom : tables.lastId.toNat + 1 < UInt64.size)
    {policy stored : Policy} {record storedRecord : RosterRecord} (hnew : policy.id = 0)
    (hcreate : create policy record tables = .ok ((stored, storedRecord), tables')) :
    tables'.Sound ∧ tables.Later tables' := by
  obtain ⟨hconflict, rfl, rfl, rfl⟩ := create_eq_ok hcreate
  have hlt := lt_next hroom
  refine ⟨h.put record hconflict ⟨next_ne_zero hroom, UInt64.le_refl _⟩ (UInt64.le_of_lt hlt)
    (.inr hnew), UInt64.le_of_lt hlt, fun {id policy'} hpolicy => ?_⟩
  -- raising the counter does not touch the rows
  rw [show (_ : PolicyTables).policies[id]? = _ from policies_put tables _ record id] at hpolicy
  split at hpolicy
  · rename_i heq
    rw [← heq]
    exact .inr hlt
  · exact .inl ⟨policy', hpolicy, rfl, rfl, rfl⟩

/-- A new policy takes nobody's place. -/
theorem Sound.create_keeps (h : tables.Sound) (hroom : tables.lastId.toNat + 1 < UInt64.size)
    {policy : Policy} {record : RosterRecord} {stored : Policy × RosterRecord}
    (hcreate : PolicyTables.create policy record tables = .ok (stored, tables')) :
    (∀ (id : UInt64) (other : Policy), tables.policies[id]? = some other →
      tables'.policies[id]? = some other) ∧
    ∀ (id : UInt64) (other : RosterRecord), tables.rosters[id]? = some other →
      tables'.rosters[id]? = some other := by
  obtain ⟨stored, storedRecord⟩ := stored
  obtain ⟨-, rfl, rfl, rfl⟩ := create_eq_ok hcreate
  have hnew := UInt64.not_le.2 (lt_next hroom)
  constructor
  · intro id other hother
    rw [show (_ : PolicyTables).policies[id]? = _ from policies_put tables _ record id, if_neg,
      hother]
    rintro rfl
    exact hnew (h.policy hother).2.2
  · intro id other hother
    rw [show (_ : PolicyTables).rosters[id]? = _ from rosters_put tables _ record id, if_neg,
      hother]
    rintro rfl
    exact hnew (h.roster hother).2

/-- The tables take a version of a stored policy that keeps the designators. -/
theorem Sound.update_of_stored (h : tables.Sound) {policy current : Policy}
    (hstored : tables.byId? policy.id = some current) (hkey : policy.key = current.key)
    (hobject : policy.object = current.object) (update : RosterUpdate) :
    PolicyTables.update policy update tables = .ok ((), tables.put policy update.record) := by
  have hfree : tables.conflict? policy = none := by
    refine List.findSome?_eq_none_iff.2 fun other hother => ?_
    obtain ⟨otherId, hother⟩ := Table.mem_rows.1 hother
    have hown := (h.policy hother).1
    by_cases hsame : other.id = policy.id
    · rw [sharedDesignator?, if_pos hsame]
    -- a rival with a designator of the policy would have its number
    have hobjects : sharedDesignator?.sharedObject? other policy.object = none := by
      cases hobject' : policy.object with
      | none => rfl
      | some object =>
        refine if_neg fun hrival => hsame (hown.trans ?_)
        exact h.object hother hstored hrival (hobject.symm.trans hobject')
    rw [sharedDesignator?, if_neg hsame]
    cases hkey' : policy.key with
    | none => exact hobjects
    | some key =>
      refine (if_neg fun hrival => hsame (hown.trans ?_)).trans hobjects
      exact h.key hother hstored hrival (hkey.symm.trans hkey')
  unfold PolicyTables.update
  rw [hstored, hfree]

/-- Storing a known policy anew keeps the rules, and is no news if its designators and its age
stay. -/
theorem Sound.update (h : tables.Sound) {policy : Policy} {update : RosterUpdate}
    (hupdate : PolicyTables.update policy update tables = .ok ((), tables')) :
    tables'.Sound ∧
      ((∀ before, tables.policies[policy.id]? = some before → policy.key = before.key ∧
        policy.object = before.object ∧ policy.createdAt = before.createdAt) →
          tables.Later tables') := by
  obtain ⟨⟨before, hbefore⟩, hconflict, rfl⟩ := update_eq_ok hupdate
  obtain ⟨-, hid⟩ := h.policy hbefore
  refine ⟨h.put update.record hconflict hid (UInt64.le_refl _) (.inl rfl), fun hsame => ?_⟩
  refine ⟨UInt64.le_refl _, fun {id policy'} hpolicy => .inl ?_⟩
  rw [policies_put] at hpolicy
  split at hpolicy
  · rename_i heq
    cases hpolicy
    cases heq
    exact ⟨before, hbefore, hsame before hbefore⟩
  · exact ⟨policy', hpolicy, rfl, rfl, rfl⟩

/-- The tables stay sound when a policy is deleted. -/
theorem Sound.delete (h : tables.Sound) {id : UInt64}
    (hdelete : PolicyTables.delete id tables = .ok ((), tables')) :
    tables'.Sound ∧ tables.Later tables' := by
  obtain ⟨-, rfl⟩ := delete_eq_ok hdelete
  -- whatever is still stored was stored before
  exact ⟨⟨fun hpolicy => h.policy (Table.of_lookup_erase hpolicy),
    fun hrecord => h.roster (Table.of_lookup_erase hrecord),
    fun hone htwo => h.key (Table.of_lookup_erase hone) (Table.of_lookup_erase htwo),
    fun hone htwo => h.object (Table.of_lookup_erase hone) (Table.of_lookup_erase htwo)⟩,
    UInt64.le_refl _, fun hpolicy => .inl ⟨_, Table.of_lookup_erase hpolicy, rfl, rfl, rfl⟩⟩

end PolicyTables

/-! ### Groups -/

namespace GroupTables

variable {tables tables' : GroupTables}

/-- The tables keep their rules. -/
structure Sound (tables : GroupTables) : Prop where
  group {id : UInt64} {group : Group} : tables.groups[id]? = some group →
    group.id = id ∧ id ≠ 0 ∧ id ≤ tables.lastId
  relation {relation : Relation} : relation ∈ tables.relations →
    relation.groupId ≤ tables.lastId

/-- A group stored at a later moment is new, or has its kind and its age from before. -/
structure Later (tables tables' : GroupTables) : Prop where
  lastId : tables.lastId ≤ tables'.lastId
  group {id : UInt64} {group : Group} : tables'.groups[id]? = some group →
    (∃ before, tables.groups[id]? = some before ∧ group.kind? = before.kind? ∧
      group.createdAt = before.createdAt) ∨ tables.lastId < id

theorem Later.refl (tables : GroupTables) : tables.Later tables :=
  ⟨UInt64.le_refl _, fun {_ group} h => .inl ⟨group, h, rfl, rfl⟩⟩

theorem Later.trans {tables'' : GroupTables} (h : tables.Later tables')
    (h' : tables'.Later tables'') : tables.Later tables'' := by
  refine ⟨UInt64.le_trans h.lastId h'.lastId, fun hgroup => ?_⟩
  obtain ⟨before, hbefore, hkind, hage⟩ | hnew := h'.group hgroup
  · obtain ⟨first, hfirst, hkind', hage'⟩ | hnew := h.group hbefore
    · exact .inl ⟨first, hfirst, hkind.trans hkind', hage.trans hage'⟩
    · exact .inr hnew
  · exact .inr (UInt64.lt_of_le_of_lt h.lastId hnew)

theorem byKey?_eq_some {key : String} {group : Group} (h : tables.byKey? key = some group) :
    ∃ id : UInt64, tables.groups[id]? = some group :=
  Table.mem_rows.1 (List.mem_of_find?_eq_some h)

theorem byName?_eq_some {name : String} {group : Group} (h : tables.byName? name = some group) :
    ∃ id : UInt64, tables.groups[id]? = some group :=
  Table.mem_rows.1 (List.mem_of_find?_eq_some h)

/-- A group is put under the next number, or under the one it has. -/
theorem upsert_eq_ok {group stored : Group} (h : upsert group tables = .ok (stored, tables')) :
    (group.id = 0 ∧ stored = { group with id := tables.lastId + 1 } ∧
      tables' = { tables with
        lastId := tables.lastId + 1, groups := tables.groups.insert stored.id stored }) ∨
    (group.id ≠ 0 ∧ (∃ before, tables.groups[group.id]? = some before) ∧ stored = group ∧
      tables' = { tables with groups := tables.groups.insert stored.id stored }) := by
  unfold upsert at h
  split at h
  · cases h
  · split at h
    · rename_i hzero
      cases h
      exact .inl ⟨hzero, rfl, rfl⟩
    · rename_i hid
      split at h
      · cases h
      · rename_i before hbefore
        cases h
        exact .inr ⟨hid, ⟨before, hbefore⟩, rfl, rfl⟩

/-- No other group had the key of a group that was stored. -/
theorem keyTaken_of_upsert {group stored : Group}
    (h : upsert group tables = .ok (stored, tables')) : tables.keyTaken group = false := by
  unfold upsert at h
  split at h
  · cases h
  · rename_i hfree
    exact Bool.eq_false_iff.2 hfree

/-- A group is stored only if no other group has its key. -/
theorem keyFree_of_upsert {group stored other : Group}
    (h : upsert group tables = .ok (stored, tables')) {id : UInt64}
    (hother : tables.groups[id]? = some other) (hkey : other.key = stored.key) :
    other.id = group.id := by
  have hstored : stored.key = group.key := by
    obtain ⟨-, rfl, -⟩ | ⟨-, -, rfl, -⟩ := upsert_eq_ok h <;> rfl
  have hfree := List.any_eq_false.1 (keyTaken_of_upsert h) other (Table.mem_rows.2 ⟨id, hother⟩)
  simpa [hkey, hstored] using hfree

/-- A group is stored under its own number, and no other row is touched. -/
theorem groups_of_upsert {group stored : Group} (h : upsert group tables = .ok (stored, tables'))
    (id : UInt64) :
    tables'.groups[id]? = if stored.id = id then some stored else tables.groups[id]? := by
  obtain ⟨-, -, rfl⟩ | ⟨-, -, -, rfl⟩ := upsert_eq_ok h <;> exact lookup_insert _ _ _ _

theorem relations_of_upsert {group stored : Group}
    (h : upsert group tables = .ok (stored, tables')) : tables'.relations = tables.relations := by
  obtain ⟨-, -, rfl⟩ | ⟨-, -, -, rfl⟩ := upsert_eq_ok h <;> rfl

theorem delete_eq_ok {id : UInt64} (h : delete id tables = .ok ((), tables')) :
    tables' = { tables with groups := tables.groups.erase id } := by
  unfold delete at h
  split at h <;> cases h
  rfl

/-- A membership is stored only in a stored group. -/
theorem relate_eq_ok {groupId : UInt64} {asset : Actor}
    (h : relate groupId asset tables = .ok ((), tables')) :
    (∃ group, tables.groups[groupId]? = some group) ∧
      tables' = { tables with relations := tables.relations.insert ⟨groupId, asset⟩ } := by
  unfold relate at h
  split at h
  · cases h
  · rename_i group hgroup
    cases h
    exact ⟨⟨group, hgroup⟩, rfl⟩

/-! ### Operations on groups -/

/-- A group gets a new number, or keeps the one of a stored group. -/
theorem Sound.stored_of_upsert (h : tables.Sound) {group stored : Group}
    (hroom : group.id = 0 → tables.lastId.toNat + 1 < UInt64.size)
    (hupsert : upsert group tables = .ok (stored, tables')) :
    tables.lastId ≤ tables'.lastId ∧ stored.id ≠ 0 ∧ stored.id ≤ tables'.lastId ∧
      ((∃ before, tables.groups[stored.id]? = some before) ∨ tables.lastId < stored.id) := by
  obtain ⟨hnew, rfl, rfl⟩ | ⟨-, ⟨before, hbefore⟩, rfl, rfl⟩ := upsert_eq_ok hupsert
  · have hlt := lt_next (hroom hnew)
    exact ⟨UInt64.le_of_lt hlt, next_ne_zero (hroom hnew), UInt64.le_refl _, .inr hlt⟩
  · obtain ⟨-, hzero, hle⟩ := h.group hbefore
    exact ⟨UInt64.le_refl _, hzero, hle, .inl ⟨before, hbefore⟩⟩

/-- A group stored after that was stored before, or has a new number. -/
theorem Sound.old_or_new_of_upsert (h : tables.Sound) {group stored other : Group} {id : UInt64}
    (hroom : group.id = 0 → tables.lastId.toNat + 1 < UInt64.size)
    (hupsert : upsert group tables = .ok (stored, tables'))
    (hother : tables'.groups[id]? = some other) :
    (∃ before, tables.groups[id]? = some before) ∨ tables.lastId < id := by
  rw [groups_of_upsert hupsert] at hother
  split at hother
  · rename_i heq
    rw [← heq]
    exact (h.stored_of_upsert hroom hupsert).2.2.2
  · exact .inl ⟨other, hother⟩

/-- Storing a group keeps the rules, as long as there is a number for a new one, and is no news
if a stored one keeps its kind and its age. -/
theorem Sound.upsert (h : tables.Sound) {group stored : Group}
    (hroom : group.id = 0 → tables.lastId.toNat + 1 < UInt64.size)
    (hupsert : upsert group tables = .ok (stored, tables')) :
    tables'.Sound ∧
      ((∀ before, tables.groups[group.id]? = some before → group.kind? = before.kind? ∧
        group.createdAt = before.createdAt) → tables.Later tables') := by
  obtain ⟨hlast, hzero, hle, -⟩ := h.stored_of_upsert hroom hupsert
  refine ⟨⟨?_, ?_⟩, fun hsame => ⟨hlast, ?_⟩⟩
  · intro id other hother
    rw [groups_of_upsert hupsert] at hother
    split at hother
    · rename_i heq
      cases hother
      subst heq
      exact ⟨rfl, hzero, hle⟩
    · obtain ⟨hid, hother, hle'⟩ := h.group hother
      exact ⟨hid, hother, UInt64.le_trans hle' hlast⟩
  · intro relation hrelation
    rw [relations_of_upsert hupsert] at hrelation
    exact UInt64.le_trans (h.relation hrelation) hlast
  · -- every row is older than the change, and then of the same kind and age, or new
    intro id other hother
    obtain ⟨before, hbefore⟩ | hnew := h.old_or_new_of_upsert hroom hupsert hother
    · refine .inl ⟨before, hbefore, ?_⟩
      rw [groups_of_upsert hupsert] at hother
      split at hother
      · rename_i heq
        cases hother
        subst heq
        obtain ⟨hnew, rfl, -⟩ | ⟨-, -, rfl, -⟩ := upsert_eq_ok hupsert
        · exact absurd (h.group hbefore).2.2 (UInt64.not_le.2 (lt_next (hroom hnew)))
        · exact hsame before hbefore
      · cases hother.symm.trans hbefore
        exact ⟨rfl, rfl⟩
    · exact .inr hnew

/-- A new group takes nobody's place. -/
theorem Sound.upsert_keeps (h : tables.Sound) (hroom : tables.lastId.toNat + 1 < UInt64.size)
    {group stored : Group} (hnew : group.id = 0)
    (hupsert : GroupTables.upsert group tables = .ok (stored, tables')) {id : UInt64} {other : Group}
    (hother : tables.groups[id]? = some other) : tables'.groups[id]? = some other := by
  rw [groups_of_upsert hupsert, if_neg, hother]
  rintro rfl
  obtain ⟨-, rfl, -⟩ | ⟨hold, -⟩ := upsert_eq_ok hupsert
  · exact UInt64.not_le.2 (lt_next hroom) (h.group hother).2.2
  · exact hold hnew

theorem Sound.delete (h : tables.Sound) {id : UInt64}
    (hdelete : delete id tables = .ok ((), tables')) : tables'.Sound ∧ tables.Later tables' := by
  obtain rfl := delete_eq_ok hdelete
  exact ⟨⟨fun hgroup => h.group (Table.of_lookup_erase hgroup), h.relation⟩, UInt64.le_refl _,
    fun hgroup => .inl ⟨_, Table.of_lookup_erase hgroup, rfl, rfl⟩⟩

/-- The tables stay sound when a membership is stored. -/
theorem Sound.relate (h : tables.Sound) {groupId : UInt64} {asset : Actor}
    (hrelate : relate groupId asset tables = .ok ((), tables')) :
    tables'.Sound ∧ tables.Later tables' := by
  obtain ⟨⟨group, hgroup⟩, rfl⟩ := relate_eq_ok hrelate
  refine ⟨⟨h.group, fun {relation} hrelation => ?_⟩, UInt64.le_refl _, fun hother =>
    .inl ⟨_, hother, rfl, rfl⟩⟩
  obtain rfl | hold := mem_insert_iff.1 hrelation
  · exact (h.group hgroup).2.2
  · exact h.relation hold

theorem Sound.erase (h : tables.Sound) (relation : Relation) :
    Sound { tables with relations := tables.relations.erase relation } ∧
      tables.Later { tables with relations := tables.relations.erase relation } :=
  ⟨⟨h.group, fun hrelation => h.relation (Std.ExtTreeSet.mem_of_mem_erase hrelation)⟩,
    UInt64.le_refl _, fun hgroup => .inl ⟨_, hgroup, rfl, rfl⟩⟩

end GroupTables

/-! ### The store as a whole -/

namespace Store

/-- The store keeps its rules. -/
structure Sound (store : Store) : Prop where
  policies : store.policies.Sound
  groups : store.groups.Sound

theorem sound_empty : Sound {} where
  policies := {
    policy h := by simp at h
    roster h := by simp at h
    key h := by simp at h
    object h := by simp at h }
  groups := {
    group h := by simp at h
    relation h := by simp at h }

/-- What is stored at a later moment was stored before, or is new. -/
structure Later (store later : Store) : Prop where
  policies : store.policies.Later later.policies
  groups : store.groups.Later later.groups

theorem Later.refl (store : Store) : store.Later store :=
  ⟨.refl _, .refl _⟩

theorem Later.of_policies {store : Store} {policies : PolicyTables}
    (h : store.policies.Later policies) : store.Later { store with policies } :=
  ⟨h, .refl _⟩

theorem Later.of_groups {store : Store} {groups : GroupTables} (h : store.groups.Later groups) :
    store.Later { store with groups } :=
  ⟨.refl _, h⟩

theorem Later.trans {store later last : Store} (h : store.Later later) (h' : later.Later last) :
    store.Later last :=
  ⟨h.policies.trans h'.policies, h.groups.trans h'.groups⟩

/-- The store has so many numbers left for policies and for groups. -/
structure HasRoom (store : Store) (count : Nat) : Prop where
  policies : store.policies.lastId.toNat + count < UInt64.size
  groups : store.groups.lastId.toNat + count < UInt64.size

/-- There is always room for nothing. -/
theorem hasRoom_zero (store : Store) : store.HasRoom 0 :=
  ⟨UInt64.toNat_lt _, UInt64.toNat_lt _⟩

/-- Where there is room for many numbers there is room for fewer. -/
theorem HasRoom.mono {store : Store} {count fewer : Nat} (h : store.HasRoom count)
    (hle : fewer ≤ count) : store.HasRoom fewer :=
  ⟨Nat.lt_of_le_of_lt (Nat.add_le_add_left hle _) h.policies,
    Nat.lt_of_le_of_lt (Nat.add_le_add_left hle _) h.groups⟩

end Store

end AccessRights
