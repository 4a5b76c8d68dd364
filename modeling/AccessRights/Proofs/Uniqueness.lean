/-
AccessRights/Proofs/Uniqueness.lean

Keys and objects in a store that is written to directly.

Whoever has a store can hand it any values: policies and groups with whatever
numbers, keys and objects.  Every row is stored under the number that it carries
all the same.

Before a row is stored, the others are searched for its key and its object, and
whatever has its number is passed over.  That is right for a row that takes the
place of the one with its number.  A new policy however is given another number
than it came with.  The policy that was passed over stays beside it, and the two
may have a key or an object in common.  A new group comes with the number zero,
which no group has before the numbers run over.

Main results: `PolicyTables.Distinct.after_iff` and
`GroupTables.Distinct.after_iff` (a request), `distinct_run_iff` (a run) and
`not_forall_distinct`.
-/
import AccessRights.Proofs.Store
import Mathlib.Data.List.Induction

namespace AccessRights

/-! ### Rows that change their number -/

namespace Table

variable {Row Designator : Type} {table : Table Row} {designator : Row → Option Designator}
  {own id : UInt64} {row : Row}

/-- The row under the number that the given one came with has its designator, and stays when that
is stored under the other number. -/
def Doubles (table : Table Row) (designator : Row → Option Designator) (own id : UInt64)
    (row : Row) : Prop :=
  own ≠ id ∧ ∃ rival value, table[own]? = some rival ∧ designator row = some value ∧
    designator rival = some value

/-- A row with a designator that no other row has, stored under the other number, leaves designators
distinct exactly if it does not double one. -/
theorem Distinct.insert_iff_not_doubles (h : table.Distinct designator)
    (hfree : table.Free designator own row) {stored : Row}
    (hstored : designator stored = designator row) :
    Distinct (table.insert id stored) designator ↔ ¬ table.Doubles designator own id row := by
  rw [h.insert_iff]
  constructor
  · rintro hfree' ⟨hne, rival, value, hrival, hrow, hshared⟩
    exact hfree' hrival hne (hstored.trans hrow) hshared
  · intro hdoubles other rival value hrival hne hvalue hshared
    have hrow := hstored.symm.trans hvalue
    by_cases hother : other = own
    · subst hother
      exact hdoubles ⟨hne, rival, value, hrival, hrow, hshared⟩
    · exact hfree hrival hother hrow hshared

end Table

/-! ### Policies -/

/-- What can be asked of the stored policies, with whatever values. -/
inductive PolicyRequest where
  | create (policy : Policy) (record : RosterRecord)
  | update (policy : Policy) (update : RosterUpdate)
  | delete (id : UInt64)
  | byId (id : UInt64)
  | byKey (key : String)
  | byObject (object : PolicyObject)
  | roster (id : UInt64)

namespace PolicyTables

variable {tables tables' : PolicyTables} {policy stored : Policy}
  {record storedRecord : RosterRecord}

/-- What a request makes of the tables, unless it is refused. -/
def perform (tables : PolicyTables) : PolicyRequest → Except StoreError PolicyTables
  | .create policy record => (create policy record tables).map Prod.snd
  | .update policy update => (PolicyTables.update policy update tables).map Prod.snd
  | .delete id => (delete id tables).map Prod.snd
  | .byId _ | .byKey _ | .byObject _ | .roster _ => .ok tables

/-- The tables after a request; one that is refused leaves them alone. -/
def after (tables : PolicyTables) (request : PolicyRequest) : PolicyTables :=
  (tables.perform request).toOption.getD tables

/-- Every policy is stored under its number. -/
def Numbered (tables : PolicyTables) : Prop :=
  ∀ ⦃id : UInt64⦄ ⦃policy : Policy⦄, tables.policies[id]? = some policy → policy.id = id

/-- No two policies have a key or an object in common. -/
structure Distinct (tables : PolicyTables) : Prop where
  key : tables.policies.Distinct Policy.key
  object : tables.policies.Distinct Policy.object

/-- The request is to store a new policy, it is not refused, and the policy whose number the new one
came with stays beside it and has its key or its object. -/
def Doubles (tables : PolicyTables) : PolicyRequest → Prop
  | .create policy _ => tables.conflict? policy = none ∧
      (tables.policies.Doubles Policy.key policy.id (tables.lastId + 1) policy ∨
        tables.policies.Doubles Policy.object policy.id (tables.lastId + 1) policy)
  | _ => False

/-- What a request can have done to the tables. -/
inductive Asked (tables : PolicyTables) : PolicyRequest → PolicyTables → Prop
  | created {policy : Policy} {record : RosterRecord} {done : Policy × RosterRecord}
      {tables' : PolicyTables}
      (done : PolicyTables.create policy record tables = .ok (done, tables')) :
      Asked tables (.create policy record) tables'
  | updated {policy : Policy} {update : RosterUpdate} {tables' : PolicyTables}
      (done : PolicyTables.update policy update tables = .ok ((), tables')) :
      Asked tables (.update policy update) tables'
  | deleted {id : UInt64} {tables' : PolicyTables}
      (done : PolicyTables.delete id tables = .ok ((), tables')) :
      Asked tables (.delete id) tables'
  | kept {request : PolicyRequest} {tables' : PolicyTables} (same : tables' = tables)
      (harmless : ¬ tables.Doubles request) : Asked tables request tables'

theorem asked_after (tables : PolicyTables) (request : PolicyRequest) :
    tables.Asked request (tables.after request) := by
  unfold after
  cases request with
  | create policy record =>
    show tables.Asked _ (((create policy record tables).map Prod.snd).toOption.getD tables)
    cases hcreate : create policy record tables with
    | ok done => exact .created hcreate
    | error error =>
      refine .kept rfl fun hdoubles => ?_
      -- a policy that doubles another is not refused
      rw [create, hdoubles.1] at hcreate
      cases hcreate
  | update policy update =>
    show tables.Asked _ (((PolicyTables.update policy update tables).map Prod.snd).toOption.getD _)
    cases hupdate : PolicyTables.update policy update tables with
    | ok done => exact .updated hupdate
    | error error => exact .kept rfl id
  | delete policyId =>
    show tables.Asked _ (((delete policyId tables).map Prod.snd).toOption.getD tables)
    cases hdelete : delete policyId tables with
    | ok done => exact .deleted hdelete
    | error error => exact .kept rfl id
  | byId | byKey | byObject | roster => exact .kept rfl id

/-- A policy without a conflict has nothing in common with those of other numbers. -/
theorem Numbered.free (h : tables.Numbered) (hconflict : tables.conflict? policy = none) :
    tables.policies.Free Policy.key policy.id policy ∧
      tables.policies.Free Policy.object policy.id policy := by
  constructor
  · intro other rival key hrival hne
    exact (conflict?_eq_none hconflict hrival (h hrival ▸ hne)).1 key
  · intro other rival object hrival hne
    exact (conflict?_eq_none hconflict hrival (h hrival ▸ hne)).2 object

theorem Numbered.put (h : tables.Numbered) (policy : Policy) (record : RosterRecord) :
    (tables.put policy record).Numbered := by
  intro id row hrow
  rw [policies_put] at hrow
  split at hrow
  · cases hrow
    assumption
  · exact h hrow

/-- Whatever is asked, policies stay under their numbers. -/
theorem Numbered.after (h : tables.Numbered) (request : PolicyRequest) :
    (tables.after request).Numbered := by
  cases tables.asked_after request with
  | @created policy record _ _ done =>
    obtain ⟨-, -, -, hafter⟩ := create_eq_ok done
    rw [hafter]
    exact h.put _ record
  | updated done =>
    obtain ⟨-, -, hafter⟩ := update_eq_ok done
    rw [hafter]
    exact h.put _ _
  | deleted done =>
    obtain ⟨-, hafter⟩ := delete_eq_ok done
    rw [hafter]
    exact fun _ _ hpolicy => h (Table.of_lookup_erase hpolicy)
  | kept same => rwa [same]

/-- A new policy leaves keys and objects distinct exactly if it does not double the policy whose
number it came with. -/
theorem Distinct.create_iff (h : tables.Distinct) (hnumbered : tables.Numbered)
    (hcreate : PolicyTables.create policy record tables = .ok ((stored, storedRecord), tables')) :
    tables'.Distinct ↔ ¬ tables.Doubles (.create policy record) := by
  obtain ⟨hconflict, hstored, -, rfl⟩ := create_eq_ok hcreate
  obtain ⟨hkey, hobject⟩ := hnumbered.free hconflict
  have hid : tables.lastId + 1 = stored.id := by rw [hstored]
  have hsameKey : stored.key = policy.key := by rw [hstored]
  have hsameObject : stored.object = policy.object := by rw [hstored]
  show _ ↔ ¬ (_ ∧ (_ ∨ _))
  rw [and_iff_right hconflict, not_or, hid, ← h.key.insert_iff_not_doubles hkey hsameKey,
    ← h.object.insert_iff_not_doubles hobject hsameObject]
  exact ⟨fun h => ⟨h.key, h.object⟩, fun h => ⟨h.1, h.2⟩⟩

theorem Distinct.update (h : tables.Distinct) (hnumbered : tables.Numbered) {update : RosterUpdate}
    (hupdate : PolicyTables.update policy update tables = .ok ((), tables')) :
    tables'.Distinct := by
  obtain ⟨-, hconflict, rfl⟩ := update_eq_ok hupdate
  obtain ⟨hkey, hobject⟩ := hnumbered.free hconflict
  exact ⟨h.key.insert_iff.2 hkey, h.object.insert_iff.2 hobject⟩

theorem Distinct.delete (h : tables.Distinct) {id : UInt64}
    (hdelete : PolicyTables.delete id tables = .ok ((), tables')) : tables'.Distinct := by
  obtain ⟨-, rfl⟩ := delete_eq_ok hdelete
  exact ⟨h.key.erase id, h.object.erase id⟩

/-- A request leaves keys and objects distinct exactly if it doubles no policy. -/
theorem Distinct.after_iff (h : tables.Distinct) (hnumbered : tables.Numbered)
    (request : PolicyRequest) : (tables.after request).Distinct ↔ ¬ tables.Doubles request := by
  cases tables.asked_after request with
  | created done => exact h.create_iff hnumbered done
  | updated done => exact iff_of_true (h.update hnumbered done) id
  | deleted done => exact iff_of_true (h.delete done) id
  | kept same harmless =>
    rw [same]
    exact iff_of_true h harmless

end PolicyTables

/-! ### Groups -/

/-- What can be asked of the stored groups and memberships, with whatever values. -/
inductive GroupRequest where
  | upsert (group : Group)
  | delete (id : UInt64)
  | relate (groupId : UInt64) (asset : Actor)
  | unrelate (groupId : UInt64) (asset : Actor)
  | byId (id : UInt64)
  | byKey (key : String)
  | byName (name : String)
  | all
  | children (parentId : UInt64)
  | allRelations
  | isRelated (groupId : UInt64) (asset : Actor)

namespace GroupTables

variable {tables tables' : GroupTables} {group stored : Group}

/-- What a request makes of the tables, unless it is refused. -/
def perform (tables : GroupTables) : GroupRequest → Except StoreError GroupTables
  | .upsert group => (upsert group tables).map Prod.snd
  | .delete id => (delete id tables).map Prod.snd
  | .relate groupId asset => (relate groupId asset tables).map Prod.snd
  | .unrelate groupId asset => (unrelate groupId asset tables).map Prod.snd
  | .byId _ | .byKey _ | .byName _ | .all | .children _ | .allRelations | .isRelated .. =>
    .ok tables

/-- The tables after a request; one that is refused leaves them alone. -/
def after (tables : GroupTables) (request : GroupRequest) : GroupTables :=
  (tables.perform request).toOption.getD tables

/-- Every group is stored under its number. -/
def Numbered (tables : GroupTables) : Prop :=
  ∀ ⦃id : UInt64⦄ ⦃group : Group⦄, tables.groups[id]? = some group → group.id = id

/-- No two groups have a key in common. -/
def Distinct (tables : GroupTables) : Prop :=
  tables.groups.Distinct fun group => some group.key

/-- The request is to store a new group, it is not refused, and a group of the number zero stays
beside the new one and has its key. -/
def Doubles (tables : GroupTables) : GroupRequest → Prop
  | .upsert group => group.id = 0 ∧ tables.keyTaken group = false ∧
      tables.groups.Doubles (fun group => some group.key) 0 (tables.lastId + 1) group
  | _ => False

/-- What a request can have done to the tables. -/
inductive Asked (tables : GroupTables) : GroupRequest → GroupTables → Prop
  | upserted {group stored : Group} {tables' : GroupTables}
      (done : upsert group tables = .ok (stored, tables')) :
      Asked tables (.upsert group) tables'
  | deleted {id : UInt64} {tables' : GroupTables}
      (done : GroupTables.delete id tables = .ok ((), tables')) :
      Asked tables (.delete id) tables'
  | related {groupId : UInt64} {asset : Actor} {tables' : GroupTables}
      (done : relate groupId asset tables = .ok ((), tables')) :
      Asked tables (.relate groupId asset) tables'
  | unrelated {groupId : UInt64} {asset : Actor} :
      Asked tables (.unrelate groupId asset)
        { tables with relations := tables.relations.erase ⟨groupId, asset⟩ }
  | kept {request : GroupRequest} {tables' : GroupTables} (same : tables' = tables)
      (harmless : ¬ tables.Doubles request) : Asked tables request tables'

theorem asked_after (tables : GroupTables) (request : GroupRequest) :
    tables.Asked request (tables.after request) := by
  unfold after
  cases request with
  | upsert group =>
    show tables.Asked _ (((upsert group tables).map Prod.snd).toOption.getD tables)
    cases hupsert : upsert group tables with
    | ok done => exact .upserted hupsert
    | error error =>
      refine .kept rfl fun hdoubles => ?_
      -- a group that doubles another is not refused
      obtain ⟨hzero, htaken, -⟩ := hdoubles
      rw [upsert, htaken, if_neg Bool.false_ne_true, if_pos hzero] at hupsert
      cases hupsert
  | delete groupId =>
    show tables.Asked _ (((delete groupId tables).map Prod.snd).toOption.getD tables)
    cases hdelete : delete groupId tables with
    | ok done => exact .deleted hdelete
    | error error => exact .kept rfl id
  | relate groupId asset =>
    show tables.Asked _ (((relate groupId asset tables).map Prod.snd).toOption.getD tables)
    cases hrelate : relate groupId asset tables with
    | ok done => exact .related hrelate
    | error error => exact .kept rfl id
  | unrelate => exact .unrelated
  | byId | byKey | byName | all | children | allRelations | isRelated => exact .kept rfl id

/-- Whatever is asked, groups stay under their numbers. -/
theorem Numbered.after (h : tables.Numbered) (request : GroupRequest) :
    (tables.after request).Numbered := by
  cases tables.asked_after request with
  | upserted done =>
    intro id row hrow
    rw [groups_of_upsert done] at hrow
    split at hrow
    · cases hrow
      assumption
    · exact h hrow
  | deleted done =>
    rw [delete_eq_ok done]
    exact fun _ _ hgroup => h (Table.of_lookup_erase hgroup)
  | related done =>
    obtain ⟨-, hafter⟩ := relate_eq_ok done
    rw [hafter]
    exact h
  | unrelated => exact h
  | kept same => rwa [same]

/-- A group leaves keys distinct exactly if it does not double one of the number zero. -/
theorem Distinct.upsert_iff (h : tables.Distinct) (hnumbered : tables.Numbered)
    (hupsert : upsert group tables = .ok (stored, tables')) :
    tables'.Distinct ↔ ¬ tables.Doubles (.upsert group) := by
  have hfree : tables.groups.Free (fun group => some group.key) group.id stored := by
    intro other rival key hrival hne hkey hshared
    refine hne ((hnumbered hrival).symm.trans (keyFree_of_upsert hupsert hrival ?_))
    exact (Option.some.inj hshared).trans (Option.some.inj hkey).symm
  have htaken := keyTaken_of_upsert hupsert
  obtain ⟨hzero, rfl, rfl⟩ | ⟨hid, -, rfl, rfl⟩ := upsert_eq_ok hupsert
  · rw [hzero] at hfree
    show _ ↔ ¬ (_ ∧ _ ∧ _)
    rw [and_iff_right hzero, and_iff_right htaken]
    exact Table.Distinct.insert_iff_not_doubles h hfree rfl
  · exact iff_of_true (h.insert_iff.2 hfree) fun hdoubles => hid hdoubles.1

/-- A request leaves keys distinct exactly if it doubles no group. -/
theorem Distinct.after_iff (h : tables.Distinct) (hnumbered : tables.Numbered)
    (request : GroupRequest) : (tables.after request).Distinct ↔ ¬ tables.Doubles request := by
  cases tables.asked_after request with
  | upserted done => exact h.upsert_iff hnumbered done
  | deleted done =>
    rw [delete_eq_ok done]
    exact iff_of_true (h.erase _) id
  | related done =>
    obtain ⟨-, hafter⟩ := relate_eq_ok done
    rw [hafter]
    exact iff_of_true h id
  | unrelated => exact iff_of_true h id
  | kept same harmless =>
    rw [same]
    exact iff_of_true h harmless

/-- As long as there are numbers, no group has the number zero, and each request takes at most
one. -/
theorem Sound.after (h : tables.Sound) (hroom : tables.lastId.toNat + 1 < UInt64.size)
    (request : GroupRequest) :
    (tables.after request).Sound ∧
      (tables.after request).lastId.toNat ≤ tables.lastId.toNat + 1 := by
  cases tables.asked_after request with
  | upserted done =>
    refine ⟨(h.upsert (fun _ => hroom) done).1, ?_⟩
    obtain ⟨-, -, hafter⟩ | ⟨-, -, -, hafter⟩ := upsert_eq_ok done
    · rw [hafter]
      exact Nat.le_of_eq (toNat_next hroom)
    · rw [hafter]
      exact Nat.le_succ _
  | deleted done =>
    refine ⟨(h.delete done).1, ?_⟩
    rw [delete_eq_ok done]
    exact Nat.le_succ _
  | related done =>
    obtain ⟨-, hafter⟩ := relate_eq_ok done
    refine ⟨(h.relate done).1, ?_⟩
    rw [hafter]
    exact Nat.le_succ _
  | unrelated => exact ⟨(h.erase _).1, Nat.le_succ _⟩
  | kept same =>
    rw [same]
    exact ⟨h, Nat.le_succ _⟩

theorem Sound.not_doubles (h : tables.Sound) (request : GroupRequest) :
    ¬ tables.Doubles request := by
  cases request with
  | upsert group =>
    rintro ⟨-, -, -, rival, -, hrival, -⟩
    exact (h.group hrival).2.1 rfl
  | delete | relate | unrelate | byId | byKey | byName | all | children | allRelations
  | isRelated => exact id

end GroupTables

/-! ### Runs -/

/-- What can be asked of a store directly. -/
inductive StoreRequest where
  | policies (request : PolicyRequest)
  | groups (request : GroupRequest)

namespace Store

variable {store : Store}

/-- The store after a request. -/
def after (store : Store) : StoreRequest → Store
  | .policies request => { store with policies := store.policies.after request }
  | .groups request => { store with groups := store.groups.after request }

/-- The store after some requests. -/
def run (store : Store) (requests : List StoreRequest) : Store :=
  requests.foldl after store

theorem run_concat (store : Store) (requests : List StoreRequest) (request : StoreRequest) :
    store.run (requests ++ [request]) = (store.run requests).after request :=
  List.foldl_append

/-- The request is to store a policy that doubles another. -/
def DoublesPolicy (store : Store) : StoreRequest → Prop
  | .policies request => store.policies.Doubles request
  | .groups _ => False

/-- The request is to store a group that doubles another. -/
def DoublesGroup (store : Store) : StoreRequest → Prop
  | .policies _ => False
  | .groups request => store.groups.Doubles request

theorem policies_after_iff (hnumbered : store.policies.Numbered) (h : store.policies.Distinct)
    (request : StoreRequest) :
    (store.after request).policies.Distinct ↔ ¬ store.DoublesPolicy request := by
  cases request with
  | policies request => exact h.after_iff hnumbered request
  | groups request => exact iff_of_true h id

theorem groups_after_iff (hnumbered : store.groups.Numbered) (h : store.groups.Distinct)
    (request : StoreRequest) :
    (store.after request).groups.Distinct ↔ ¬ store.DoublesGroup request := by
  cases request with
  | policies request => exact iff_of_true h id
  | groups request => exact h.after_iff hnumbered request

/-- Whatever is asked, rows stay under their numbers. -/
theorem numbered_run (hpolicies : store.policies.Numbered) (hgroups : store.groups.Numbered)
    (requests : List StoreRequest) :
    (store.run requests).policies.Numbered ∧ (store.run requests).groups.Numbered := by
  induction requests generalizing store with
  | nil => exact ⟨hpolicies, hgroups⟩
  | cons request requests ih =>
    cases request with
    | policies request => exact ih (hpolicies.after request) hgroups
    | groups request => exact ih hpolicies (hgroups.after request)

/-- What every request keeps unless it is a breach is kept throughout exactly by the runs without
a breach. -/
theorem kept_iff (store : Store) (kept : Store → Prop) (breach : Store → StoreRequest → Prop)
    (hstart : kept store)
    (hstep : ∀ before request, kept (store.run before) →
      (kept ((store.run before).after request) ↔ ¬ breach (store.run before) request))
    (requests : List StoreRequest) :
    (∀ before, before <+: requests → kept (store.run before)) ↔
      ∀ before request, before ++ [request] <+: requests → ¬ breach (store.run before) request := by
  constructor
  · intro h before request hpart
    have hbefore := h before ((List.prefix_append before [request]).trans hpart)
    exact (hstep before request hbefore).1 (run_concat .. ▸ h _ hpart)
  · intro h before
    induction before using List.reverseRecOn with
    | nil => exact fun _ => hstart
    | append_singleton before request ih =>
      intro hpart
      have hbefore := ih ((List.prefix_append before [request]).trans hpart)
      rw [run_concat]
      exact (hstep before request hbefore).2 (h before request hpart)

/-- The groups of a new store are sound after less requests than there are numbers. -/
theorem sound_groups_run (requests : List StoreRequest) (hroom : requests.length < UInt64.size) :
    (run {} requests).groups.Sound ∧ (run {} requests).groups.lastId.toNat ≤ requests.length := by
  induction requests using List.reverseRecOn with
  | nil => exact ⟨sound_empty.groups, Nat.le_refl _⟩
  | append_singleton before request ih =>
    rw [List.length_append, List.length_singleton] at hroom ⊢
    obtain ⟨hsound, hlast⟩ := ih (by omega)
    rw [run_concat]
    cases request with
    | policies request => exact ⟨hsound, Nat.le_succ_of_le hlast⟩
    | groups request =>
      obtain ⟨hsound', hlast'⟩ := hsound.after (by omega) request
      exact ⟨hsound', Nat.le_trans hlast' (Nat.succ_le_succ hlast)⟩

/-- A new store holds nothing that could be alike. -/
theorem distinct_empty : PolicyTables.Distinct {} ∧ GroupTables.Distinct {} := by
  refine ⟨⟨fun id other row rival value hrow => ?_, fun id other row rival value hrow => ?_⟩,
    fun id other row rival value hrow => ?_⟩ <;> simp at hrow

/-- Whatever a new store is asked, keys and objects of policies stay distinct exactly until a new
policy doubles the one whose number it came with, and keys of groups exactly until a new group
doubles one of the number zero, which takes as many requests as there are numbers. -/
theorem distinct_run_iff (requests : List StoreRequest) :
    ((∀ before, before <+: requests → (run {} before).policies.Distinct) ↔
      ∀ before request, before ++ [request] <+: requests →
        ¬ (run {} before).DoublesPolicy request) ∧
    ((∀ before, before <+: requests → (run {} before).groups.Distinct) ↔
      ∀ before request, before ++ [request] <+: requests →
        ¬ (run {} before).DoublesGroup request) ∧
    (requests.length < UInt64.size →
      ∀ before, before <+: requests → (run {} before).groups.Distinct) := by
  have hnumbered (before : List StoreRequest) :
      (run {} before).policies.Numbered ∧ (run {} before).groups.Numbered :=
    numbered_run (fun _ _ hrow => by simp at hrow) (fun _ _ hrow => by simp at hrow) before
  -- each list is distinct as long as no request doubles a row, which groups never do in time
  have hgroups := kept_iff {} (fun store => store.groups.Distinct) DoublesGroup distinct_empty.2
    (fun before request h => groups_after_iff (hnumbered before).2 h request) requests
  refine ⟨kept_iff {} (fun store => store.policies.Distinct) DoublesPolicy distinct_empty.1
    (fun before request h => policies_after_iff (hnumbered before).1 h request) requests,
    hgroups, fun hroom => hgroups.2 fun before request hpart => ?_⟩
  have hlength := hpart.length_le
  rw [List.length_append] at hlength
  cases request with
  | policies => exact id
  | groups request => exact (sound_groups_run before (by omega)).1.not_doubles request

/-- A policy, and another one that is handed in as new under the number of the first. -/
def copied : List StoreRequest :=
  [.policies (.create { (default : Policy) with key := some "doc" } (.empty 0)),
    .policies (.create { (default : Policy) with id := 1, key := some "doc" } (.empty 0))]

/-- A store that is written to directly can have two policies of one key. -/
theorem not_forall_distinct : ¬ ∀ requests : List StoreRequest,
    (run {} requests).policies.Distinct ∧ (run {} requests).groups.Distinct := by
  intro h
  have hkey : ((run {} copied).policies.byId? 1).bind Policy.key = some "doc" := by decide +kernel
  have hkey' : ((run {} copied).policies.byId? 2).bind Policy.key = some "doc" := by decide +kernel
  obtain ⟨one, hone, hkey⟩ := Option.bind_eq_some_iff.1 hkey
  obtain ⟨two, htwo, hkey'⟩ := Option.bind_eq_some_iff.1 hkey'
  exact absurd ((h copied).1.key hone htwo hkey hkey') (by decide)

end Store

end AccessRights
