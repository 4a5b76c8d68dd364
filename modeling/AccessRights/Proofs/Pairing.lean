/-
AccessRights/Proofs/Pairing.lean

Policies and their rosters are stored together.

The tables of policies store and remove a roster with its policy, so a roster is
stored exactly under the numbers of stored policies.  A node that has its store
to itself finds exactly the policies that are stored, and where it finds a
policy it finds a roster.

Main results: `Reached.paired`, `Indexed.view_policy?` and `Sound.exists_roster?`.
-/
import AccessRights.Proofs.PolicyTree

namespace AccessRights

namespace PolicyTables

variable {tables tables' : PolicyTables}

/-- A roster is stored exactly where a policy is. -/
def Paired (tables : PolicyTables) : Prop :=
  ∀ id : UInt64, (tables.rosters[id]?).isSome = (tables.policies[id]?).isSome

theorem paired_empty : Paired {} := by
  intro id
  simp

/-- Both rows are written together. -/
theorem Paired.put (h : tables.Paired) (policy : Policy) (record : RosterRecord) :
    (tables.put policy record).Paired := by
  intro id
  rw [rosters_put, policies_put]
  split
  · rfl
  · exact h id

theorem Paired.create (h : tables.Paired) {policy : Policy} {record : RosterRecord}
    {stored : Policy × RosterRecord}
    (hcreate : PolicyTables.create policy record tables = .ok (stored, tables')) :
    tables'.Paired := by
  obtain ⟨-, -, -, rfl⟩ := create_eq_ok hcreate
  exact h.put _ record

theorem Paired.update (h : tables.Paired) {policy : Policy} {update : RosterUpdate}
    (hupdate : PolicyTables.update policy update tables = .ok ((), tables')) : tables'.Paired := by
  obtain ⟨-, -, rfl⟩ := update_eq_ok hupdate
  exact h.put _ _

/-- Both rows are removed together. -/
theorem Paired.delete (h : tables.Paired) {id : UInt64}
    (hdelete : PolicyTables.delete id tables = .ok ((), tables')) : tables'.Paired := by
  obtain ⟨-, rfl⟩ := delete_eq_ok hdelete
  intro other
  rw [lookup_erase, lookup_erase]
  split
  · rfl
  · exact h other

end PolicyTables

namespace Site

variable {rules : Rules} {licence : Licence} {n : Nat} {site after : Site} {id : UInt64}

/-! ### Policies and rosters of a site -/

/-- Every event keeps policies and rosters in pairs. -/
theorem Event.paired (h : site.Event licence n after)
    (hpaired : site.backend.store.policies.Paired) : after.backend.store.policies.Paired := by
  cases h with
  | learn learn => exact learn.still.store ▸ hpaired
  | policyStored _ created => exact hpaired.create created
  | policyUpdated _ _ _ updated => exact hpaired.update updated
  | policyDeleted deleted => exact hpaired.delete deleted
  | rosterBackedUp | rosterChanged | groupSlippedIn | groupStored | relationDropped | groupDeleted
  | related | unrelated | loaded | linked | regrouped => exact hpaired

/-- Whatever was asked of the node, and whatever the store failed to do, every stored policy has a
roster. -/
theorem Reached.paired (h : site.Reached rules) : site.backend.store.policies.Paired :=
  h.keeps (fun _ => PolicyTables.paired_empty) (fun _ hpaired => hpaired)
    (fun _ hpaired => hpaired) (fun hevent _ _ hpaired => hevent.paired hpaired)
    fun _ _ _ hpaired => hpaired

/-- A node that knows policies as they are stored finds the policies that are stored. -/
theorem Indexed.view_policy? (h : site.Indexed) (hsound : site.Sound) (id : UInt64) :
    site.view.policy? id = site.backend.store.policies.byId? id :=
  found_eq_stored (fun _ hstored => (hsound.store.policies.policy hstored).2.1) fun _ => h.policy

/-- Where a policy is stored, its roster is found. -/
theorem Sound.exists_roster? (hsound : site.Sound) (hpaired : site.backend.store.policies.Paired)
    {policy : Policy} (hstored : site.backend.store.policies.byId? id = some policy) :
    ∃ roster, site.roster? id = some roster := by
  have hid := (hsound.store.policies.policy hstored).2.1
  cases hlive : site.node.rosters[id]? with
  | some live => exact ⟨live, (roster?_of_live hlive).trans (if_neg hid)⟩
  | none =>
    have hrecord : (site.backend.store.policies.rosters[id]?).isSome = true := by
      rw [hpaired id]
      exact Option.isSome_iff_exists.2 ⟨policy, hstored⟩
    obtain ⟨record, hrecord⟩ := Option.isSome_iff_exists.1 hrecord
    have hown := (hsound.store.policies.roster hrecord).1
    exact ⟨.ofRecord record, (roster?_of_stored hlive hrecord hown).trans (if_neg hid)⟩

end Site

end AccessRights
