/-
AccessRights/Proofs/Edits.lean

What can be done to a site, whatever is in it.

Nothing is assumed about the store, which anybody may have filled, nor about what the
node has read.  `GroupIndex.Edit` lists what can be done to an index of groups, and
`Site.Edit` what can be done to a site: the index of groups is edited, policies that
are stored are taken in, policies are stored, and forgotten when they are removed.
What happens to the rest of the memory and of the store is left open.  So an invariant
of either need only be checked for these edits.

Main results: `keeps_of_steps`, `Site.Edited.groups` and `Backend.edits_createPolicy` (a call
of the store).
-/
import AccessRights.Proofs.Backend
import AccessRights.Site
import Mathlib.Logic.Relation

namespace AccessRights

/-- What every step keeps, any number of steps keep. -/
theorem keeps_of_steps {State : Type} {step : State → State → Prop} {holds : State → Prop}
    {before after : State} (h : Relation.ReflTransGen step before after)
    (hstep : ∀ {before after : State}, step before after → holds before → holds after)
    (hbefore : holds before) : holds after := by
  induction h with
  | refl => exact hbefore
  | tail _ last ih => exact hstep last ih

/-! ### Edits of an index -/

namespace GroupIndex

/-- What can be done to an index of groups. -/
inductive Edit (index : GroupIndex) : GroupIndex → Prop
  | insert (group : Group) : Edit index (index.insert group)
  | remove (id : UInt64) : Edit index (index.remove id)
  | link (groupId : UInt64) (asset : Actor) : Edit index (index.link groupId asset)
  | unlink (groupId : UInt64) (asset : Actor) : Edit index (index.unlink groupId asset)
  | build (groups : List Group) (relations : List Relation) : Edit index (.build groups relations)

/-- What some edits make of an index, one after the other. -/
abbrev Edited : GroupIndex → GroupIndex → Prop :=
  Relation.ReflTransGen Edit

end GroupIndex

/-! ### Edits of a site -/

namespace Site

/-- The site with other policies in the store. -/
def withPolicies (site : Site) (policies : PolicyTables) : Site :=
  { site with backend := { site.backend with store := { site.backend.store with policies } } }

/-- What can be done to a site. -/
inductive Edit (site : Site) : Site → Prop
  /-- The memory changes, but for the indexes. -/
  | noted (node : Node) (groups : node.groups = site.node.groups)
      (policies : node.policies = site.node.policies) : Edit site { site with node }
  /-- The index of groups is edited. -/
  | regrouped {index : GroupIndex} (edit : site.node.groups.Edit index) :
      Edit site { site with node := { site.node with groups := index } }
  /-- A stored policy is taken in. -/
  | takenIn {id : UInt64} {policy : Policy}
      (stored : site.backend.store.policies.policies[id]? = some policy) :
      Edit site { site with node := { site.node with
        policies := site.node.policies.insert policy } }
  /-- The store changes, but for the policies, and no faults are planned. -/
  | served (backend : Backend) (policies : backend.store.policies = site.backend.store.policies)
      (calm : site.backend.faults = [] → backend.faults = []) : Edit site { site with backend }
  /-- A new policy is stored. -/
  | created {policy : Policy} {record : RosterRecord} {stored : Policy × RosterRecord}
      {policies : PolicyTables} (created : PolicyTables.create policy record
        site.backend.store.policies = .ok (stored, policies)) :
      Edit site (site.withPolicies policies)
  /-- A policy is stored anew. -/
  | updated {policy : Policy} {update : RosterUpdate} {policies : PolicyTables}
      (updated : PolicyTables.update policy update site.backend.store.policies =
        .ok ((), policies)) : Edit site (site.withPolicies policies)
  /-- A policy is removed and forgotten. -/
  | deleted {id : UInt64} {policies : PolicyTables}
      (deleted : PolicyTables.delete id site.backend.store.policies = .ok ((), policies)) :
      Edit site { site.withPolicies policies with node := { site.node with
        policies := site.node.policies.remove id } }

/-- What some edits make of a site, one after the other. -/
abbrev Edited : Site → Site → Prop :=
  Relation.ReflTransGen Edit

variable {site after : Site}

/-- The index of groups is edited, and nothing else happens to it. -/
theorem Edited.groups (h : site.Edited after) : site.node.groups.Edited after.node.groups := by
  refine h.lift' (fun site : Site => site.node.groups) fun before last edit => ?_
  cases edit with
  | noted node groups =>
    show before.node.groups.Edited node.groups
    rw [groups]
  | regrouped edit => exact .single edit
  | takenIn | served | created | updated | deleted => exact .refl

end Site

/-! ### Calls of the store -/

/-- The call of the store does nothing to a site but edit it. -/
def StoreCall.Edits {α : Type} (request : StoreCall α) : Prop :=
  ∀ site : Site, site.Edited { site with backend := (request.run.run site.backend).2 }

namespace Backend

variable {α : Type} {request : StoreCall α}

/-- A look leaves all tables as they are. -/
theorem Looks.edits {backed : Store → α → Prop} {found : Store → α}
    (h : Looks request backed found) : request.Edits :=
  fun site => .single (.served _ (congrArg Store.policies (h.store site.backend))
    (h.calm site.backend))

/-- A call that writes to the groups alone leaves the policies alone. -/
theorem Writes.edits {slip : Store → Store → Prop} {effect : Store → α → Store → Prop}
    (h : Writes request slip effect)
    (hslip : ∀ {store middle}, slip store middle → middle.policies = store.policies)
    (heffect : ∀ {store value after}, effect store value after → after.policies = store.policies) :
    request.Edits := by
  intro site
  obtain ⟨faults, middle, hcalm, hmiddle, hrun⟩ := h site.backend
  have hpolicies : middle.policies = site.backend.store.policies := by
    obtain heq | hmiddle := hmiddle
    · rw [heq]
    · exact hslip hmiddle
  obtain ⟨error, hrun⟩ | ⟨value, store, hstore, hrun⟩ := hrun <;> rw [hrun]
  · exact .single (.served _ hpolicies fun h => (hcalm h).1)
  · exact .single (.served _ ((heffect hstore).trans hpolicies) fun h => (hcalm h).1)

/-- Neither a group that is stored nor that of a rival touches the policies. -/
theorem edits_upsertGroup (group : Group) : (upsertGroup group).Edits := by
  refine (writes_upsertGroup group).edits ?_ ?_
  · rintro store _ ⟨rival, stored, groups, -, -, -, -, rfl⟩
    rfl
  · rintro store stored _ ⟨groups, -, rfl⟩
    rfl

theorem edits_deleteGroup (id : UInt64) : (deleteGroup id).Edits :=
  (writes_deleteGroup id).edits False.elim fun ⟨_, _, h⟩ => h ▸ rfl

theorem edits_createRelation (groupId : UInt64) (asset : Actor) :
    (createRelation groupId asset).Edits :=
  (writes_createRelation groupId asset).edits False.elim fun ⟨_, _, h⟩ => h ▸ rfl

theorem edits_deleteRelation (groupId : UInt64) (asset : Actor) :
    (deleteRelation groupId asset).Edits :=
  (writes_deleteRelation groupId asset).edits False.elim fun h => h ▸ rfl

/-- A policy may be stored twice, by a rival and by the call. -/
theorem edits_createPolicy (policy : Policy) (record : RosterRecord) :
    (createPolicy policy record).Edits := by
  intro site
  obtain ⟨faults, middle, hcalm, hslip, hrun⟩ := writes_createPolicy policy record site.backend
  have hmet : site.Edited { site with backend := { site.backend with faults } } :=
    .single (.served _ rfl fun h => (hcalm h).1)
  have hmiddle : site.Edited { site with backend := ⟨middle, faults⟩ } := by
    obtain rfl | ⟨rival, stored, policies, -, -, -, hcreate, rfl⟩ := hslip
    · exact hmet
    · exact hmet.tail (.created hcreate)
  obtain ⟨error, hrun⟩ | ⟨created, store, ⟨record', policies, hcreate, rfl, -⟩, hrun⟩ := hrun <;>
    rw [hrun]
  · exact hmiddle
  · exact hmiddle.tail (.created hcreate)

/-- An update puts a policy in place of one of the same number. -/
theorem edits_updatePolicy (policy : Policy) (update : RosterUpdate) :
    (updatePolicy policy update).Edits := by
  intro site
  obtain ⟨faults, middle, hcalm, hslip, hrun⟩ := writes_updatePolicy policy update site.backend
  obtain rfl : middle = site.backend.store := hslip.resolve_right id
  have hmet : site.Edited { site with backend := { site.backend with faults } } :=
    .single (.served _ rfl fun h => (hcalm h).1)
  obtain ⟨error, hrun⟩ | ⟨_, store, ⟨policies, hupdate, rfl⟩, hrun⟩ := hrun <;> rw [hrun]
  · exact hmet
  · exact hmet.tail (.updated hupdate)

/-- A policy that comes back from the store is stored. -/
theorem stored_of_createPolicy {policy : Policy} {record : RosterRecord}
    {created : Policy × RosterRecord} {backend after : Backend}
    (h : (createPolicy policy record).run.run backend = (.ok created, after)) :
    after.store.policies.policies[created.1.id]? = some created.1 := by
  obtain ⟨faults, middle, -, -, ⟨error, hrun⟩ | ⟨_, store, ⟨record', policies, hcreate, rfl, -⟩,
    hrun⟩⟩ := writes_createPolicy policy record backend <;> cases hrun.symm.trans h
  obtain ⟨-, -, -, hpolicies⟩ := PolicyTables.create_eq_ok hcreate
  show policies.policies[created.1.id]? = _
  rw [hpolicies]
  exact (PolicyTables.policies_put _ _ record _).trans (if_pos rfl)

/-- A policy is stored when its update has gone through. -/
theorem stored_of_updatePolicy {policy : Policy} {update : RosterUpdate} {backend after : Backend}
    (h : (updatePolicy policy update).run.run backend = (.ok (), after)) :
    after.store.policies.policies[policy.id]? = some policy := by
  obtain ⟨faults, middle, -, -, ⟨error, hrun⟩ | ⟨_, store, ⟨policies, hupdate, rfl⟩, hrun⟩⟩ :=
    writes_updatePolicy policy update backend <;> cases hrun.symm.trans h
  obtain ⟨-, -, rfl⟩ := PolicyTables.update_eq_ok hupdate
  exact (PolicyTables.policies_put ..).trans (if_pos rfl)

end Backend

end AccessRights
