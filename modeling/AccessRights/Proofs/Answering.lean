/-
AccessRights/Proofs/Answering.lean

Every request is a sequence of events.

All but a few requests only read, or make one change that is counted.  Where
others have written to the store, four requests may take in what the node did
not know and count nothing; `Request.LagsBehind` says exactly when.  A node
that nobody gets ahead of never lags behind (`not_lagsBehind`).

Main results: `answer_passes` and `not_lagsBehind`.
-/
import AccessRights.Proofs.Grants
import AccessRights.Proofs.Groups
import AccessRights.Proofs.Policies
import AccessRights.Request

namespace AccessRights

/-! ### Lagging behind -/

/-- What does not lead to a group in the index leads the store to a group that the index has
in another version. -/
def Site.Outdated (site : Site) (indexed stored : Option Group) : Prop :=
  indexed = none ∧ ∃ group known, stored = some group ∧
    site.node.groups.group? group.id = some known ∧ known ≠ group

namespace Request

/-- The request makes the node take in a membership, or another version of a group, that
only the store knew. -/
def LagsBehind (site : Site) : Request → Prop
  | .relate groupId asset => site.Unseen groupId asset
  | .joinDefaults asset =>
    ∃ groupId ∈ site.node.groups.missingDefaults asset, site.Unseen groupId asset
  | .groupByKey key => site.Outdated (site.node.groups.groupOfKey? key)
      (site.backend.store.groups.byKey? key)
  | .groupByName turn name => site.Outdated (site.node.groups.groupOfName? turn name)
      (site.backend.store.groups.byName? name)
  | _ => False

/-- The request is to store the policy anew, with its roster. -/
def Stores : Request → UInt64 → Prop
  | .updatePolicy policy, policyId => policy.id = policyId
  | .movePolicy id _, policyId => id = policyId
  | _, _ => False

/-- How many numbers the request takes from the store if nothing goes wrong there. -/
def creations : Request → Nat
  | .createPolicy .. | .createGroup .. => 1
  | _ => 0

end Request

namespace Site

open Call

variable {licence : Licence} {most count : Nat} {site : Site}

theorem InStep.not_unseen (h : site.InStep) (groupId : UInt64) (asset : Actor) :
    ¬ site.Unseen groupId asset := by
  rintro ⟨hstored, hunknown, group, hgroup⟩
  have hgroup : (if groupId = 0 then none else (site.node.groups.group? groupId).or
      (site.backend.store.groups.byId? groupId)) = some group := hgroup
  split at hgroup
  · cases hgroup
  · -- either way the group is stored, and then its memberships are known
    obtain hindexed | ⟨-, hstored'⟩ := Option.or_eq_some_iff.1 hgroup
    · exact hunknown (h.relation (h.group hindexed) hstored)
    · exact hunknown (h.relation hstored' hstored)

theorem InStep.not_outdated (h : site.InStep) (hkeyed : site.Keyed)
    {indexed stored : Option Group}
    (hstored : ∀ group, stored = some group →
      ∃ id : UInt64, site.backend.store.groups.groups[id]? = some group) :
    ¬ site.Outdated indexed stored := by
  rintro ⟨-, group, known, hgroup, hknown, hne⟩
  obtain ⟨id, hid⟩ := hstored group hgroup
  obtain rfl := hkeyed.group hid
  exact hne (Option.some.inj ((h.group hknown).symm.trans hid))

/-- A node whose store nobody else writes to is behind in nothing. -/
theorem InStep.not_lagsBehind (h : site.InStep) (hkeyed : site.Keyed) (request : Request) :
    ¬ request.LagsBehind site := by
  cases request with
  | relate groupId asset => exact h.not_unseen groupId asset
  | joinDefaults asset => exact fun ⟨groupId, _, hunseen⟩ => h.not_unseen groupId asset hunseen
  | groupByKey key => exact h.not_outdated hkeyed fun _ => GroupTables.byKey?_eq_some
  | groupByName turn name => exact h.not_outdated hkeyed fun _ => GroupTables.byName?_eq_some
  | _ => exact id

/-! ### Finding groups by what they designate -/

/-- A group that a designator leads the store to is taken in.  That is learning, unless
another version of it was known. -/
theorem readGroup_passes (indexed : GroupIndex → Option Group) (method : StoreMethod)
    (look : Store → Option Group) (hkeyed : site.Keyed)
    (hstored : ∀ group, look site.backend.store = some group →
      ∃ id : UInt64, site.backend.store.groups.groups[id]? = some group)
    (hlag : site.Outdated (indexed site.node.groups) (look site.backend.store) → licence.lags)
    (context designation : String) :
    (readGroup indexed context (Backend.find method look) designation).Passes licence most count
      site := by
  unfold readGroup
  apply passes_currentNode
  cases hknown : indexed site.node.groups with
  | some group => exact passes_pure group
  | none =>
    apply (reads_ask (Backend.looks_find method look) _ site).bind_passes hkeyed
    rintro found after hlearns hkeyed' ⟨hbacked, hnode⟩
    cases found with
    | none => exact passes_throw _
    | some group =>
      -- the group is stored under its own number, which the index may know
      obtain ⟨id, hid⟩ := hstored group (hbacked group rfl)
      obtain rfl := hkeyed.group hid
      have hstored' : after.backend.store.groups.groups[group.id]? = some group := by
        rw [hlearns.still.store]
        exact hid
      apply passes_of_zero
      cases hindexed : after.node.groups.group? group.id with
      | none => exact Learns.passes (.single (.group hindexed hstored'))
      | some known =>
        -- under that number the index has a group: this one, or another version of it
        refine .single (.regrouped (fun hother => hlag ?_) hstored')
        rw [hnode] at hindexed hother
        refine ⟨hknown, group, known, hbacked group rfl, hindexed, fun heq => hother ?_⟩
        rw [hindexed, heq]

/-! ### Answering requests -/

theorem reads_isCircuited (hkeyed : site.Keyed) (groupId : UInt64) :
    (isCircuited groupId).Reads site fun _ _ => True :=
  (composed_isCircuited learning_groupById groupId site).reads hkeyed

/-- Whatever is asked of a node, and whether it is refused or not, it amounts to a sequence of
events.  Events that are not counted are among them only where the node lags behind, and a policy
is stored anew or removed only where this is asked for. -/
theorem answer_passes (hsound : site.Sound) (hroom : site.backend.store.HasRoom 2)
    (now : Timestamp) (request : Request) :
    (answer now request).Passes
      { lags := request.LagsBehind site, removes := fun id => request = .deletePolicy id
        stores := request.Stores } 2 request.creations site := by
  have hkeyed := hsound.keyed
  -- what only reads passes without any event but learning; the others have a lemma each
  cases request with
  | createPolicy key ownerId parentId object flags =>
    exact (createPolicy_passes hsound hroom now key ownerId parentId object flags).bind_still
      fun _ _ => rfl
  | updatePolicy policy =>
    exact (amendment_passes hsound now (.update policy) rfl).bind_still fun _ _ => rfl
  | movePolicy policyId parentId =>
    exact (amendment_passes hsound now (.move policyId parentId) rfl).bind_still fun _ _ => rfl
  | deletePolicy policyId => exact (deletePolicy_passes hkeyed rfl).bind_still fun _ _ => rfl
  | policyById policyId => exact (reads_policyById hkeyed policyId).map_passes _
  | policyByKey key => exact (reads_policyByKey hsound key).map_passes _
  | policyByObject object => exact (reads_policyByObject hsound object).map_passes _
  | rosterOf policyId => exact (reads_rosterOf hkeyed policyId).map_passes _
  | grantAccess policyId grantor grantee rights =>
    exact (grantAccess_passes hsound policyId grantor grantee rights).bind_still fun _ _ => rfl
  | revokeAccess policyId grantor grantee =>
    exact (revokeAccess_passes hsound policyId grantor grantee).bind_still fun _ _ => rfl
  | hasRights policyId actor rights =>
    exact (reads_hasRights hkeyed policyId actor rights).map_passes _
  | checkAccess policyId actor rights =>
    exact (reads_checkAccess hkeyed policyId actor rights).map_passes _
  | effectiveAccess policyId actor =>
    exact (reads_effectiveAccess hkeyed policyId actor).map_passes _
  | summarizedUserAccess policyId userId =>
    exact (reads_summarizedUserAccess hkeyed policyId userId).map_passes _
  | groupAccess policyId groupId =>
    exact (reads_groupAccess hkeyed policyId groupId).map_passes _
  | createGroup flags parentId key displayName =>
    exact (createGroup_passes hkeyed now flags parentId key displayName).bind_still
      fun _ _ => rfl
  | updateGroup group => exact (updateGroup_passes hkeyed now group).bind_still fun _ _ => rfl
  | moveGroup groupId parentId =>
    exact (moveGroup_passes hsound now groupId parentId).bind_still fun _ _ => rfl
  | deleteGroup groupId => exact (deleteGroup_passes hkeyed groupId).bind_still fun _ _ => rfl
  | groupById groupId => exact (reads_groupById hkeyed groupId).map_passes _
  | groupByKey key =>
    exact (readGroup_passes (·.groupOfKey? key) .groupByKey (fun store => store.groups.byKey? key)
      hkeyed (fun _ => GroupTables.byKey?_eq_some) id _ _).bind_still fun _ _ => rfl
  | groupByName turn name =>
    exact (readGroup_passes (·.groupOfName? turn name) .groupByName
      (fun store => store.groups.byName? name) hkeyed (fun _ => GroupTables.byName?_eq_some) id _
      _).bind_still fun _ _ => rfl
  | relate groupId asset =>
    exact (passes_of_zero (relate_passes hkeyed id)).bind_still fun _ _ => rfl
  | unrelate groupId asset =>
    exact (unrelate_passes groupId asset).bind_still fun _ _ => rfl
  | joinDefaults asset =>
    refine (joinDefaults_passes hsound fun groupId hmem hunseen => ?_).bind_still fun _ _ => rfl
    exact ⟨groupId, hmem, hunseen⟩
  | groupsByAsset | members | isMember | defaultGroups | groupCount =>
    exact passes_currentNode (passes_pure _)
  | ancestry groupId => exact (reads_ancestry hkeyed groupId).map_passes _
  | isCircuited groupId => exact (reads_isCircuited hkeyed groupId).map_passes _
  | load => exact (load_passes site).bind_still fun _ _ => rfl

end Site

end AccessRights
