/-
AccessRights/Proofs/Cycles.lean

Which calls are refused because parent links would run in a circle.

At a site that a node and its store can get into, the stored links run in no
circle (`Reached.rooted`).  So the walk of a resolution never meets a policy
twice, and no resolution is refused for a circle.  The check of a new parent
walks along the same links, whatever the flags of the policies on the way say,
and it comes to the policy exactly when the policy is on the chain above the new
parent.

Both walks go through the memory of the node, which fills up on the way.  That
is why each step is made at another site; the stored links are the same at all
of them.

Main results: `avoids_contributors`, `movePolicy_eq_circular_iff`,
`updatePolicy_eq_circular_iff` and `Reached.acyclic`.
-/
import AccessRights.Proofs.PolicyTree
import AccessRights.Proofs.Refusals
import AccessRights.Proofs.Serving

namespace AccessRights

namespace Policy

/-- The policy may be stored in place of the current one, as far as its parent is left out of
account: it keeps the designators, and it is well formed. -/
structure Amends (policy current : Policy) : Prop where
  key : policy.key = current.key
  object : policy.object = current.object
  valid (error : AccessError) : policy.validate = .error error → error = .circularParent policy.id

/-- A policy is not well formed for the sake of a circle only if it is its own parent. -/
theorem parentId_of_validate {policy : Policy} {id : UInt64}
    (h : policy.validate = .error (.circularParent id)) : policy.parentId = policy.id := by
  unfold validate at h
  split at h
  · cases h
  split at h
  · cases h
  split at h
  · rename_i hself
    simp only [Bool.and_eq_true, beq_iff_eq] at hself
    exact hself.2
  · split at h <;> split at h <;> cases h

end Policy

/-- The request asks for rights, on its own account or for those of a grantor. -/
def Request.Resolves : Request → Prop
  | .effectiveAccess .. | .hasRights .. | .checkAccess .. => True
  | .grantAccess .. | .revokeAccess .. => True
  | _ => False

namespace Site

open Call

variable {rules : Rules} {site : Site} {policyId nextId : UInt64} {trail : Trail}

/-! ### Walking along stored links -/

/-- A policy is found by its number exactly when it is stored, and nothing is refused for a
circle by it. -/
theorem policyById_cases (hsound : site.Sound) (hrooted : site.Rooted)
    (hcalm : site.backend.faults = []) (id : UInt64) :
    (∃ error after, site.backend.store.policies.byId? id = none ∧ ¬ error.IsCircular ∧
      (policyById id).perform site = (.error error, after)) ∨
    ∃ policy after, site.backend.store.policies.byId? id = some policy ∧ site.Learns after ∧
      after.node.recalled.policy? id = some policy ∧
      (policyById id).perform site = (.ok policy, after) := by
  have hkeyed := hsound.keyed
  obtain ⟨error, after, hlearns, hrun⟩ | ⟨policy, after, hlearns, ⟨hpolicy, -⟩, hrun⟩ :=
    (reads_policyById hkeyed id).cases
  · refine .inl ⟨error, after, ?_, avoids_policyById id error (congrArg Prod.fst hrun), hrun⟩
    refine Option.eq_none_iff_forall_ne_some.2 fun policy hstored => ?_
    -- what is stored would have been found
    have hknown : site.view.policy? id = some ((site.node.policies.policy? id).getD policy) := by
      show (if id = 0 then none else (site.node.policies.policy? id).or
        (site.backend.store.policies.byId? id)) = _
      rw [if_neg (hsound.store.policies.policy hstored).2.1, hstored]
      cases site.node.policies.policy? id <;> rfl
    obtain ⟨found, hfound⟩ := succeeds_policyById hcalm hknown
    cases (congrArg Prod.fst hrun).symm.trans hfound
  · have hstored := (hlearns.indexed hkeyed hrooted.toIndexed).of_recalled hpolicy
    rw [hlearns.still.store] at hstored
    exact .inr ⟨policy, after, hstored, hlearns, hpolicy, hrun⟩

/-- The walk along the links of a resolution meets no policy twice. -/
theorem avoids_contributorsFrom (hsound : site.Sound) (hrooted : site.Rooted)
    (hfollows : site.backend.store.policies.links.Follows trail policyId) :
    (contributorsFrom trail policyId).Avoids AccessError.IsCircular site := by
  fun_induction contributorsFrom trail policyId generalizing site with
  | case1 trail policyId fresh ih =>
    have hkeyed := hsound.keyed
    refine (avoids_policyById policyId).bind_reads (reads_policyById hkeyed policyId) hkeyed ?_
    rintro policy after hlearns - ⟨hpolicy, -⟩
    have hrooted := hlearns.rooted hkeyed hrooted
    have hlink := PolicyTables.links_of_stored (hrooted.of_recalled hpolicy)
    rw [← hlearns.still.store] at hfollows
    have hnext := ih policy (hlearns.sound hsound) hrooted (hfollows.add hlink fresh)
    split
    · exact hnext
    · split
      · exact hnext.bind fun _ _ _ => avoids_pure _
      · exact avoids_pure _
  | case2 trail policyId stale =>
    exact absurd (hfollows.fresh hrooted.tables.ends) stale

theorem avoids_contributors (hsound : site.Sound) (hrooted : site.Rooted) (policyId : UInt64) :
    (contributors policyId).Avoids AccessError.IsCircular site :=
  avoids_contributorsFrom hsound hrooted (Links.follows_empty _ _)

/-- The check of a parent comes to the policy exactly when the policy is on the chain. -/
theorem checkAcyclicFrom_eq_circular_iff (hsound : site.Sound) (hrooted : site.Rooted)
    (hcalm : site.backend.faults = []) (hnonzero : policyId ≠ 0)
    (hfollows : site.backend.store.policies.links.Follows trail nextId) {id : UInt64} :
    ((checkAcyclicFrom policyId trail nextId).perform site).1 = .error (.circularParent id) ↔
      id = policyId ∧ site.backend.store.policies.links.Chain nextId policyId := by
  fun_induction checkAcyclicFrom policyId trail nextId generalizing site with
  | case1 trail =>
    refine iff_of_false (by rintro ⟨⟩) fun hcircle => hnonzero ?_
    exact ((Links.chain_iff_of_none hsound.store.policies.links_zero).1 hcircle.2).symm
  | case2 trail nonzero =>
    constructor
    · rintro ⟨⟩
      exact ⟨rfl, .refl⟩
    · rintro ⟨rfl, -⟩
      rfl
  | case3 trail nextId nonzero other fresh ih =>
    rw [perform_bind]
    obtain ⟨error, after, hnone, herror, hrun⟩ | ⟨next, after, hstored, hlearns, -, hrun⟩ :=
      policyById_cases hsound hrooted hcalm nextId <;> rw [hrun]
    · -- the chain ends at a number that nothing has
      have hlink : site.backend.store.policies.links nextId = none := by
        rw [PolicyTables.links, hnone, Option.map_none]
      refine iff_of_false ?_ fun hcircle => other ((Links.chain_iff_of_none hlink).1 hcircle.2)
      rintro ⟨⟩
      exact herror trivial
    · have hlink := PolicyTables.links_of_stored hstored
      have hstore := hlearns.still.store
      rw [Links.chain_iff_of_link hlink, or_iff_right other]
      rw [← hstore] at hfollows hlink ⊢
      exact ih next (hlearns.sound hsound) (hlearns.rooted hsound.keyed hrooted)
        (hlearns.still.calm hcalm) (hfollows.add hlink fresh)
  | case4 trail nextId nonzero other stale =>
    exact absurd (hfollows.fresh hrooted.tables.ends) stale

/-! ### Changing the tree -/

theorem avoids_persist (policy : Policy) (roster : Roster) :
    (persist policy roster).Avoids AccessError.IsCircular site := by
  refine (avoids_ask (fun _ => not_false) _).bind_outcome (fun _ _ _ => ?_) fun error _ herror => ?_
  · exact (avoids_editNode _).bind fun _ _ _ => (avoids_editNode _).bind fun _ _ _ =>
      avoids_editNode _
  · exact (avoids_editNode _).bind fun _ _ _ => (avoids_editNode _).bind fun _ _ _ =>
      avoids_throw herror

/-- What comes after the checks of a change is not refused for a circle. -/
theorem avoids_persist_rosterOf (policyId : UInt64) (policy : Policy) {last : Call Policy}
    (hlast : ∀ site : Site, last.Avoids AccessError.IsCircular site) : (do
      let roster ← rosterOf policyId
      persist policy roster
      last).Avoids AccessError.IsCircular site :=
  ((avoids_rosterOf policyId).mono AccessError.isBroken_of_isCircular).bind fun roster _ _ =>
    (avoids_persist policy roster).bind fun _ _ _ => hlast _

/-- A stored policy is refused a parent for the sake of a circle exactly when it is on the chain
above this parent. -/
theorem movePolicy_eq_circular_iff (hsound : site.Sound) (hrooted : site.Rooted)
    (hcalm : site.backend.faults = []) {policy : Policy}
    (hstored : site.backend.store.policies.byId? policyId = some policy) (now : Timestamp)
    (parentId : UInt64) {id : UInt64} :
    ((movePolicy now policyId parentId).perform site).1 = .error (.circularParent id) ↔
      id = policyId ∧ site.backend.store.policies.links.Chain parentId policyId := by
  obtain ⟨-, hnonzero, -⟩ := hsound.store.policies.policy hstored
  obtain ⟨error, after, hnone, -⟩ | ⟨found, first, -, hlearns, -, hrun⟩ :=
    policyById_cases hsound hrooted hcalm policyId
  · cases hnone.symm.trans hstored
  have hkeyed := hsound.keyed
  have hfirst := hlearns.sound hsound
  have hrooted' := hlearns.rooted hkeyed hrooted
  have hcalm' := hlearns.still.calm hcalm
  have hrest (flags : PolicyFlags) (site : Site) : (do
      let roster ← rosterOf policyId
      persist { found with flags, parentId, updatedAt := now } roster
      editRoster policyId Roster.forgetCalculated
      pure { found with flags, parentId, updatedAt := now } : Call Policy).Avoids
        AccessError.IsCircular site :=
    avoids_persist_rosterOf policyId _ fun _ => (avoids_editNode _).bind fun _ _ _ => avoids_pure _
  unfold movePolicy
  rw [fst_perform_bind hrun, ← hlearns.still.store]
  dsimp only at hrest ⊢
  split
  · rename_i hroot
    refine iff_of_false (fun herror => hrest _ _ _ herror trivial) fun hcircle => hnonzero ?_
    rw [hroot] at hcircle
    exact ((Links.chain_iff_of_none hfirst.store.policies.links_zero).1 hcircle.2).symm
  · obtain ⟨error, second, hnone, herror, hrun⟩ | ⟨parent, second, -, hlearns', -, hrun⟩ :=
      policyById_cases hfirst hrooted' hcalm' parentId
    · -- no policy has the number of the parent, so nothing is above it
      rw [perform_bind, hrun]
      have hlink : first.backend.store.policies.links parentId = none := by
        rw [PolicyTables.links, hnone, Option.map_none]
      refine iff_of_false ?_ fun hcircle => ?_
      · rintro ⟨⟩
        exact herror trivial
      · rw [(Links.chain_iff_of_none hlink).1 hcircle.2, hlearns.still.store] at hnone
        cases hnone.symm.trans hstored
    · rw [fst_perform_bind hrun]
      have hcircular : (AccessError.circularParent id).IsCircular := trivial
      refine (Avoids.bind_eq_error_iff (fun _ last _ => hrest found.flags last) hcircular).trans ?_
      rw [← hlearns'.still.store]
      exact checkAcyclicFrom_eq_circular_iff (hlearns'.sound hfirst)
        (hlearns'.rooted hfirst.keyed hrooted') (hlearns'.still.calm hcalm') hnonzero
        (Links.follows_empty _ _)

/-- Designators that the index has for the policy itself are free. -/
theorem perform_checkDesignatorsFree {policy : Policy}
    (hkey : ∀ key, policy.key = some key → site.node.policies.byKey[key]? = some policy.id)
    (hobject : ∀ object, policy.object = some object →
      site.node.policies.byObject[object]? = some policy.id) :
    (checkDesignatorsFree policy).perform site = (.ok (), site) := by
  -- the index says that the policy has its designators itself, so the store is not asked
  have htaken (indexed : PolicyIndex → Option UInt64) (context : String)
      (fetch : StoreCall (Option Policy)) (hown : indexed site.node.policies = some policy.id) :
      (isTaken policy.id indexed context fetch).perform site = (.ok false, site) := by
    unfold isTaken
    rw [perform_bind, perform_currentNode]
    dsimp only
    rw [hown]
    simp
  have hkeyFree (key : String) (hown : policy.key = some key) :
      (checkKeyFree policy.id key).perform site = (.ok (), site) := by
    unfold checkKeyFree
    rw [perform_bind, htaken _ _ _ (hkey key hown)]
    rfl
  have hobjectFree (object : PolicyObject) (hown : policy.object = some object) :
      (checkObjectFree policy.id object).perform site = (.ok (), site) := by
    unfold checkObjectFree
    rw [perform_bind, htaken _ _ _ (hobject object hown)]
    rfl
  rw [perform_checkDesignatorsFree_of_still hkeyFree hobjectFree]
  cases policy.key <;> cases policy.object <;> rfl

theorem changedObjectField?_self (object : Option PolicyObject) :
    changedObjectField? object object = none := by
  cases object <;> simp [changedObjectField?]

/-- A version of a stored policy that is in order but for its new parent is refused for the sake of
a circle exactly when the policy is on the chain above this parent. -/
theorem updatePolicy_eq_circular_iff (hsound : site.Sound) (hrooted : site.Rooted)
    (hcalm : site.backend.faults = []) {policy current : Policy}
    (hstored : site.backend.store.policies.byId? policy.id = some current)
    (hamends : policy.Amends current) (hnonzero : policy.parentId ≠ 0)
    (hmoved : policy.parentId ≠ current.parentId) (now : Timestamp) {id : UInt64} :
    ((updatePolicy now policy).perform site).1 = .error (.circularParent id) ↔
      id = policy.id ∧ site.backend.store.policies.links.Chain policy.parentId policy.id := by
  obtain ⟨error, after, hnone, -⟩ | ⟨found, first, hfound, hlearns, hrecalled, hrun⟩ :=
    policyById_cases hsound hrooted hcalm policy.id
  · cases hnone.symm.trans hstored
  cases hfound.symm.trans hstored
  have hkeyed := hsound.keyed
  have hfirst := hlearns.sound hsound
  have hstore := hlearns.still.store
  rw [← hstore] at hstored
  obtain ⟨-, -, hkey, hobject⟩ :=
    hfirst.node.designators (policy_indexed_of_recalled hrecalled) hstored
  rw [← hamends.key] at hkey
  rw [← hamends.object] at hobject
  unfold updatePolicy
  rw [fst_perform_bind hrun, ← hstore]
  dsimp only
  rw [if_neg (not_not_intro hamends.key), ← hamends.object, changedObjectField?_self]
  dsimp only
  rcases hvalid : policy.validate with error | _
  · -- the policy is its own parent, and the chain begins with it
    have herror := hamends.valid error hvalid
    subst herror
    rw [perform_bind, perform_liftExcept, Policy.parentId_of_validate hvalid]
    constructor
    · rintro ⟨⟩
      exact ⟨rfl, .refl⟩
    · rintro ⟨rfl, -⟩
      rfl
  · rw [fst_perform_bind (perform_liftExcept _ _), fst_perform_bind
      (perform_checkDesignatorsFree hkey hobject), if_pos ⟨hnonzero, hmoved⟩]
    have hcircular : (AccessError.circularParent id).IsCircular := trivial
    refine (Avoids.bind_eq_error_iff (fun _ last _ => ?_) hcircular).trans ?_
    · refine avoids_persist_rosterOf policy.id _ fun site => ?_
      split
      · exact (avoids_editNode _).bind fun _ _ _ => avoids_pure _
      · exact avoids_pure _
    · exact checkAcyclicFrom_eq_circular_iff hfirst (hlearns.rooted hkeyed hrooted)
        (hlearns.still.calm hcalm) (hsound.store.policies.policy (hstore ▸ hstored)).2.1
        (Links.follows_empty _ _)

/-! ### Resolving rights -/

/-- A change of rights asks for those of the grantor once it has opened the roster, and opening it
does not touch the links. -/
theorem avoids_changeAccess_of_rooted (hsound : site.Sound) (hrooted : site.Rooted)
    {check : Call Unit} {grantor : Actor} {change : Change} {allowed : Rights → Prop}
    [DecidablePred allowed] {refusal : Rights → AccessError}
    (hcheck : check.Avoids AccessError.IsBroken site) (hreads : check.Reads site fun _ _ => True)
    (hrefusal : ∀ held, ¬ (refusal held).IsCircular) :
    (changeAccess check policyId grantor change allowed refusal).Avoids
      AccessError.IsCircular site := by
  refine avoids_changeAccess hcheck hrefusal fun opened hopened => ?_
  obtain ⟨error, after, -, hrun⟩ | ⟨live, middle, hlearns, -, -, hlive, hrun⟩ :=
    check_openRoster_cases hsound.keyed hreads policyId <;> cases hrun.symm.trans hopened
  have hmiddle := hlearns.sound hsound
  have hevent : middle.Event False 0 _ := .rosterBackedUp hlive
  have hroom := Store.hasRoom_zero middle.backend.store
  have hopened := (hevent.sound hmiddle hroom).1
  have hrooted := hevent.rooted hmiddle hroom (hlearns.rooted hsound.keyed hrooted)
  refine avoids_effectiveAccess (fun after hafter => ?_) AccessError.isBroken_of_isCircular grantor
  exact avoids_contributors (hafter.sound hopened) (hafter.rooted hopened.keyed hrooted) policyId

/-- Whoever asks for rights, or needs them for a change, is not refused for a circle. -/
theorem avoids_answer_of_resolves (hsound : site.Sound) (hrooted : site.Rooted) {request : Request}
    (h : request.Resolves) (now : Timestamp) :
    (answer now request).Avoids AccessError.IsCircular site := by
  have hkeyed := hsound.keyed
  have haccess (policyId : UInt64) (actor : Actor) :
      (effectiveAccess policyId actor).Avoids AccessError.IsCircular site :=
    avoids_effectiveAccess (fun after hafter => avoids_contributors (hafter.sound hsound)
      (hafter.rooted hkeyed hrooted) policyId) AccessError.isBroken_of_isCircular actor
  cases request with
  | effectiveAccess policyId actor => exact (haccess policyId actor).bind fun _ _ _ => avoids_pure _
  | hasRights policyId actor rights =>
    exact (avoids_hasRights (haccess policyId actor) rights).bind fun _ _ _ => avoids_pure _
  | checkAccess policyId actor rights =>
    exact (avoids_checkAccess (haccess policyId actor) AccessError.isBroken_of_isCircular
      rights).bind fun _ _ _ => avoids_pure _
  | grantAccess policyId grantor grantee rights =>
    refine Avoids.bind ?_ fun _ _ _ => avoids_pure _
    rw [grantAccess_eq]
    exact avoids_changeAccess_of_rooted hsound hrooted (avoids_checkGrantee grantee)
      (reads_checkGrantee hkeyed grantee) fun _ => not_false
  | revokeAccess policyId grantor grantee =>
    refine Avoids.bind ?_ fun _ _ _ => avoids_pure _
    rw [revokeAccess_eq]
    exact avoids_changeAccess_of_rooted hsound hrooted (avoids_checkRevoked grantee)
      (reads_checkRevoked grantee) fun _ => not_false
  | _ => exact h.elim

/-! ### Reached sites -/

theorem Rooted.unfailing (h : site.Rooted) : site.unfailing.Rooted :=
  ⟨⟨h.policy⟩, h.tables⟩

/-- No chain of stored links runs in a circle, so no resolution is refused for one, whatever the
store does.  A change of a stored policy is refused for one exactly when it would close one, if the
store does not fail. -/
structure Acyclic (site : Site) : Prop where
  links (id : UInt64) : ¬ site.backend.store.policies.links.Cyclic id
  resolve {request : Request} (resolves : request.Resolves) (now : Timestamp) (id : UInt64) :
    ((answer now request).perform site).1 ≠ .error (.circularParent id)
  move {policyId : UInt64} {policy : Policy}
    (stored : site.backend.store.policies.byId? policyId = some policy) (now : Timestamp)
    (parentId id : UInt64) :
    (movePolicy now policyId parentId).gives site = .error (.circularParent id) ↔
      id = policyId ∧ site.backend.store.policies.links.Chain parentId policyId
  update {policy current : Policy}
    (stored : site.backend.store.policies.byId? policy.id = some current)
    (amends : policy.Amends current) (nonzero : policy.parentId ≠ 0)
    (moved : policy.parentId ≠ current.parentId) (now : Timestamp) (id : UInt64) :
    (updatePolicy now policy).gives site = .error (.circularParent id) ↔
      id = policy.id ∧ site.backend.store.policies.links.Chain policy.parentId policy.id

/-- Whatever was asked of a node that has its store to itself, in whatever order, and whatever the
store failed to do meanwhile. -/
theorem Reached.acyclic (h : site.Reached rules) : site.Acyclic := by
  have hsound := h.sound
  have hrooted := h.rooted
  have hsound' := hsound.unfailing
  have hrooted' := hrooted.unfailing
  exact
    { links := hrooted.tables.ends.not_cyclic
      resolve := fun hresolves now id herror =>
        avoids_answer_of_resolves hsound hrooted hresolves now _ herror trivial
      move := fun hstored now parentId id =>
        movePolicy_eq_circular_iff hsound' hrooted' rfl hstored now parentId
      update := fun hstored hamends hnonzero hmoved now id =>
        updatePolicy_eq_circular_iff hsound' hrooted' rfl hstored hamends hnonzero hmoved now }

/-- Four policies, each below the one before, of which the third was deleted. -/
def pruned : Site :=
  (live ⟨.blank {}, {}⟩ [
    (default, .createPolicy (some "site") 1 0 none .empty),
    (default, .createPolicy (some "folder") 1 1 none .inherit),
    (default, .createPolicy (some "page") 1 2 none .empty),
    (default, .createPolicy (some "note") 1 3 none .extend),
    (default, .deletePolicy 3)]).2

theorem reached_pruned : pruned.Reached .all :=
  (Reached.blank {}).live (fun _ _ _ => trivial) ⟨by decide +kernel, by decide +kernel⟩

/-- The site may not be hung below its folder; that the folder may not be hung below the note has
another reason. -/
theorem acyclic_pruned : pruned.Acyclic ∧
    (movePolicy default 1 2).gives pruned = .error (.circularParent 1) ∧
      (movePolicy default 2 4).gives pruned = .error (.policyNotFound "3") :=
  ⟨reached_pruned.acyclic, by decide +kernel, by decide +kernel⟩

end Site

end AccessRights
