/-
AccessRights/Proofs/Renewal.lean

Storing a policy again as it is.

Whoever updates a policy with what the node has for it changes its date.  Changes that
wait on the live roster are stored with it, but they have counted at this node all
along.  So nobody has other rights than before, on whatever policy, and a resolution
that failed fails for the same reason.  The argument needs no more of the stored policy
than that its role has stayed (`View.SameRoles`).

Only the check of the policy itself can come in the way (`WellFormed.validate_eq`).  It
asks for a parent as soon as any flag is set, and a policy that is detached gives up only
the two flags that need one.  A policy that has a further flag and no parent cannot be
stored again.

Main results: `View.Effective.sameRoles`, `PersistEnds.sameRights` and `Reached.renew_stored`.
-/
import AccessRights.Proofs.Amending
import AccessRights.Proofs.Cycles
import AccessRights.Proofs.Locality
import AccessRights.Proofs.Overwriting
import AccessRights.Proofs.Pairing
import AccessRights.Proofs.WellFormed

namespace AccessRights

/-! ### The check of a well-formed policy -/

namespace Policy

variable {policy : Policy}

theorem Proper.isDesignator (h : policy.Proper) {object : PolicyObject}
    (hobject : policy.object = some object) : object.isDesignator = true := by
  simpa [PolicyObject.isDesignator] using h.object object hobject

theorem Proper.isDesignated (h : policy.Proper) : policy.isDesignated = true := by
  unfold Policy.isDesignated
  rw [Bool.or_eq_true]
  refine h.designated.symm.imp_right fun hkey => ?_
  obtain ⟨key, hkey⟩ := Option.isSome_iff_exists.1 hkey
  rw [hkey, Option.any_some]
  simpa using h.key key hkey

/-- The only thing that a well-formed policy can lack is a parent, if it has any flag. -/
theorem WellFormed.validate_eq (h : policy.WellFormed) :
    policy.validate =
      if policy.flags ≠ .empty ∧ policy.parentId = 0 then .error .parentRequired else .ok () := by
  split
  · rename_i hbare
    have hplain : policy.isInherited = false ∧ policy.isExtended = false := by
      have hunparented := mt h.parented (not_not_intro hbare.2)
      rwa [not_or, Bool.not_eq_true, Bool.not_eq_true] at hunparented
    unfold validate
    rw [hplain.1, Bool.false_and, if_neg Bool.false_ne_true, if_pos (by simp [hbare])]
  · rename_i hparented
    exact validate_eq_ok_iff.2 ⟨h.exclusive, fun hflags hparent => hparented ⟨hflags, hparent⟩,
      fun _ => h.apart, fun object hobject => h.isDesignator hobject, h.isDesignated⟩

end Policy

/-! ### Views with the same roles -/

namespace View

variable {view other : View} {policy policy' : Policy} {actor : Actor} {id : UInt64} {rights : Rights}

/-- The views agree, but that they may have different versions of policies in the same roles. -/
structure SameRoles (view other : View) : Prop where
  policy (id : UInt64) : (other.policy? id).map Policy.role = (view.policy? id).map Policy.role
  group : other.group? = view.group?
  groupsOf : other.groupsOf = view.groupsOf
  everyone : other.everyone? = view.everyone?
  cell : other.cell? = view.cell?

theorem SameRoles.sameOutline (h : view.SameRoles other) : view.SameOutline other where
  policy := h.policy
  group id := by rw [h.group]
  groupsOf actor := by rw [h.groupsOf]
  roster id := by rw [h.everyone]

/-- In the same role a policy by itself gives the same. -/
theorem Own.of_role (h : view.Own policy actor rights) (hrole : policy'.role = policy.role) :
    view.Own policy' actor rights := by
  obtain ⟨hid, -, howner, -⟩ := Policy.role_eq_iff.1 hrole
  have hofOwner : ofOwner policy' = ofOwner policy := by
    unfold ofOwner
    rw [howner]
  cases h with
  | everyone kind everyone => exact .everyone kind (hid ▸ everyone)
  | user kind everyone groups cell =>
    rw [← hid] at everyone groups cell
    rw [← hofOwner]
    exact .user kind everyone groups cell
  | group kind everyone group =>
    rw [← hid] at everyone group
    exact .group kind everyone group

/-- What the rules derive depends on the roles of policies only. -/
theorem Effective.sameRoles (h : view.Effective actor id rights) (hroles : view.SameRoles other) :
    other.Effective actor id rights := by
  -- wherever a policy is met, the other view has one of the same role
  have hfind {id : UInt64} {policy : Policy} (hfound : view.policy? id = some policy) :
      ∃ policy', other.policy? id = some policy' ∧ policy'.role = policy.role := by
    have hrole := hroles.policy id
    rw [hfound] at hrole
    exact Option.map_eq_some_iff.1 hrole
  have hown {policy policy' : Policy} {own : Rights} (hrole : policy'.role = policy.role)
      (hgives : view.Own policy actor own) : other.Own policy' actor own :=
    (hgives.of_role hrole).congr hroles.group hroles.groupsOf (congrFun hroles.everyone _)
      fun asked _ => congrFun (congrFun hroles.cell _) asked
  induction h with
  | inherited found inherited _ ih =>
    obtain ⟨policy', hfound, hrole⟩ := hfind found
    obtain ⟨-, hparent, -, hflags⟩ := Policy.role_eq_iff.1 hrole
    rw [Policy.isInherited, ← hflags] at inherited
    rw [← hparent] at ih
    exact .inherited hfound inherited ih
  | extended found inherited extended gives _ ih =>
    obtain ⟨policy', hfound, hrole⟩ := hfind found
    obtain ⟨-, hparent, -, hflags⟩ := Policy.role_eq_iff.1 hrole
    rw [Policy.isInherited, ← hflags] at inherited
    rw [Policy.isExtended, ← hflags] at extended
    rw [← hparent] at ih
    exact .extended hfound inherited extended (hown hrole gives) ih
  | alone found inherited extended gives =>
    obtain ⟨policy', hfound, hrole⟩ := hfind found
    obtain ⟨-, -, -, hflags⟩ := Policy.role_eq_iff.1 hrole
    rw [Policy.isInherited, ← hflags] at inherited
    rw [Policy.isExtended, ← hflags] at extended
    exact .alone hfound inherited extended (hown hrole gives)

end View

namespace Site

open Call

variable {rules : Rules} {site after : Site} {policyId id : UInt64} {policy current : Policy}
  {roster : Roster}

/-! ### What a stored policy shows -/

/-- Of a policy that is stored with its live roster only the policy shows. -/
theorem view_put (site : Site) (hid : policy.id ≠ 0)
    (hlive : site.node.rosters[policy.id]? = some roster) (record : RosterRecord)
    (faults : FaultPlan) :
    view ⟨{ site.node with policies := site.node.policies.insert policy },
        ⟨{ site.backend.store with policies := site.backend.store.policies.put policy record },
          faults⟩⟩ =
      { site.view with
        policy? := fun id => if policy.id = id then some policy else site.view.policy? id } := by
  -- the roster of the policy is live, so that the record that is stored with it is not looked at
  have hroster (id : UInt64) : roster? ⟨{ site.node with policies := site.node.policies.insert policy },
      ⟨{ site.backend.store with policies := site.backend.store.policies.put policy record },
        faults⟩⟩ id = site.roster? id := by
    by_cases heq : policy.id = id
    · subst heq
      unfold roster?
      rw [hlive]
    · have hrecord := (PolicyTables.rosters_put site.backend.store.policies policy record id).trans
        (if_neg heq)
      unfold roster? PolicyTables.roster?
      dsimp only
      rw [hrecord]
  apply View.ext
  · funext id
    have hknown := PolicyIndex.policy?_insert site.node.policies policy id
    have hstored := PolicyTables.policies_put site.backend.store.policies policy record id
    show (if id = 0 then none else ((site.node.policies.insert policy).policy? id).or
      ((site.backend.store.policies.put policy record).policies[id]?)) =
        if policy.id = id then some policy else if id = 0 then none
          else (site.node.policies.policy? id).or (site.backend.store.policies.policies[id]?)
    rw [hknown, hstored]
    by_cases heq : policy.id = id
    · subst heq
      rw [if_neg hid, if_pos rfl, if_pos rfl, if_pos rfl, Option.some_or]
    · rw [if_neg heq, if_neg heq, if_neg heq]
  · funext id
    exact congrArg (Option.map _) (hroster id)
  · funext id actor
    exact congrArg (Option.map _) (hroster id)
  · rfl
  · rfl

/-- Whoever stores a policy shows nothing else: what was queued in its roster has counted at this
node all along. -/
theorem PersistEnds.view_eq (h : site.PersistEnds policyId (.ok policy, after)) (hsound : site.Sound) :
    after.view = { site.view with
      policy? := fun id => if policy.id = id then some policy else site.view.policy? id } := by
  generalize hresult : (Except.ok policy, after) = result at h
  cases h with
  | refused | rolledBack => cases hresult
  | @stored policy _ middle before roster _ learns own indexed key object live updated edit =>
    cases hresult
    subst own
    obtain ⟨⟨row, hrow⟩, -, rfl⟩ := PolicyTables.update_eq_ok updated
    have hid := ((learns.sound hsound).store.policies.policy hrow).2.1
    have hregistry : roster.registry = before.registry := by obtain rfl | rfl := edit <;> rfl
    have hshown : middle.view.Shows policy.id roster.registry := by
      rw [hregistry]
      exact shows_of_roster? (by rw [roster?_of_live live, if_neg hid])
    have hmiddle : view { middle with node := { middle.node with
        rosters := middle.node.rosters.insert policy.id roster
        changes := middle.node.changes + 1 } } = site.view := by
      rw [view_insert_roster middle hid roster, hshown.withRegistry_eq, learns.view_eq hsound.keyed]
    rw [← hmiddle]
    exact view_put { middle with node := { middle.node with
      rosters := middle.node.rosters.insert policy.id roster
      changes := middle.node.changes + 1 } } hid Std.ExtTreeMap.getElem?_insert_self _ _

theorem PersistEnds.sameRoles (h : site.PersistEnds policyId (.ok policy, after)) (hsound : site.Sound)
    (hcurrent : site.view.policy? policy.id = some current) (hrole : policy.role = current.role) :
    site.view.SameRoles after.view := by
  rw [h.view_eq hsound]
  refine ⟨fun id => ?_, rfl, rfl, rfl, rfl⟩
  by_cases heq : policy.id = id
  · subst heq
    rw [hcurrent]
    dsimp only
    rw [if_pos rfl, Option.map_some, Option.map_some, hrole]
  · dsimp only
    rw [if_neg heq]

/-- Whoever has rights on a policy at one of the sites has them at the other one, and a resolution
that fails at one of them fails at the other one, past the cache and with a faithful one whose
counter has not come round. -/
structure SameRights (site after : Site) : Prop where
  fresh (id : UInt64) (actor : Actor) : after.freshRights id actor = site.freshRights id actor
  given (hfaithful : site.node.Faithful) (hcounted : after.node.changes < UInt64.size)
    (id : UInt64) (actor : Actor) :
    (effectiveAccess id actor).gives after = (effectiveAccess id actor).gives site

/-- Policies in the same roles give the same rights. -/
theorem sameRights_of_sameRoles (hsound : site.Sound) (hsound' : after.Sound)
    (hroles : site.view.SameRoles after.view)
    (hchanges : site.node.changes ≤ after.node.changes)
    (hkept : site.node.Faithful → after.node.Faithful) : site.SameRights after := by
  have hfresh (id : UInt64) (actor : Actor) :
      after.freshRights id actor = site.freshRights id actor :=
    freshRights_eq_of_outline hsound hsound' hroles.sameOutline fun _ hrights =>
      hrights.sameRoles hroles
  refine ⟨hfresh, fun hfaithful hcounted id actor => ?_⟩
  have hbefore := Nat.lt_of_le_of_lt hchanges hcounted
  rw [gives_effectiveAccess hsound'.keyed ⟨hkept hfaithful, hcounted⟩,
    gives_effectiveAccess hsound.keyed ⟨hfaithful, hbefore⟩, hfresh]

theorem PersistEnds.sameRights (h : site.PersistEnds policyId (.ok policy, after))
    (hsound : site.Sound) (hcurrent : site.view.policy? policy.id = some current)
    (hrole : policy.role = current.role) : site.SameRights after := by
  have hpasses : Site.Passes { lags := False, stores := fun _ => True } 0 site after :=
    h.passes hsound trivial
  have hroom := Store.hasRoom_zero site.backend.store
  exact sameRights_of_sameRoles hsound (hpasses.sound hsound hroom).1
    (h.sameRoles hsound hcurrent hrole) hpasses.changes_le (hpasses.faithful hsound hroom not_false)

theorem Learns.sameRights (h : site.Learns after) (hsound : site.Sound) : site.SameRights after := by
  refine sameRights_of_sameRoles hsound (h.sound hsound) ?_ (Nat.le_of_eq h.still.changes.symm)
    (h.faithful hsound.keyed)
  rw [h.view_eq hsound.keyed]
  exact ⟨fun _ => rfl, rfl, rfl, rfl, rfl⟩

/-! ### Reached sites -/

/-- Every policy at a reached site is well formed, the stored ones and those that the node knows. -/
theorem Reached.wellFormed (h : site.Reached rules) :
    site.backend.store.WellFormed ∧ site.node.WellFormed := by
  refine h.keeps (fun config => ⟨fun id policy hfound => ?_, Node.wellFormed_blank config⟩)
    (fun config hsite => ⟨hsite.1, Node.wellFormed_blank config⟩) (fun _ hsite => hsite)
    (fun hevent hsound hroom hsite => hevent.wellFormed hsound hroom hsite.1 hsite.2)
    fun _ _ _ hsite => hsite
  simp [PolicyTables.byId?] at hfound

/-! ### Storing a policy again -/

/-- Updates a policy with what the node has for it. -/
def renew (now : Timestamp) (id : UInt64) : Call Policy := do
  updatePolicy now (← policyById id)

/-- The node finds the policy as it is stored, and updates it with that. -/
theorem renew_eq (hsound : site.Sound) (hrooted : site.Rooted) (hcalm : site.backend.faults = [])
    (hstored : site.backend.store.policies.byId? id = some policy) (now : Timestamp) :
    ∃ first, site.Learns first ∧ ((policyById id).perform site).1 = .ok policy ∧
      (renew now id).perform site = (updatePolicy now policy).perform first := by
  obtain ⟨error, first, hnone, -⟩ | ⟨found, first, hfound, hlearns, -, hrun⟩ :=
    policyById_cases hsound hrooted hcalm id
  · cases hnone.symm.trans hstored
  cases hfound.symm.trans hstored
  refine ⟨first, hlearns, congrArg Prod.fst hrun, ?_⟩
  unfold renew
  rw [perform_bind, hrun]

/-- Where the store does not fail, an update of a policy with what is stored gets past all checks but
that of the policy itself. -/
theorem fst_updatePolicy_of_stored (hsound : site.Sound) (hrooted : site.Rooted)
    (hpaired : site.backend.store.policies.Paired) (hcalm : site.backend.faults = [])
    (hwell : policy.WellFormed)
    (hstored : site.backend.store.policies.byId? policy.id = some policy) (now : Timestamp) :
    ((updatePolicy now policy).perform site).1 =
      if policy.flags ≠ .empty ∧ policy.parentId = 0 then .error .parentRequired
      else .ok { policy with updatedAt := now } := by
  obtain ⟨error, first, hnone, -⟩ | ⟨found, first, hfound, hlearns, hrecalled, hrun⟩ :=
    policyById_cases hsound hrooted hcalm policy.id
  · cases hnone.symm.trans hstored
  cases hfound.symm.trans hstored
  have hfirst := hlearns.sound hsound
  have hcalm' := hlearns.still.calm hcalm
  obtain ⟨roster, hroster⟩ :=
    (hlearns.exists_roster?_iff policy.id).2 (hsound.exists_roster? hpaired hstored)
  rw [← hlearns.still.store] at hstored
  obtain ⟨-, -, hkey, hobject⟩ :=
    hfirst.node.designators (policy_indexed_of_recalled hrecalled) hstored
  unfold updatePolicy
  rw [fst_perform_bind hrun]
  dsimp only
  rw [if_neg (not_not_intro rfl), changedObjectField?_self]
  dsimp only
  rw [hwell.validate_eq]
  -- flags without a parent are refused, whichever bits they are; anything else goes through
  split
  · rw [perform_bind, perform_liftExcept]
  · rw [fst_perform_bind (perform_liftExcept _ _),
      fst_perform_bind (perform_checkDesignatorsFree hkey hobject),
      if_neg fun hmoved => hmoved.2 rfl]
    obtain ⟨live, hlive⟩ := succeeds_rosterOf hcalm' hroster
    obtain ⟨error, last, -, hrun⟩ | ⟨live, last, hlearns', -, hrun⟩ :=
      (reads_rosterOf hfirst.keyed policy.id).cases
    · rw [hrun] at hlive
      cases hlive
    rw [← hlearns'.still.store] at hstored
    have hpersist := fst_persist_of_stored (hlearns'.sound hfirst) (hlearns'.still.calm hcalm')
      { policy with updatedAt := now } hstored rfl rfl live
    rw [fst_perform_bind hrun, fst_perform_bind (Prod.ext hpersist rfl),
      if_neg (not_or.2 ⟨not_not_intro rfl, not_not_intro rfl⟩)]
    rfl

/-- A stored policy can be stored again as it is unless it has a flag and no parent: then the update
is refused.  Otherwise, if the store does not fail, the policy gets another date, its live roster is
stored and settled, and nobody has other rights than before.  Where nobody has worked on live rosters
past the rules for grants, that is what calls are answered with. -/
theorem Reached.renew_stored (hreached : site.Reached .all)
    (hstored : site.backend.store.policies.byId? id = some policy) (now : Timestamp) :
    (policyById id).gives site = .ok policy ∧
    ((policy.flags ≠ .empty → policy.parentId ≠ 0) → ∃ after,
      (renew now id).perform site.unfailing = (.ok { policy with updatedAt := now }, after) ∧
        Made id { policy with updatedAt := now } after ∧
        (∀ other actor, after.freshRights other actor = site.freshRights other actor) ∧
        (site.Reached .requests → after.node.changes < UInt64.size → ∀ other actor,
          (effectiveAccess other actor).gives after = (effectiveAccess other actor).gives site)) ∧
    (policy.flags ≠ .empty → policy.parentId = 0 →
      (renew now id).gives site = .error .parentRequired) := by
  have hsound := hreached.sound.unfailing
  have hwell : policy.WellFormed := hreached.wellFormed.1 hstored
  obtain ⟨rfl, -⟩ := hreached.sound.store.policies.policy hstored
  obtain ⟨first, hlearns, hfound, hrenew⟩ := renew_eq hsound hreached.rooted.unfailing rfl hstored now
  have hfirst := hlearns.sound hsound
  have hstored' : first.backend.store.policies.byId? policy.id = some policy :=
    hlearns.still.store ▸ hstored
  have hrooted := hlearns.rooted hsound.keyed hreached.rooted.unfailing
  have hresult := fst_updatePolicy_of_stored hfirst hrooted (hlearns.still.store ▸ hreached.paired)
    (hlearns.still.calm rfl) hwell hstored' now
  refine ⟨hfound, fun hparented => ?_, fun hflags hparent => ?_⟩
  · rw [if_neg fun hbare => hparented hbare.1 hbare.2] at hresult
    obtain ⟨after, hdone⟩ : ∃ after, (updatePolicy now policy).perform first =
        (.ok { policy with updatedAt := now }, after) := ⟨_, Prod.ext hresult rfl⟩
    have hends : first.PersistEnds policy.id ((updatePolicy now policy).perform first) :=
      amendment_ends hfirst now (.update policy)
    rw [hdone] at hends
    have hknown : first.view.policy? policy.id = some policy :=
      (hrooted.toIndexed.view_policy? hfirst policy.id).trans hstored'
    have hrights := hlearns.sameRights hsound
    have hrights' := hends.sameRights hfirst hknown rfl
    have hmade : Made policy.id { policy with updatedAt := now } after :=
      @Amendment.made_of_ok _ hfirst now (.update policy) _ _ hdone
    refine ⟨after, hrenew.trans hdone, hmade,
      fun other actor => (hrights'.fresh other actor).trans (hrights.fresh other actor),
      fun hrequests hcounted other actor => ?_⟩
    have hfaithful := hrequests.faithful fun _ => not_false
    have hpasses : Site.Passes { lags := False, stores := fun _ => True } 0 first after :=
      hends.passes hfirst trivial
    have hcounted' := Nat.lt_of_le_of_lt hpasses.changes_le hcounted
    exact (hrights'.given (hlearns.faithful hsound.keyed hfaithful) hcounted other actor).trans
      (hrights.given hfaithful hcounted' other actor)
  · rw [if_pos ⟨hflags, hparent⟩] at hresult
    rw [gives, hrenew, hresult]

/-- A policy that extended another one is detached, and then its owner lets somebody view it, which is
not stored yet. -/
def setFree : Site :=
  (live ⟨.blank {}, {}⟩ [
    (default, .createPolicy (some "base") 1 0 none .empty),
    (default, .createPolicy (some "part") 1 1 none .extend),
    (default, .movePolicy 2 0),
    (default, .grantAccess 2 (.user 1) (.user 5) .view)]).2

theorem reached_setFree : setFree.Reached .calm :=
  (Reached.blank {}).live (fun _ _ _ => trivial) ⟨by decide +kernel, by decide +kernel⟩

/-- When the policy is stored again, so is what the owner has granted, and it counts as before. -/
theorem renew_stored_setFree : ∃ policy after, setFree.backend.store.policies.byId? 2 = some policy ∧
    (renew default 2).perform setFree.unfailing = (.ok { policy with updatedAt := default }, after) ∧
      setFree.backend.store.entry? 2 (.user 5) = some none ∧
        after.freshRights 2 (.user 5) = .ok .view ∧
          (effectiveAccess 2 (.user 5)).gives after = .ok .view ∧
            ∃ roster : Roster, after.backend.store.policies.roster? 2 = some roster.record ∧
              roster.pending = [] := by
  have hreached := reached_setFree.mono (Rules.le_all _)
  have hrequests : setFree.Reached .requests :=
    reached_setFree.mono ⟨fun _ => trivial, fun _ => trivial, fun hstep => hstep⟩
  have hplain : (setFree.backend.store.policies.byId? 2).map Policy.flags = some .empty := by
    decide +kernel
  have hfresh : setFree.freshRights 2 (.user 5) = .ok .view := by decide +kernel
  have hgiven : (effectiveAccess 2 (.user 5)).gives setFree = .ok .view := by decide +kernel
  have hcounted : ((renew default 2).perform setFree.unfailing).2.node.changes < UInt64.size := by
    decide +kernel
  obtain ⟨policy, hstored, hflags⟩ := Option.map_eq_some_iff.1 hplain
  obtain ⟨-, hdone, -⟩ := hreached.renew_stored hstored default
  obtain ⟨after, hrun, hmade, hsame, hserved⟩ := hdone fun hflagged => absurd hflags hflagged
  obtain ⟨roster, -, hrecord, hpending, -⟩ := hmade.live
  refine ⟨policy, after, hstored, hrun, by decide +kernel, ?_, ?_, roster, hrecord, hpending⟩
  · rw [hsame, hfresh]
  · rw [hrun] at hcounted
    rw [hserved hrequests hcounted, hgiven]

/-- A policy that has a flag besides the two that need a parent is detached, and keeps that flag. -/
def setFreeFlagged : Site :=
  (live ⟨.blank {}, {}⟩ [
    (default, .createPolicy (some "base") 1 0 none .empty),
    (default, .createPolicy (some "part") 1 1 none ⟨4⟩),
    (default, .movePolicy 2 0)]).2

theorem reached_setFreeFlagged : setFreeFlagged.Reached .calm :=
  (Reached.blank {}).live (fun _ _ _ => trivial) ⟨by decide +kernel, by decide +kernel⟩

/-- Not every stored policy can be stored again as it is, though the store does not fail. -/
theorem not_forall_renewed :
    ¬ ∀ (site : Site) (id : UInt64) (policy : Policy) (now : Timestamp), site.Reached .calm →
      site.backend.faults = [] → site.backend.store.policies.byId? id = some policy →
        ∃ renewed after, (renew now id).perform site = (.ok renewed, after) := by
  intro h
  have hstored : (setFreeFlagged.backend.store.policies.byId? 2).isSome = true := by decide +kernel
  obtain ⟨policy, hstored⟩ := Option.isSome_iff_exists.1 hstored
  obtain ⟨renewed, after, hrun⟩ := h setFreeFlagged 2 policy default reached_setFreeFlagged
    (by decide +kernel) hstored
  have hrefused : ((renew default 2).perform setFreeFlagged).1 = .error .parentRequired := by
    decide +kernel
  rw [hrun] at hrefused
  cases hrefused

end Site

end AccessRights
