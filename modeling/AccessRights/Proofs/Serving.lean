/-
AccessRights/Proofs/Serving.lean

What a node gives for the rights of an actor, served or resolved.

The rights that a request works with may come from the cache.  What is served
is what the cache holds for the count of changes that stands, and anything else
is resolved.  No call but those that ask for rights touches the cache
(`Call.Quiet`), so a grant finds the same answer there as the caller would have
found just before.

With a cache to be trusted none of this makes a difference (`gives_effectiveAccess`).

Main results: `gives_effectiveAccess_eq_ok_iff`, `gives_effectiveAccess` and
`gives_groupAccess`.
-/
import AccessRights.Proofs.Freshness
import AccessRights.Proofs.Uncached

namespace AccessRights

/-- The site with a store that does not fail. -/
def Site.unfailing (site : Site) : Site :=
  { site with backend := { site.backend with faults := [] } }

/-- Where no fault is planned the store does not fail. -/
theorem Site.unfailing_of_calm {site : Site} (h : site.backend.faults = []) :
    site.unfailing = site := by
  unfold unfailing
  rw [← h]

/-- Planned faults have no part in what is stored under which number. -/
theorem Site.Keyed.unfailing {site : Site} (h : site.Keyed) : site.unfailing.Keyed :=
  ⟨h.policy, h.group, h.roster, h.member⟩

/-- Nor have they a part in the rules of a site. -/
theorem Site.Sound.unfailing {site : Site} (h : site.Sound) : site.unfailing.Sound :=
  ⟨h.store, h.node⟩

namespace Call

variable {α β : Type} {site : Site}

/-! ### What a call gives -/

/-- What a call would give at a site if it met no fault. -/
def gives (call : Call α) (site : Site) : Except AccessError α :=
  (call.perform site.unfailing).1

/-! ### Calls that leave the cache alone -/

/-- The call does not touch the cache. -/
def Quiet (call : Call α) : Prop :=
  ∀ site, (call.perform site).2.node.cache = site.node.cache

/-- A sequence leaves the cache alone if both of its calls do. -/
theorem cache_bind {call : Call α} {next : α → Call β}
    (h : (call.perform site).2.node.cache = site.node.cache)
    (hnext : ∀ value after, call.perform site = (.ok value, after) →
      ((next value).perform after).2.node.cache = after.node.cache) :
    ((call >>= next).perform site).2.node.cache = site.node.cache := by
  rw [perform_bind]
  rcases hrun : call.perform site with ⟨error | value, after⟩ <;> rw [hrun] at h
  · exact h
  · exact (hnext value after hrun).trans h

theorem Quiet.bind {call : Call α} {next : α → Call β} (h : call.Quiet)
    (hnext : ∀ value, (next value).Quiet) : (call >>= next).Quiet :=
  fun site => cache_bind (h site) fun value after _ => hnext value after

/-- Nothing but a resolution touches the cache, so a call without any leaves it alone. -/
theorem Composed.cache_eq {call : Call α} (h : Composed (Site.Part fun _ => False) call site) :
    (call.perform site).2.node.cache = site.node.cache := by
  have hask {α : Type} (wrap : StoreError → AccessError) (request : StoreCall α) (site : Site) :
      ((ask wrap request).perform site).2.node.cache = site.node.cache := by
    rw [perform_ask]
  induction h with
  | part whole =>
    cases whole with
    | ask wrap => exact hask wrap _ _
    | attempt | regroup | takeIn => rfl
    | note _ _ kept => exact kept _
    | remove wrap => exact cache_bind (hask wrap _ _) fun _ _ _ => rfl
    | resolve here => exact here.elim
  | value | refusal => rfl
  | lifted => rw [perform_liftExcept]
  | bind _ _ ih ihnext => exact cache_bind ih ihnext
  | outcome _ ih => exact ih
  | look _ _ ih => exact ih

end Call

namespace Site

open Call

variable {site : Site} {policyId groupId : UInt64} {actor : Actor} {rights : Rights}

/-- Opening a roster resolves nothing. -/
theorem quiet_openRoster (policyId : UInt64) : (openRoster policyId).Quiet :=
  fun site => (composed_openRoster policyId site).cache_eq

theorem quiet_checkGrantee (grantee : Actor) : (checkGrantee grantee).Quiet :=
  fun site => (composed_checkGrantee composed_groupById grantee site).cache_eq

theorem quiet_checkRevoked (grantee : Actor) : (checkRevoked grantee).Quiet :=
  fun site => (composed_checkRevoked grantee site).cache_eq

/-! ### What is given for rights -/

/-- What is served from the cache is given. -/
theorem perform_effectiveAccess_of_served
    (h : site.node.served? ⟨policyId, actor.normalize⟩ = some rights) :
    ((effectiveAccess policyId actor).perform site).1 = .ok rights := by
  have hcached := perform_cached? ⟨policyId, actor.normalize⟩ site
  rw [h] at hcached
  unfold effectiveAccess
  rw [perform_bind]
  rcases hrun : (cached? ⟨policyId, actor.normalize⟩).perform site with ⟨result, after⟩
  rw [hrun] at hcached
  obtain rfl : result = .ok (some rights) := hcached
  rfl

/-- Rights that are given are served from the cache, or they are those of the recursive
rules. -/
theorem served_or_effective (hkeyed : site.Keyed)
    (h : ((effectiveAccess policyId actor).perform site).1 = .ok rights) :
    site.node.served? ⟨policyId, actor.normalize⟩ = some rights ∨
      site.node.served? ⟨policyId, actor.normalize⟩ = none ∧
        site.view.Effective actor.normalize policyId rights := by
  cases hserved : site.node.served? ⟨policyId, actor.normalize⟩ with
  | some found =>
    rw [perform_effectiveAccess_of_served hserved] at h
    cases h
    exact .inl rfl
  | none =>
    obtain ⟨after, hlearns, hresult⟩ := effectiveAccess_of_not_served hserved
    rw [hresult] at h
    have hrights := effective_of_resolve (hlearns.keyed hkeyed) h
    rw [hlearns.view_eq hkeyed] at hrights
    exact .inr ⟨rfl, hrights⟩

/-- If the store does not fail, that is also all that has to hold. -/
theorem gives_effectiveAccess_eq_ok_iff (hkeyed : site.Keyed) :
    (effectiveAccess policyId actor).gives site = .ok rights ↔
      site.node.served? ⟨policyId, actor.normalize⟩ = some rights ∨
        site.node.served? ⟨policyId, actor.normalize⟩ = none ∧
          site.view.Effective actor.normalize policyId rights := by
  refine ⟨@served_or_effective site.unfailing _ _ _ hkeyed.unfailing, fun h => ?_⟩
  obtain hserved | ⟨hserved, hrights⟩ := h
  · exact @perform_effectiveAccess_of_served site.unfailing _ _ _ hserved
  · obtain ⟨after, hlearns, hresult⟩ :=
      @effectiveAccess_of_not_served site.unfailing policyId actor hserved
    rw [gives, hresult, resolve_eq_ok_iff (hlearns.keyed hkeyed.unfailing)
      (hlearns.still.calm rfl), hlearns.view_eq hkeyed.unfailing]
    exact hrights

/-- With a cache to be trusted it makes no difference whether rights are served or resolved. -/
theorem gives_effectiveAccess (hkeyed : site.Keyed) (htrusted : site.node.Trusted)
    (policyId : UInt64) (actor : Actor) :
    (effectiveAccess policyId actor).gives site = site.freshRights policyId actor := by
  have haccess : (effectiveAccess policyId actor).Blind site.unfailing :=
    blind_effectiveAccess hkeyed.unfailing htrusted policyId actor
  have hresolve : (resolve policyId actor.normalize).Blind site.unfailing :=
    blind_resolve policyId actor.normalize _
  unfold Call.Blind at haccess hresolve
  rw [perform_effectiveAccess_uncached, hresolve] at haccess
  exact (congrArg Prod.fst haccess).symm

/-- A group is given on a policy what the rules say, provided that the policy and its roster are
found. -/
theorem gives_groupAccess (hkeyed : site.Keyed) {policy : Policy} {roster : Roster}
    (hpolicy : site.view.policy? policyId = some policy)
    (hroster : site.roster? policyId = some roster)
    (hrights : site.view.OfGroup policyId groupId rights) :
    (groupAccess policyId groupId).gives site = .ok rights := by
  have hkeyed := hkeyed.unfailing
  have hlineage : ∃ groups, site.unfailing.view.Lineage groupId groups := by
    obtain ⟨lineage, -⟩ := hrights
    exact ⟨_, lineage⟩
  have hfirst := @succeeds_policyById site.unfailing rfl policyId policy hpolicy
  have hsucceeds : Succeeds (groupAccess policyId groupId) site.unfailing := by
    unfold groupAccess
    refine hfirst.bind (reads_policyById hkeyed policyId) hkeyed fun _ found hlearns hkeyed' _ => ?_
    -- the roster is found whether or not the policy was read for that
    obtain ⟨later, hlater, -⟩ := hlearns.roster?_within hroster
    have hcalm := hlearns.still.calm rfl
    refine (succeeds_rosterOf hcalm hlater).bind (reads_rosterOf hkeyed' policyId) hkeyed' ?_
    rintro live last hlearns' hkeyed'' ⟨hid, hlive⟩
    rw [← (hlearns.trans hlearns').view_eq hkeyed] at hlineage
    exact (succeeds_groupRightsIn hkeyed'' (hlearns'.still.calm hcalm) hlive hlineage).bind
      (reads_groupRightsIn hkeyed'' hid hlive groupId) hkeyed'' fun _ _ _ _ _ => succeeds_pure _ _
  obtain ⟨found, hfound⟩ := hsucceeds
  obtain ⟨hlearns, hgives⟩ := reads_groupAccess hkeyed policyId groupId
  have hheld := (hgives found hfound).mono (hlearns.view_of_recalled hkeyed)
  rw [gives, hfound, hheld.unique hrights]

end Site

end AccessRights
