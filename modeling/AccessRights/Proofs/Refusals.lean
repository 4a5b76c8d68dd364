/-
AccessRights/Proofs/Refusals.lean

What a call is never refused for.

That a parent link of policies leads nowhere, or runs in a circle, is noticed
by the walk along the links and by nothing else that a resolution does.  So
whoever knows that the walk goes through knows it of every call that resolves
rights, whatever else these calls may be refused for.

Main results: `Avoids.bind_eq_error_iff` (what comes later may be left out of
account), `avoids_ownRights` and `avoids_effectiveAccess`.
-/
import AccessRights.Proofs.Grants
import AccessRights.Proofs.Resolution

namespace AccessRights

/-! ### Broken links -/

namespace AccessError

/-- A parent link of policies runs in a circle. -/
def IsCircular : AccessError → Prop
  | circularParent _ => True
  | _ => False

/-- There is no policy of a number or a designator. -/
def IsMissing : AccessError → Prop
  | policyNotFound _ => True
  | _ => False

/-- A parent link of policies leads nowhere, or runs in a circle. -/
def IsBroken : AccessError → Prop
  | circularParent _ | policyNotFound _ => True
  | _ => False

/-- A circle is one way to break a chain of policies. -/
theorem isBroken_of_isCircular (error : AccessError) (h : error.IsCircular) : error.IsBroken := by
  cases error <;> trivial

/-- A missing policy is another one. -/
theorem isBroken_of_isMissing (error : AccessError) (h : error.IsMissing) : error.IsBroken := by
  cases error <;> trivial

end AccessError

namespace Call

variable {α β : Type} {site : Site} {bad worse : AccessError → Prop}

/-! ### Rules -/

/-- At this site the call is not refused for one of these reasons. -/
def Avoids (bad : AccessError → Prop) (call : Call α) (site : Site) : Prop :=
  ∀ error, (call.perform site).1 = .error error → ¬ bad error

/-- A call that avoids some errors avoids fewer of them. -/
theorem Avoids.mono {call : Call α} (h : call.Avoids worse site)
    (hle : ∀ error, bad error → worse error) : call.Avoids bad site :=
  fun error herror hbad => h error herror (hle error hbad)

theorem avoids_pure (value : α) : (pure value : Call α).Avoids bad site := by
  rintro error ⟨⟩

theorem avoids_throw {error : AccessError} (h : ¬ bad error) :
    (throw error : Call α).Avoids bad site := by
  rintro _ ⟨⟩
  exact h

/-- What would come after a refusal does not matter. -/
theorem avoids_throw_bind {error : AccessError} (h : ¬ bad error) (next : α → Call β) :
    ((throw error : Call α) >>= next).Avoids bad site := by
  rintro _ ⟨⟩
  exact h

theorem avoids_currentNode : Site.currentNode.Avoids bad site := by
  rintro error ⟨⟩

theorem avoids_editNode (edit : Node → Node) : (Site.editNode edit).Avoids bad site := by
  rintro error ⟨⟩

/-- The store refuses with what the context makes of a failure. -/
theorem avoids_ask {wrap : StoreError → AccessError} (h : ∀ failure, ¬ bad (wrap failure))
    (request : StoreCall α) : (ask wrap request).Avoids bad site := by
  intro error herror
  rw [perform_ask] at herror
  rcases hrun : (request.run.run site.backend).1 with failure | value <;> rw [hrun] at herror
  · cases herror
    exact h failure
  · cases herror

/-- A sequence avoids an error if both of its calls do. -/
theorem Avoids.bind {call : Call α} {next : α → Call β} (h : call.Avoids bad site)
    (hnext : ∀ value after, call.perform site = (.ok value, after) →
      (next value).Avoids bad after) :
    (call >>= next).Avoids bad site := by
  intro error herror
  rw [perform_bind] at herror
  rcases hrun : call.perform site with ⟨failure | value, after⟩ <;> rw [hrun] at herror
  · cases herror
    exact h error (congrArg Prod.fst hrun)
  · exact hnext value after hrun error herror

/-- A call that looks at the failure of its first part may pass it on. -/
theorem Avoids.bind_outcome {call : Call α} {next : Except AccessError α → Call β}
    (h : call.Avoids bad site)
    (hok : ∀ value after, call.perform site = (.ok value, after) →
      (next (.ok value)).Avoids bad after)
    (herror : ∀ error after, ¬ bad error → (next (.error error)).Avoids bad after) :
    (call.outcome >>= next).Avoids bad site := by
  intro error hlast
  rw [perform_bind, perform_outcome] at hlast
  rcases hrun : call.perform site with ⟨failure | value, after⟩ <;> rw [hrun] at hlast
  · exact herror failure after (h failure (congrArg Prod.fst hrun)) error hlast
  · exact hok value after hrun error hlast

/-- The same where it is known what the first call reads. -/
theorem Avoids.bind_reads {call : Call α} {next : α → Call β} {mid : α → Site → Prop}
    (h : call.Avoids bad site) (hreads : call.Reads site mid) (hkeyed : site.Keyed)
    (hnext : ∀ value after, site.Learns after → after.Keyed → mid value after →
      (next value).Avoids bad after) : (call >>= next).Avoids bad site := by
  refine h.bind fun value after hrun => ?_
  obtain ⟨hlearns, hpost⟩ := hreads
  rw [hrun] at hlearns hpost
  exact hnext value after hlearns (hlearns.keyed hkeyed) (hpost value rfl)

/-- Where the second part of a call is not refused for such a reason, the first part decides
whether the call is. -/
theorem Avoids.bind_eq_error_iff {call : Call α} {next : α → Call β} {error : AccessError}
    (hnext : ∀ value after, call.perform site = (.ok value, after) → (next value).Avoids bad after)
    (hbad : bad error) :
    ((call >>= next).perform site).1 = .error error ↔ (call.perform site).1 = .error error := by
  rw [perform_bind]
  rcases hrun : call.perform site with ⟨failure | value, after⟩
  · simp
  · refine iff_of_false (fun herror => hnext value after hrun error herror hbad) ?_
    rintro ⟨⟩

end Call

namespace Site

open Call

variable {site : Site} {bad : AccessError → Prop}

/-! ### Finding policies, groups and rosters -/

/-- A policy is not found for its number, for want of it, or for a failure of the store. -/
theorem avoids_policyById_of (hzero : ¬ bad .zeroPolicyId)
    (hmissing : ∀ designation, ¬ bad (.policyNotFound designation))
    (hstore : ∀ context failure, ¬ bad (.store context failure)) (id : UInt64) :
    (policyById id).Avoids bad site := by
  unfold policyById
  split
  · exact avoids_throw hzero
  · refine avoids_currentNode.bind fun node _ _ => ?_
    split
    · exact avoids_pure _
    · refine (avoids_ask (hstore _) _).bind fun found _ _ => ?_
      split
      · exact avoids_throw (hmissing _)
      · exact (avoids_editNode _).bind fun _ _ _ => avoids_pure _

/-- A policy that is looked up by number is found, or missing, but never circular. -/
theorem avoids_policyById (id : UInt64) :
    (policyById id).Avoids AccessError.IsCircular site :=
  avoids_policyById_of not_false (fun _ => not_false) (fun _ _ => not_false) id

theorem avoids_groupById (id : UInt64) : (groupById id).Avoids AccessError.IsBroken site := by
  unfold groupById
  split
  · exact avoids_throw not_false
  · refine avoids_currentNode.bind fun node _ _ => ?_
    split
    · exact avoids_pure _
    · refine (avoids_ask (fun _ => not_false) _).bind fun found _ _ => ?_
      split
      · exact avoids_throw not_false
      · exact (avoids_editNode _).bind fun _ _ _ => avoids_pure _

theorem avoids_rosterOf (policyId : UInt64) :
    (rosterOf policyId).Avoids AccessError.IsBroken site := by
  unfold rosterOf
  split
  · exact avoids_throw_bind not_false _
  refine avoids_currentNode.bind fun node _ _ => ?_
  split
  · exact avoids_pure _
  · refine (avoids_ask (fun _ => not_false) _).bind fun found _ _ => ?_
    split
    · exact avoids_throw not_false
    · dsimp only
      split
      · exact avoids_throw_bind not_false _
      · exact (avoids_editNode _).bind fun _ _ _ => avoids_pure _

/-- A circle of groups is another error than one of policies. -/
theorem avoids_ancestryFrom (trail : Trail) (groupId : UInt64) :
    (ancestryFrom trail groupId).Avoids AccessError.IsBroken site := by
  fun_induction ancestryFrom trail groupId generalizing site with
  | case1 => exact avoids_pure _
  | case2 trail groupId nonzero fresh ih =>
    exact (avoids_groupById groupId).bind fun group after _ =>
      (ih group).bind fun _ _ _ => avoids_pure _
  | case3 => exact avoids_throw not_false

/-! ### Resolving rights -/

/-- Whatever is asked of groups breaks no chain of policies. -/
theorem avoids_groupRightsIn (roster : Roster) (groupId : UInt64) :
    (groupRightsIn roster groupId).Avoids AccessError.IsBroken site :=
  Avoids.bind (avoids_ancestryFrom .empty groupId) fun _ _ _ =>
    (avoids_editNode _).bind fun _ _ _ => avoids_pure _

theorem avoids_groupsRightsIn (roster : Roster) (groupIds : List UInt64) :
    (groupsRightsIn roster groupIds).Avoids AccessError.IsBroken site := by
  induction groupIds generalizing site roster with
  | nil => exact avoids_pure _
  | cons groupId groupIds ih =>
    exact (avoids_groupRightsIn roster groupId).bind fun first _ _ =>
      (ih first.2).bind fun _ _ _ => avoids_pure _

theorem avoids_ownRights (policy : Policy) (actor : Actor) :
    (ownRights policy actor).Avoids AccessError.IsBroken site := by
  refine (avoids_rosterOf policy.id).bind fun roster _ _ => ?_
  split
  · exact avoids_pure _
  · refine avoids_currentNode.bind fun node _ _ => ?_
    refine (avoids_groupsRightsIn roster _).bind fun _ _ _ => ?_
    exact (avoids_editNode _).bind fun _ _ _ => avoids_pure _
  · exact (avoids_groupRightsIn roster actor.id).bind fun _ _ _ => avoids_pure _
  · exact (avoids_groupRightsIn roster actor.id).bind fun _ _ _ => avoids_pure _

/-- So once the chain has been walked along, nothing can be broken. -/
theorem avoids_contributedRights (actor : Actor) (policies : List Policy) :
    (contributedRights actor policies).Avoids AccessError.IsBroken site := by
  induction policies generalizing site with
  | nil => exact avoids_pure _
  | cons policy policies ih =>
    exact (avoids_ownRights policy actor).bind fun _ _ _ => ih.bind fun _ _ _ => avoids_pure _

/-- A resolution is refused for a broken link only where the walk along the links is. -/
theorem avoids_resolve {policyId : UInt64} (h : (contributors policyId).Avoids bad site)
    (hbad : ∀ error, bad error → error.IsBroken) (actor : Actor) :
    (resolve policyId actor).Avoids bad site :=
  h.bind fun policies _ _ => (avoids_contributedRights actor policies).mono hbad

/-- What is served from the cache is no refusal, and what is not is resolved. -/
theorem avoids_effectiveAccess {policyId : UInt64}
    (h : ∀ after, site.Learns after → (contributors policyId).Avoids bad after)
    (hbad : ∀ error, bad error → error.IsBroken) (actor : Actor) :
    (effectiveAccess policyId actor).Avoids bad site := by
  have hcached := perform_cached? ⟨policyId, actor.normalize⟩ site
  have hlearns := (reads_cached? site ⟨policyId, actor.normalize⟩).learns
  refine Avoids.bind (fun error herror => ?_) fun found after hrun => ?_
  · cases hcached.symm.trans herror
  rw [hrun] at hlearns
  split
  · exact avoids_pure _
  · refine avoids_currentNode.bind fun node last hlast => ?_
    cases hlast
    exact (avoids_resolve (h after hlearns) hbad _).bind fun _ _ _ =>
      (avoids_editNode _).bind fun _ _ _ => avoids_pure _

theorem avoids_hasRights {policyId : UInt64} {actor : Actor}
    (h : (effectiveAccess policyId actor).Avoids bad site) (rights : Rights) :
    (hasRights policyId actor rights).Avoids bad site :=
  h.bind fun _ _ _ => avoids_pure _

/-- A check refuses for lack of rights, besides what the resolution refuses. -/
theorem avoids_checkAccess {policyId : UInt64} {actor : Actor}
    (h : (effectiveAccess policyId actor).Avoids bad site)
    (hbad : ∀ error, bad error → error.IsBroken) (rights : Rights) :
    (checkAccess policyId actor rights).Avoids bad site := by
  refine h.bind fun held _ _ => ?_
  split
  · exact avoids_throw fun hdenied => hbad _ hdenied
  · exact avoids_pure _

/-! ### Changing rights -/

/-- Whoever is checked as a grantee is found or not, and no policy is read for it. -/
theorem avoids_checkGrantee (grantee : Actor) :
    (checkGrantee grantee).Avoids AccessError.IsBroken site := by
  have hkind (kind : GroupKind) :
      (checkGroupKind grantee.id kind).Avoids AccessError.IsBroken site := by
    refine (avoids_groupById grantee.id).bind fun group _ _ => ?_
    split
    · exact avoids_throw not_false
    · exact avoids_pure _
  unfold checkGrantee
  split
  · exact avoids_pure _
  · split
    · exact avoids_throw not_false
    · exact avoids_pure _
  · exact hkind .role
  · exact hkind .group

theorem avoids_checkRevoked (grantee : Actor) :
    (checkRevoked grantee).Avoids AccessError.IsBroken site := by
  unfold checkRevoked
  split
  · exact avoids_throw not_false
  · exact avoids_pure _

theorem avoids_openRoster (policyId : UInt64) :
    (openRoster policyId).Avoids AccessError.IsCircular site :=
  (avoids_policyById policyId).bind fun _ _ _ =>
    ((avoids_rosterOf policyId).mono AccessError.isBroken_of_isCircular).bind fun _ _ _ =>
      avoids_editNode _

/-- Settling a roster passes the refusal on. -/
theorem avoids_settle {attempt : Call Unit} (h : attempt.Avoids bad site) (policyId : UInt64) :
    (attempt.outcome >>= settle policyId).Avoids bad site := by
  refine h.bind_outcome (fun _ _ _ => avoids_editNode _) fun error after herror => ?_
  exact (avoids_editNode _).bind fun _ _ _ => (avoids_editNode _).bind fun _ _ _ =>
    avoids_throw herror

/-- A change of rights is refused for a circle only where asking for the rights of the grantor
is, once the roster is open. -/
theorem avoids_changeAccess {check : Call Unit} {policyId : UInt64} {grantor : Actor}
    {change : Change} {allowed : Rights → Prop} [DecidablePred allowed]
    {refusal : Rights → AccessError} (hcheck : check.Avoids AccessError.IsBroken site)
    (hrefusal : ∀ held, ¬ (refusal held).IsCircular)
    (hasked : ∀ after, (check >>= fun _ => openRoster policyId).perform site = (.ok (), after) →
      (effectiveAccess policyId grantor).Avoids AccessError.IsCircular after) :
    (changeAccess check policyId grantor change allowed refusal).Avoids
      AccessError.IsCircular site := by
  unfold changeAccess
  rw [← bind_assoc]
  refine Avoids.bind ?_ fun _ after hrun => ?_
  · exact (hcheck.mono AccessError.isBroken_of_isCircular).bind fun _ _ _ =>
      avoids_openRoster policyId
  · refine avoids_settle ((hasked after hrun).bind fun held _ _ => ?_) policyId
    split
    · exact avoids_editNode _
    · exact avoids_throw (hrefusal held)

end Site

end AccessRights
