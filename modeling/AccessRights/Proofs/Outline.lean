/-
AccessRights/Proofs/Outline.lean

Resolutions fail for reasons that have nothing to do with rights.

A resolution can fail at a policy, a group or a roster that is not there, or
at a walk that runs in a circle.  What rosters hold has no part in that.  So two
sites that would find the same policies, groups and memberships, and rosters for
the same policies, fail alike, however different the rights are that they give
(`Call.EndsAlike`).  Of a policy only its role counts (`Policy.role`), not what it
designates or when it was changed.  They need not have read the same of it so far: the argument
compares two runs call by call, and what either run learns on its way changes
nothing of what it would find.

Main results: `Outlines.resolve` and `freshRights_eq_of_outline`.
-/
import AccessRights.Proofs.Serving

namespace AccessRights

/-- What of a policy has a part in the rights that anybody has: its number, its parent, its owner and
its flags. -/
def Policy.role (policy : Policy) : UInt64 × UInt64 × UInt64 × PolicyFlags :=
  (policy.id, policy.parentId, policy.ownerId, policy.flags)

/-- The role of a policy in a resolution is its place in the tree, its owner and its
flags. -/
theorem Policy.role_eq_iff {policy other : Policy} : other.role = policy.role ↔
    other.id = policy.id ∧ other.parentId = policy.parentId ∧ other.ownerId = policy.ownerId ∧
      other.flags = policy.flags := by
  simp only [role, Prod.mk.injEq]

/-! ### Sites with the same outline -/

/-- The views agree in everything but the rights that rosters hold, and in policies as far as their
roles go. -/
structure View.SameOutline (view other : View) : Prop where
  policy (id : UInt64) : (other.policy? id).map Policy.role = (view.policy? id).map Policy.role
  group (id : UInt64) : other.group? id = view.group? id
  groupsOf (actor : Actor) : other.groupsOf actor = view.groupsOf actor
  roster (id : UInt64) : (other.everyone? id).isSome = (view.everyone? id).isSome

namespace Site

variable {site twin after after' : Site}

/-- The stores do not fail, and the sites would find the same, but for the rights that rosters
hold. -/
structure Outlines (site twin : Site) : Prop where
  sound : site.Sound
  sound' : twin.Sound
  calm : site.backend.faults = []
  calm' : twin.backend.faults = []
  view : site.view.SameOutline twin.view

/-- What either side learns makes no difference. -/
theorem Outlines.learns (h : site.Outlines twin) (hlearns : site.Learns after)
    (hlearns' : twin.Learns after') : after.Outlines after' := by
  refine ⟨hlearns.sound h.sound, hlearns'.sound h.sound', hlearns.still.calm h.calm,
    hlearns'.still.calm h.calm', ?_⟩
  rw [hlearns.view_eq h.sound.keyed, hlearns'.view_eq h.sound'.keyed]
  exact h.view

end Site

namespace Call

variable {α β : Type} {site twin : Site}

/-! ### Calls that end alike -/

/-- Both results are failures for the same reason, or neither is one and the values go together. -/
inductive Matching (same : α → α → Prop) : Except AccessError α → Except AccessError α → Prop
  | failed (error : AccessError) : Matching same (.error error) (.error error)
  | done {value value' : α} (together : same value value') : Matching same (.ok value) (.ok value')

theorem Matching.refl (result : Except AccessError α) : Matching Eq result result := by
  cases result with
  | error error => exact .failed error
  | ok value => exact .done rfl

/-- One call at one site ends like the other call at the other site. -/
def EndsAlike (call call' : Call α) (same : α → α → Prop) (site twin : Site) : Prop :=
  Matching same (call.perform site).1 (call'.perform twin).1

theorem endsAlike_pure {same : α → α → Prop} {value value' : α} (h : same value value') :
    EndsAlike (pure value) (pure value') same site twin :=
  .done h

theorem endsAlike_throw (error : AccessError) (same : α → α → Prop) :
    EndsAlike (throw error) (throw error) same site twin :=
  .failed error

theorem endsAlike_currentNode {next next' : Node → Call β} {same : β → β → Prop}
    (h : EndsAlike (next site.node) (next' twin.node) same site twin) :
    EndsAlike (Site.currentNode >>= next) (Site.currentNode >>= next') same site twin := by
  unfold EndsAlike
  rw [perform_bind, perform_bind, Site.perform_currentNode, Site.perform_currentNode]
  exact h

/-- Sequences fail alike if both of their parts do, at sites that keep the same outline.
-/
theorem EndsAlike.bind {call call' : Call α} {next next' : α → Call β} {same : α → α → Prop}
    {same' : β → β → Prop} {mid mid' : α → Site → Prop} (h : EndsAlike call call' same site twin)
    (houtlines : site.Outlines twin) (hreads : call.Reads site mid) (hreads' : call'.Reads twin mid')
    (hnext : ∀ {value value' : α} {after after' : Site}, same value value' →
      after.Outlines after' → mid value after → mid' value' after' →
        EndsAlike (next value) (next' value') same' after after') :
    EndsAlike (call >>= next) (call' >>= next') same' site twin := by
  obtain ⟨hlearns, hpost⟩ := hreads
  obtain ⟨hlearns', hpost'⟩ := hreads'
  have hlearned := houtlines.learns hlearns hlearns'
  unfold EndsAlike at h ⊢
  rw [perform_bind, perform_bind]
  rcases hrun : call.perform site with ⟨result, after⟩
  rcases hrun' : call'.perform twin with ⟨result', after'⟩
  rw [hrun] at h hpost hlearned
  rw [hrun'] at h hpost' hlearned
  cases h with
  | failed error => exact .failed error
  | done together => exact hnext together hlearned (hpost _ rfl) (hpost' _ rfl)

end Call

namespace Site

open Call

variable {site twin : Site} {policyId groupId : UInt64} {roster roster' : Roster}

/-! ### Finding things -/

/-- Policies are found alike, though their designators may differ. -/
theorem Outlines.policyById (h : site.Outlines twin) (id : UInt64) :
    EndsAlike (policyById id) (policyById id) (fun policy policy' => policy'.role = policy.role)
      site twin := by
  unfold EndsAlike
  rw [policyById_of_calm h.calm, policyById_of_calm h.calm']
  have hroles := h.view.policy id
  split
  · exact .failed _
  cases hpolicy : site.view.policy? id <;> cases hpolicy' : twin.view.policy? id <;>
    rw [hpolicy, hpolicy'] at hroles
  · exact .failed _
  · cases hroles
  · cases hroles
  · exact .done (Option.some.inj hroles)

/-- The same groups are found. -/
theorem Outlines.groupById (h : site.Outlines twin) (id : UInt64) :
    EndsAlike (groupById id) (groupById id) Eq site twin := by
  unfold EndsAlike
  rw [groupById_of_calm h.calm, groupById_of_calm h.calm', h.view.group]
  exact .refl _

/-- A roster that is not found is not stored, under whatever number. -/
theorem rosterOf_of_calm_of_none (hsound : site.Sound) (hcalm : site.backend.faults = [])
    (hid : policyId ≠ 0) (hroster : site.roster? policyId = none) :
    ((rosterOf policyId).perform site).1 = .error (.nilRoster policyId) := by
  -- a site without the roster has it neither live nor stored
  have hlive : site.node.rosters[policyId]? = none := by
    refine Option.eq_none_iff_forall_ne_some.2 fun roster hlive => ?_
    rw [roster?_of_live hlive, if_neg hid] at hroster
    cases hroster
  have hstored : site.backend.store.policies.roster? policyId = none := by
    refine Option.eq_none_iff_forall_ne_some.2 fun record hstored => ?_
    rw [roster?_of_stored hlive hstored (hsound.store.policies.roster hstored).1, if_neg hid]
      at hroster
    cases hroster
  have hask := perform_ask_of_calm (Backend.looks_rosterOfPolicy policyId)
    (.store ("roster of policy " ++ toString policyId)) hcalm
  rw [hstored] at hask
  unfold rosterOf
  rw [if_neg hid]
  dsimp only
  rw [perform_bind, perform_currentNode]
  dsimp only
  rw [hlive]
  dsimp only
  rw [perform_bind, hask]
  rfl

/-- Rosters are found alike, whatever is in them. -/
theorem Outlines.rosterOf (h : site.Outlines twin) (policyId : UInt64) :
    EndsAlike (rosterOf policyId) (rosterOf policyId) (fun _ _ => True) site twin := by
  by_cases hid : policyId = 0
  · subst hid
    exact endsAlike_throw _ _
  have hsome : (twin.roster? policyId).isSome = (site.roster? policyId).isSome := by
    simpa [Site.view] using h.view.roster policyId
  unfold EndsAlike
  cases hroster : site.roster? policyId with
  | none =>
    rw [hroster, Option.isSome_none, Option.isSome_eq_false_iff, Option.isNone_iff_eq_none] at hsome
    rw [rosterOf_of_calm_of_none h.sound h.calm hid hroster,
      rosterOf_of_calm_of_none h.sound' h.calm' hid hsome]
    exact .failed _
  | some roster =>
    rw [hroster, Option.isSome_some] at hsome
    obtain ⟨roster', hroster'⟩ := Option.isSome_iff_exists.1 hsome
    obtain ⟨live, hlive⟩ := succeeds_rosterOf h.calm hroster
    obtain ⟨live', hlive'⟩ := succeeds_rosterOf h.calm' hroster'
    rw [hlive, hlive']
    exact .done trivial

/-! ### The rights of groups -/

/-- The same lineages are walked up. -/
theorem Outlines.ancestryFrom (h : site.Outlines twin) (trail : Trail) (groupId : UInt64) :
    EndsAlike (ancestryFrom trail groupId) (ancestryFrom trail groupId) Eq site twin := by
  induction trail, groupId using ancestryFrom.induct generalizing site twin with
  | case1 trail =>
    rw [Site.ancestryFrom, if_pos rfl]
    exact endsAlike_pure rfl
  | case2 trail groupId nonzero fresh ih =>
    rw [Site.ancestryFrom, if_neg nonzero, dif_pos fresh]
    refine (h.groupById groupId).bind h (reads_groupById h.sound.keyed groupId)
      (reads_groupById h.sound'.keyed groupId) ?_
    rintro group _ after after' rfl h - -
    refine (ih group h).bind h (reads_ancestryFrom h.sound.keyed _ _)
      (reads_ancestryFrom h.sound'.keyed _ _) ?_
    rintro ancestors _ _ _ rfl - - -
    exact endsAlike_pure rfl
  | case3 trail groupId nonzero stale =>
    rw [Site.ancestryFrom, if_neg nonzero, dif_neg stale]
    exact endsAlike_throw _ _

/-- Only the way up from the group can fail, whatever the rosters are. -/
theorem Outlines.groupRightsIn (h : site.Outlines twin) (roster roster' : Roster) (groupId : UInt64) :
    EndsAlike (groupRightsIn roster groupId) (groupRightsIn roster' groupId) (fun _ _ => True)
      site twin := by
  refine (h.ancestryFrom .empty groupId).bind h (reads_ancestry h.sound.keyed groupId)
    (reads_ancestry h.sound'.keyed groupId) ?_
  intro _ _ _ _ _ _ _ _
  exact .done trivial

theorem Outlines.groupsRightsIn (h : site.Outlines twin) (hid : policyId ≠ 0)
    (hlive : site.node.rosters[policyId]? = some roster)
    (hlive' : twin.node.rosters[policyId]? = some roster') (groupIds : List UInt64) :
    EndsAlike (groupsRightsIn roster groupIds) (groupsRightsIn roster' groupIds) (fun _ _ => True)
      site twin := by
  induction groupIds generalizing site twin roster roster' with
  | nil => exact endsAlike_pure trivial
  | cons groupId groupIds ih =>
    refine (h.groupRightsIn roster roster' groupId).bind h
      (reads_groupRightsIn h.sound.keyed hid hlive groupId)
      (reads_groupRightsIn h.sound'.keyed hid hlive' groupId) ?_
    rintro first first' _ _ - h ⟨hlive, -⟩ ⟨hlive', -⟩
    refine (ih h hlive hlive').bind h (reads_groupsRightsIn h.sound.keyed hid hlive groupIds)
      (reads_groupsRightsIn h.sound'.keyed hid hlive' groupIds) ?_
    intro _ _ _ _ _ _ _ _
    exact endsAlike_pure trivial

/-! ### The rights of an actor -/

/-- What a policy gives by itself is found at both or at neither. -/
theorem Outlines.ownRights (h : site.Outlines twin) {policy policy' : Policy}
    (hid : policy'.id = policy.id) (actor : Actor) :
    EndsAlike (ownRights policy actor) (ownRights policy' actor) (fun _ _ => True) site twin := by
  unfold Site.ownRights
  rw [hid]
  refine (h.rosterOf policy.id).bind h (reads_rosterOf h.sound.keyed policy.id)
    (reads_rosterOf h.sound'.keyed policy.id) ?_
  rintro roster roster' after after' - h ⟨hid, hlive⟩ ⟨-, hlive'⟩
  cases actor.kind with
  | everyone => exact endsAlike_pure trivial
  | role | group =>
    refine (h.groupRightsIn roster roster' actor.id).bind h
      (reads_groupRightsIn h.sound.keyed hid hlive actor.id)
      (reads_groupRightsIn h.sound'.keyed hid hlive' actor.id) ?_
    intro _ _ _ _ _ _ _ _
    exact endsAlike_pure trivial
  | user =>
    have hgroups : (after'.node.groups.groupsByAsset .anyKind actor).map Group.id =
        (after.node.groups.groupsByAsset .anyKind actor).map Group.id := by
      rw [← GroupIndex.joined_eq, ← GroupIndex.joined_eq]
      exact h.view.groupsOf actor
    apply endsAlike_currentNode
    dsimp only
    rw [hgroups]
    refine (h.groupsRightsIn hid hlive hlive' _).bind h
      (reads_groupsRightsIn h.sound.keyed hid hlive _)
      (reads_groupsRightsIn h.sound'.keyed hid hlive' _) ?_
    intro _ _ _ _ _ _ _ _
    exact .done trivial

/-- The walks meet policies of the same roles. -/
theorem Outlines.contributorsFrom (h : site.Outlines twin) (trail : Trail) (policyId : UInt64) :
    EndsAlike (contributorsFrom trail policyId) (contributorsFrom trail policyId)
      (fun policies policies' => policies'.map Policy.role = policies.map Policy.role) site twin := by
  induction trail, policyId using contributorsFrom.induct generalizing site twin with
  | case1 trail policyId fresh ih =>
    rw [Site.contributorsFrom, dif_pos fresh]
    refine (h.policyById policyId).bind h (reads_policyById h.sound.keyed policyId)
      (reads_policyById h.sound'.keyed policyId) ?_
    intro policy policy' after after' hrole h _ _
    -- whether the walk goes on, and where, is part of the role
    obtain ⟨-, hparent, -, hflags⟩ := Policy.role_eq_iff.1 hrole
    unfold Policy.isInherited Policy.isExtended
    rw [hparent, hflags]
    split
    · exact ih policy h
    split
    · refine (ih policy h).bind h (reads_contributorsFrom h.sound.keyed _ _)
        (reads_contributorsFrom h.sound'.keyed _ _) ?_
      intro others others' _ _ hroles _ _ _
      exact endsAlike_pure (by rw [List.map_cons, List.map_cons, hrole, hroles])
    · exact endsAlike_pure (by rw [List.map_singleton, List.map_singleton, hrole])
  | case2 trail policyId stale =>
    rw [Site.contributorsFrom, dif_neg stale]
    exact endsAlike_throw _ _

/-- So resolutions fail alike at sites of the same outline. -/
theorem Outlines.contributedRights (h : site.Outlines twin) (actor : Actor)
    {policies policies' : List Policy} (hroles : policies'.map Policy.role = policies.map Policy.role) :
    EndsAlike (contributedRights actor policies) (contributedRights actor policies')
      (fun _ _ => True) site twin := by
  induction policies generalizing site twin policies' with
  | nil =>
    obtain rfl := List.map_eq_nil_iff.1 hroles
    exact endsAlike_pure trivial
  | cons policy policies ih =>
    obtain ⟨policy', policies', rfl, hrole, hroles⟩ := List.map_eq_cons_iff.1 hroles
    obtain ⟨hid, -⟩ := Policy.role_eq_iff.1 hrole
    refine (h.ownRights hid actor).bind h (reads_ownRights h.sound.keyed policy actor)
      (reads_ownRights h.sound'.keyed policy' actor) ?_
    rintro own own' after after' - h - -
    refine (ih h hroles).bind h (reads_contributedRights h.sound.keyed actor policies)
      (reads_contributedRights h.sound'.keyed actor policies') ?_
    intro _ _ _ _ _ _ _ _
    exact endsAlike_pure trivial

/-- A resolution gives rights at both sites, or fails at both for the same reason. -/
theorem Outlines.resolve (h : site.Outlines twin) (policyId : UInt64) (actor : Actor) :
    EndsAlike (resolve policyId actor) (resolve policyId actor) (fun _ _ => True) site twin := by
  refine (h.contributorsFrom .empty policyId).bind h
    (reads_contributorsFrom h.sound.keyed .empty policyId)
    (reads_contributorsFrom h.sound'.keyed .empty policyId) ?_
  intro policies policies' after after' hroles h _ _
  exact h.contributedRights actor hroles

/-- Where rights that the rules derive are derived still, a resolution past the cache gives what it
gave, and fails as it failed. -/
theorem freshRights_eq_of_outline (hsound : site.Sound) (hsound' : twin.Sound)
    (houtline : site.view.SameOutline twin.view) {actor : Actor}
    (hrights : ∀ rights, site.view.Effective actor.normalize policyId rights →
      twin.view.Effective actor.normalize policyId rights) :
    twin.freshRights policyId actor = site.freshRights policyId actor := by
  have houtlines : site.unfailing.Outlines twin.unfailing :=
    ⟨hsound.unfailing, hsound'.unfailing, rfl, rfl, houtline⟩
  have hends : Matching _ (site.freshRights policyId actor) (twin.freshRights policyId actor) :=
    houtlines.resolve policyId actor.normalize
  generalize hbefore : site.freshRights policyId actor = before at hends ⊢
  generalize hafter : twin.freshRights policyId actor = later at hends ⊢
  cases hends with
  | failed => rfl
  | done =>
    rw [freshRights_eq_ok_iff hsound.keyed] at hbefore
    rw [← hafter, freshRights_eq_ok_iff hsound'.keyed]
    exact hrights _ hbefore

end Site

end AccessRights
