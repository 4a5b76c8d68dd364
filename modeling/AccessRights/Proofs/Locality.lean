/-
AccessRights/Proofs/Locality.lean

Who notices that the rights of somebody on a policy are changed.

A grant or a revocation changes one cell of one roster.  On the one hand only
policies notice whose walk passes the changed one (`View.Contributes`), and that has to
give rights of its own: what is granted on an inherited policy has no effect at
all.  On the other hand only those actors notice for whom the cell counts
(`View.Counts`): the user whose cell it is, and whoever has its group or role
above itself or above one of its groups.  The rights of everyone concern everyone.

Nothing changes for anybody else, not even the reason why a resolution fails.
The walks are the same before and after, as no change of rights touches a parent
link, so it suffices to follow what the rules derive from one view to the other.

Main results: `View.Effective.withRegistry` and `access_changed_locally`.
-/
import AccessRights.Proofs.Delegation
import AccessRights.Proofs.Outline

namespace AccessRights

namespace View

variable {view other : View} {policyId id : UInt64} {actor grantee : Actor} {policy : Policy}
  {path : List UInt64} {policies : List Policy} {registry : Registry} {change : Change}
  {rights : Rights}

/-! ### Policies that contribute -/

/-- The policy is on the walk from another one, and is not itself inherited. -/
def Contributes (view : View) (policyId id : UInt64) : Prop :=
  ∃ path policies, view.Walk id path policies ∧ policyId ∈ path ∧
    ∃ policy, view.policy? policyId = some policy ∧ policy.isInherited = false

/-- A policy whose rights count was found on the way, and is not inherited. -/
theorem Walk.of_mem (h : view.Walk id path policies) (hmem : policy ∈ policies) :
    ∃ other ∈ path, view.policy? other = some policy ∧ policy.isInherited = false := by
  induction h with
  | inherited _ _ _ ih =>
    obtain ⟨other, hother, hpolicy⟩ := ih hmem
    exact ⟨other, List.mem_cons_of_mem _ hother, hpolicy⟩
  | extended found hinherited _ _ ih =>
    obtain rfl | hmem := List.mem_cons.1 hmem
    · exact ⟨_, List.mem_cons_self, found, hinherited⟩
    · obtain ⟨other, hother, hpolicy⟩ := ih hmem
      exact ⟨other, List.mem_cons_of_mem _ hother, hpolicy⟩
  | alone found hinherited =>
    obtain rfl := List.mem_singleton.1 hmem
    exact ⟨_, List.mem_cons_self, found, hinherited⟩

/-- From whatever a walk passes the rest of it is a walk. -/
theorem Walk.rest (h : view.Walk id path policies) {passed : UInt64} (hmem : passed ∈ path) :
    ∃ rest others, view.Walk passed rest others ∧ rest.length ≤ path.length := by
  induction h with
  | inherited found hinherited parent ih =>
    obtain rfl | hmem := List.mem_cons.1 hmem
    · exact ⟨_, _, .inherited found hinherited parent, Nat.le_refl _⟩
    · obtain ⟨rest, others, hrest, hle⟩ := ih hmem
      exact ⟨rest, others, hrest, Nat.le_succ_of_le hle⟩
  | extended found hinherited hextended parent ih =>
    obtain rfl | hmem := List.mem_cons.1 hmem
    · exact ⟨_, _, .extended found hinherited hextended parent, Nat.le_refl _⟩
    · obtain ⟨rest, others, hrest, hle⟩ := ih hmem
      exact ⟨rest, others, hrest, Nat.le_succ_of_le hle⟩
  | alone found hinherited hextended =>
    obtain rfl := List.mem_singleton.1 hmem
    exact ⟨_, _, .alone found hinherited hextended, Nat.le_refl _⟩

theorem not_contributes_of_inherited (hpolicy : view.policy? policyId = some policy)
    (hinherited : policy.isInherited = true) : ¬ view.Contributes policyId id := by
  rintro ⟨-, -, -, -, found, hfound, hown⟩
  obtain rfl := Option.some.inj (hpolicy.symm.trans hfound)
  rw [hinherited] at hown
  cases hown

/-- The walk from a parent does not come back to an extended child, or it would never end. -/
theorem not_contributes_parent (hpolicy : view.policy? policyId = some policy)
    (hextended : policy.isExtended = true) : ¬ view.Contributes policyId policy.parentId := by
  rintro ⟨path, policies, hwalk, hmem, found, hfound, hown⟩
  obtain rfl := Option.some.inj (hpolicy.symm.trans hfound)
  obtain ⟨rest, others, hrest, hle⟩ := hwalk.rest hmem
  obtain ⟨rfl, -⟩ := hrest.unique (.extended hpolicy hown hextended hwalk)
  exact Nat.not_succ_le_self _ hle

/-- A walk depends on policies only. -/
theorem Walk.congr (h : view.Walk id path policies) (hpolicy : other.policy? = view.policy?) :
    other.Walk id path policies := by
  induction h with
  | inherited found hinherited _ ih => exact .inherited (hpolicy ▸ found) hinherited ih
  | extended found hinherited hextended _ ih =>
    exact .extended (hpolicy ▸ found) hinherited hextended ih
  | alone found hinherited hextended => exact .alone (hpolicy ▸ found) hinherited hextended

/-! ### Cells that count -/

/-- Whose cells count for the rights of an actor: a user's own, and those of all groups on the way
up from the groups that concern the actor. -/
inductive Counts (view : View) (actor : Actor) : Actor → Prop
  | self (user : actor.kind = .user) : Counts view actor actor
  | above {groupId : UInt64} {groups : List Group} {group : Group}
      (concerning : groupId ∈ view.groupsConcerning actor)
      (lineage : view.Lineage groupId groups) (listed : group ∈ groups) :
      Counts view actor (holder group)

/-- A change for the grantee can make a difference to the actor. -/
def Concerns (view : View) (grantee actor : Actor) : Prop :=
  grantee.isEveryone = true ∨ view.Counts actor grantee

/-- It makes no difference how the public is written. -/
theorem Concerns.of_normalize (h : view.Concerns grantee.normalize actor) :
    view.Concerns grantee actor := by
  cases hpublic : grantee.isEveryone with
  | true => exact .inl hpublic
  | false => rwa [Actor.normalize_of_not_everyone hpublic] at h

theorem Contributed.imp (h : view.Contributed actor policies rights)
    (himp : ∀ policy ∈ policies, ∀ own, view.Own policy actor own → other.Own policy actor own) :
    other.Contributed actor policies rights := by
  induction h with
  | nil => exact .nil
  | cons first _ ih =>
    exact .cons (himp _ List.mem_cons_self _ first)
      (ih fun policy hmem => himp policy (List.mem_cons_of_mem _ hmem))

/-- What a policy by itself gives an actor depends on groups, memberships, the rights of everyone
and the cells that count. -/
theorem Own.congr (h : view.Own policy actor rights) (hgroup : other.group? = view.group?)
    (hgroupsOf : other.groupsOf = view.groupsOf)
    (heveryone : other.everyone? policy.id = view.everyone? policy.id)
    (hcell : ∀ asked, view.Counts actor asked →
      other.cell? policy.id asked = view.cell? policy.id asked) : other.Own policy actor rights := by
  -- the cells above a group that concerns the actor all count
  have hofGroup (groupId : UInt64) (hconcerning : groupId ∈ view.groupsConcerning actor)
      (rights : Rights) (hrights : view.OfGroup policy.id groupId rights) :
      other.OfGroup policy.id groupId rights := by
    obtain ⟨lineage, nearest⟩ := hrights
    refine .intro (lineage.congr hgroup) (nearest.imp fun asked hasked cell hfound => ?_)
    obtain ⟨group, hlisted, rfl⟩ := List.mem_map.1 hasked
    rw [hcell _ (.above hconcerning lineage hlisted), hfound]
  cases h with
  | everyone kind everyone => exact .everyone kind (heveryone.trans everyone)
  | user kind everyone groups cell =>
    have hconcerning : view.groupsConcerning actor = view.groupsOf actor := by
      unfold groupsConcerning
      rw [kind]
    rw [hconcerning] at hofGroup
    have hgroups := groups.imp hofGroup
    rw [← hgroupsOf] at hgroups
    exact .user kind (heveryone.trans everyone) hgroups ((hcell actor (.self kind)).trans cell)
  | group kind everyone group =>
    have hconcerning : view.groupsConcerning actor = [actor.id] := by
      unfold groupsConcerning
      rcases kind with kind | kind <;> rw [kind]
    rw [hconcerning] at hofGroup
    have hgroup := hofGroup actor.id List.mem_cons_self _ group
    exact .group kind (heveryone.trans everyone) hgroup

/-! ### Another roster for one policy -/

/-- A change of the roster of one policy makes no difference to what that policy gives somebody it
does not concern, and none to what other policies give. -/
theorem Own.withRegistry (h : view.Own policy actor rights) (hshows : view.Shows policyId registry)
    (hclear : policyId = policy.id → ¬ view.Concerns change.actor actor) :
    (view.withRegistry policyId (registry.apply change)).Own policy actor rights := by
  have hlater := view.shows_withRegistry policyId (registry.apply change)
  by_cases hid : policyId = policy.id
  · obtain ⟨hpublic, hcounts⟩ := not_or.1 (hclear hid)
    have hkept (asked : Actor) (hne : change.actor ≠ asked) :
        (registry.apply change).rightsOf? asked = registry.rightsOf? asked :=
      Registry.rightsOf?_apply_of_ne hne fun hboth => hpublic hboth.1
    rw [hid] at hshows hlater
    rw [hid]
    refine h.congr rfl rfl ?_ fun asked hasked => ?_
    · have hne : change.actor ≠ .everyone := fun heq => hpublic (heq ▸ rfl)
      rw [hlater.everyone, hshows.everyone]
      exact hkept .everyone hne
    · rw [hlater.cell, hshows.cell, hkept asked fun heq => hcounts (heq ▸ hasked)]
  · exact h.congr rfl rfl (everyone?_withRegistry_of_ne hid) fun asked _ =>
      cell?_withRegistry_of_ne hid asked

/-- Whoever notices has the changed policy contribute, and is concerned. -/
theorem Effective.withRegistry (h : view.Effective actor id rights)
    (hshows : view.Shows policyId registry)
    (hown : ∀ {id policy}, view.policy? id = some policy → policy.id = id)
    (hclear : ¬ (view.Contributes policyId id ∧ view.Concerns change.actor actor)) :
    (view.withRegistry policyId (registry.apply change)).Effective actor id rights := by
  obtain ⟨path, policies, hwalk, hrights⟩ := effective_iff_walk.1 h
  refine effective_iff_walk.2 ⟨path, policies, hwalk.congr rfl, hrights.imp ?_⟩
  intro policy hmem own hgives
  refine hgives.withRegistry hshows fun hid hconcerns => hclear ⟨?_, hconcerns⟩
  -- what the walk collects it has found on its way, under its own number
  obtain ⟨passed, hpassed, hfound, hinherited⟩ := hwalk.of_mem hmem
  obtain rfl : policyId = passed := hid.trans (hown hfound)
  exact ⟨path, policies, hwalk, hpassed, policy, hfound, hinherited⟩

theorem Shows.sameOutline_withRegistry (h : view.Shows policyId registry) (later : Registry) :
    view.SameOutline (view.withRegistry policyId later) where
  policy _ := rfl
  group _ := rfl
  groupsOf _ := rfl
  roster id := by
    by_cases hid : policyId = id
    · subst hid
      rw [(view.shows_withRegistry policyId later).everyone, h.everyone, Option.isSome_some,
        Option.isSome_some]
    · rw [everyone?_withRegistry_of_ne hid]

end View

namespace Site

open Call

variable {site after : Site} {policyId : UInt64} {grantor grantee : Actor} {rights : Rights}

/-! ### Granting and revoking -/

/-- A change of rights that succeeds is noticed only where the policy contributes, by those whom it
concerns. -/
theorem ChangeEnds.local_of_ok {opening : Call Unit} {allowed : Rights → Prop} {change : Change}
    (hsound : site.Sound)
    (h : site.ChangeEnds opening policyId grantor allowed change (.ok (), after)) {id : UInt64}
    {actor : Actor} (hchanged : after.freshRights id actor ≠ site.freshRights id actor) :
    site.view.Contributes policyId id ∧ site.view.Concerns change.actor actor.normalize := by
  have hpasses : Site.Passes False 0 site after := h.passes hsound
  have hsound' := (hpasses.sound hsound (Store.hasRoom_zero _)).1
  obtain ⟨roster, hroster, -, hview⟩ := h.changed_view hsound
  have hshows := shows_of_roster? hroster
  have houtline := hshows.sameOutline_withRegistry (roster.registry.apply change)
  by_contra hclear
  refine hchanged (freshRights_eq_of_outline hsound hsound' (hview ▸ houtline) fun rights hrights => ?_)
  rw [hview]
  exact hrights.withRegistry hshows hsound.policyId_of_view hclear

/-- A grant or a revocation that succeeds changes what an actor has on a policy only if the changed
policy contributes there and the grantee concerns the actor; otherwise a resolution gives the same, or
fails as before.  So on an inherited policy it changes nothing for anybody, and on an extended one
nothing for its parent.  Where nobody has worked on live rosters past the rules for grants, that is
what calls are answered with. -/
theorem access_changed_locally (hreached : site.Reached .all)
    (hdone : (grantAccess policyId grantor grantee rights).perform site = (.ok (), after) ∨
      (revokeAccess policyId grantor grantee).perform site = (.ok (), after)) :
    (∀ id actor, after.freshRights id actor ≠ site.freshRights id actor →
      site.view.Contributes policyId id ∧ site.view.Concerns grantee actor.normalize) ∧
    (∀ policy, site.view.policy? policyId = some policy →
      (policy.isInherited = true → ∀ id actor,
        after.freshRights id actor = site.freshRights id actor) ∧
      (policy.isExtended = true → ∀ actor,
        after.freshRights policy.parentId actor = site.freshRights policy.parentId actor)) ∧
    (site.Reached .requests → after.node.changes < UInt64.size → ∀ id actor,
      (effectiveAccess id actor).gives site = site.freshRights id actor ∧
        (effectiveAccess id actor).gives after = after.freshRights id actor) := by
  have hsound := hreached.sound
  have hends : ∃ opening allowed change, change.actor = grantee.normalize ∧
      site.ChangeEnds opening policyId grantor allowed change (.ok (), after) := by
    obtain hdone | hdone := hdone
    · exact ⟨_, _, _, rfl, hdone ▸ grantAccess_ends hsound policyId grantor grantee rights⟩
    · exact ⟨_, _, _, rfl, hdone ▸ revokeAccess_ends hsound policyId grantor grantee⟩
  obtain ⟨opening, allowed, change, hgrantee, hends⟩ := hends
  have hlocal (id : UInt64) (actor : Actor)
      (hchanged : after.freshRights id actor ≠ site.freshRights id actor) :
      site.view.Contributes policyId id ∧ site.view.Concerns grantee actor.normalize := by
    obtain ⟨hcontributes, hconcerns⟩ := hends.local_of_ok hsound hchanged
    rw [hgrantee] at hconcerns
    exact ⟨hcontributes, hconcerns.of_normalize⟩
  refine ⟨hlocal, fun policy hpolicy => ⟨fun hinherited id actor => ?_, fun hextended actor => ?_⟩,
    fun hrequests => hends.gives_fresh hrequests⟩
  -- an inherited policy contributes nowhere, and an extended one not to its own parent
  · by_contra hchanged
    exact View.not_contributes_of_inherited hpolicy hinherited (hlocal id actor hchanged).1
  · by_contra hchanged
    exact View.not_contributes_parent hpolicy hextended (hlocal _ actor hchanged).1

/-- The team has a second policy that extends the first one, and a third that inherits the second. -/
def teamExtended : Site :=
  (team.live [
    (default, .createPolicy (some "note") 1 1 none .extend),
    (default, .createPolicy (some "copy") 1 2 none .inherit)]).2

theorem reached_teamExtended : teamExtended.Reached .calm :=
  reached_team.live (fun _ _ _ => trivial) ⟨by decide +kernel, by decide +kernel⟩

/-- The owner lets the upper group view the second policy. -/
def noteShared : Except AccessError Unit × Site :=
  (grantAccess 2 (.user 1) (.group 1) .view).perform teamExtended

theorem fst_noteShared : noteShared.1 = .ok () := by
  decide +kernel

/-- A member of the lower group notices on the third policy, and does not on the first. -/
theorem access_changed_locally_team :
    (noteShared.2.freshRights 3 (.user 7) = .ok .view ∧ teamExtended.view.Contributes 2 3 ∧
      teamExtended.view.Concerns (.group 1) (.user 7)) ∧
    noteShared.2.freshRights 1 (.user 7) = teamExtended.freshRights 1 (.user 7) := by
  have hdone : (grantAccess 2 (.user 1) (.group 1) .view).perform teamExtended =
      (.ok (), noteShared.2) := Prod.ext fst_noteShared rfl
  have hbefore : teamExtended.freshRights 3 (.user 7) = .ok ∅ := by decide +kernel
  have hafter : noteShared.2.freshRights 3 (.user 7) = .ok .view := by decide +kernel
  have hextended : (teamExtended.view.policy? 2).any Policy.isExtended = true := by decide +kernel
  have hparent : (teamExtended.view.policy? 2).map Policy.parentId = some 1 := by decide +kernel
  obtain ⟨policy, hpolicy, hparent⟩ := Option.map_eq_some_iff.1 hparent
  rw [hpolicy, Option.any_some] at hextended
  obtain ⟨hlocal, hframe, -⟩ :=
    access_changed_locally (reached_teamExtended.mono (Rules.le_all _)) (.inl hdone)
  have hchanged : noteShared.2.freshRights 3 (.user 7) ≠ teamExtended.freshRights 3 (.user 7) := by
    rw [hbefore, hafter]
    decide
  have hparentKept := (hframe policy hpolicy).2 hextended (.user 7)
  rw [hparent] at hparentKept
  exact ⟨⟨hafter, hlocal 3 (.user 7) hchanged⟩, hparentKept⟩

end Site

end AccessRights
