/-
AccessRights/Proofs/Membership.lean

What joining and leaving a group do to rights.

Memberships count only for the rights of the member, and only if it is a user.  What
a policy gives a user is a union, and the groups of the user are some of its parts
(`Own.mem_iff`).  So a further membership adds what the group has on each policy that
contributes, and nothing else, however many other groups give the same (`Regrouped.mem_iff`).

Whether a resolution fails has nothing to do with memberships: the walk over policies does
not look at groups, and the groups that somebody is a member of lead to a root
(`Furnished`).

Main result: `Reached.memberships_act`.
-/
import AccessRights.Proofs.Ancestry
import AccessRights.Proofs.Browsing
import AccessRights.Proofs.Locality
import AccessRights.Proofs.Pairing

namespace AccessRights

namespace View

variable {view other : View} {policy : Policy} {policies : List Policy} {actor : Actor}
  {policyId groupId : UInt64} {groupIds joined : List UInt64} {rights held later : Rights} {i : Nat}

/-! ### Where a right comes from -/

/-- A group has one share, so that some share has a right says that this one does. -/
theorem OfGroup.exists_iff (h : view.OfGroup policyId groupId rights) :
    (∃ share, view.OfGroup policyId groupId share ∧ i ∈ share) ↔ i ∈ rights :=
  ⟨fun ⟨_, hshare, hmem⟩ => h.unique hshare ▸ hmem, fun hmem => ⟨rights, h, hmem⟩⟩

theorem OfGroups.mem_iff (h : view.OfGroups policyId groupIds rights) : i ∈ rights ↔
    ∃ groupId ∈ groupIds, ∃ share, view.OfGroup policyId groupId share ∧ i ∈ share := by
  induction h with
  | nil => simp
  | cons first _ ih => rw [Rights.mem_union, ih, List.exists_mem_cons_iff, first.exists_iff]

/-- A right that a policy gives an actor apart from groups: as one of everybody, or a user as its own
or as the owner. -/
def Apart (view : View) (policy : Policy) (actor : Actor) (i : Nat) : Prop :=
  (∃ rights, view.everyone? policy.id = some rights ∧ i ∈ rights) ∨
  actor.kind = .user ∧ ((∃ rights, view.cell? policy.id actor = some (some rights) ∧ i ∈ rights) ∨
    i ∈ ofOwner policy actor.id)

/-- A right that a policy gives comes from a group that concerns the actor, or has nothing to do with
groups. -/
theorem Own.mem_iff (h : view.Own policy actor rights) : i ∈ rights ↔
    view.Apart policy actor i ∨ ∃ groupId ∈ view.groupsConcerning actor,
      ∃ share, view.OfGroup policy.id groupId share ∧ i ∈ share := by
  unfold Apart groupsConcerning
  cases h with
  | everyone kind everyone => simp [kind, everyone]
  | @user ofEveryone ofGroups ofCell kind everyone groups cell =>
    have heveryone : (∃ found, view.everyone? policy.id = some found ∧ i ∈ found) ↔
        i ∈ ofEveryone := by
      simp [everyone]
    have hcell : (∃ found, view.cell? policy.id actor = some (some found) ∧ i ∈ found) ↔
        i ∈ ofCell.getD ∅ := by
      cases ofCell <;> simp [cell]
    rw [Rights.mem_union, Rights.mem_union, Rights.mem_union, groups.mem_iff, heveryone, hcell, kind,
      eq_self, true_and]
    dsimp only
    simp only [or_assoc, or_comm, or_left_comm]
  | @group rights ofGroup kind everyone group =>
    obtain kind | kind := kind <;> simp [kind, everyone, group.exists_iff]

/-- So with what a policy gives an actor. -/
theorem Own.exists_iff (h : view.Own policy actor rights) :
    (∃ own, view.Own policy actor own ∧ i ∈ own) ↔ i ∈ rights :=
  ⟨fun ⟨_, hown, hmem⟩ => h.unique hown ▸ hmem, fun hmem => ⟨rights, h, hmem⟩⟩

theorem Contributed.mem_iff (h : view.Contributed actor policies rights) : i ∈ rights ↔
    ∃ policy ∈ policies, ∃ own, view.Own policy actor own ∧ i ∈ own := by
  induction h with
  | nil => simp
  | cons first _ ih => rw [Rights.mem_union, ih, List.exists_mem_cons_iff, first.exists_iff]

/-! ### Other memberships -/

/-- The views differ in memberships only. -/
structure Regrouped (view other : View) : Prop where
  policy : other.policy? = view.policy?
  everyone : other.everyone? = view.everyone?
  cell : other.cell? = view.cell?
  group : other.group? = view.group?

theorem Regrouped.symm (h : view.Regrouped other) : other.Regrouped view :=
  ⟨h.policy.symm, h.everyone.symm, h.cell.symm, h.group.symm⟩

/-- Groups have what they had. -/
theorem Regrouped.ofGroup (h : view.Regrouped other) (hrights : view.OfGroup policyId groupId rights) :
    other.OfGroup policyId groupId rights := by
  obtain ⟨lineage, nearest⟩ := hrights
  exact .intro (lineage.congr h.group) (h.cell ▸ nearest)

theorem Regrouped.ofGroup_iff (h : view.Regrouped other) :
    other.OfGroup policyId groupId rights ↔ view.OfGroup policyId groupId rights :=
  ⟨h.symm.ofGroup, h.ofGroup⟩

theorem Regrouped.apart_iff (h : view.Regrouped other) :
    other.Apart policy actor i ↔ view.Apart policy actor i := by
  unfold Apart
  rw [h.everyone, h.cell]

/-- Where further groups concern an actor, it has in addition what these groups have on the policies
that contribute. -/
theorem Regrouped.mem_iff (h : view.Regrouped other)
    (hjoined : ∀ id, id ∈ other.groupsConcerning actor ↔
      id ∈ view.groupsConcerning actor ∨ id ∈ joined)
    (hheld : view.Contributed actor policies held) (hlater : other.Contributed actor policies later) :
    i ∈ later ↔ i ∈ held ∨ ∃ policy ∈ policies, ∃ groupId ∈ joined,
      ∃ share, view.OfGroup policy.id groupId share ∧ i ∈ share := by
  -- policy by policy, the parts of the union are those from before and those of the new groups
  have hown (policy : Policy) (hmem : policy ∈ policies) :
      (∃ own, other.Own policy actor own ∧ i ∈ own) ↔ (∃ own, view.Own policy actor own ∧ i ∈ own) ∨
        ∃ groupId ∈ joined, ∃ share, view.OfGroup policy.id groupId share ∧ i ∈ share := by
    obtain ⟨before, hbefore⟩ := hheld.own hmem
    obtain ⟨after, hafter⟩ := hlater.own hmem
    rw [hbefore.exists_iff, hafter.exists_iff, hbefore.mem_iff, hafter.mem_iff, h.apart_iff, or_assoc]
    refine or_congr_right ?_
    simp only [hjoined, h.ofGroup_iff, or_and_right, exists_or]
  rw [hlater.mem_iff, hheld.mem_iff]
  constructor
  · rintro ⟨policy, hmem, hi⟩
    exact ((hown policy hmem).1 hi).imp (fun hi => ⟨policy, hmem, hi⟩) fun hi => ⟨policy, hmem, hi⟩
  · rintro (⟨policy, hmem, hi⟩ | ⟨policy, hmem, hi⟩)
    · exact ⟨policy, hmem, (hown policy hmem).2 (.inl hi)⟩
    · exact ⟨policy, hmem, (hown policy hmem).2 (.inr hi)⟩

end View

namespace Site

open Call

variable {rules : Rules} {site after : Site} {actor asset : Actor} {policies : List Policy}
  {id groupId : UInt64} {held rights : Rights} {error : AccessError}

/-! ### Where resolutions can fail -/

/-- Policies that are found have rosters, and groups that somebody is a member of lead to a root. -/
structure Furnished (site : Site) : Prop where
  sound : site.Sound
  roster {id : UInt64} {policy : Policy} : site.view.policy? id = some policy →
    ∃ rights, site.view.everyone? id = some rights
  lineage {actor : Actor} {groupId : UInt64} : groupId ∈ site.view.groupsOf actor →
    ∃ groups, site.view.Lineage groupId groups

/-- The groups of an actor that are found are those that are indexed and of some kind. -/
theorem Sound.mem_groupsOf (h : site.Sound) : id ∈ site.view.groupsOf actor ↔
    id ∈ site.node.groups.groupsOf actor ∧
      ∃ group, site.node.groups.group? id = some group ∧ group.flags.meets .anyKind = true := by
  show id ∈ site.node.groups.joined actor ↔ _
  rw [GroupIndex.joined_eq]
  exact GroupIndex.mem_groupsByAsset fun hknown => (h.node.group hknown).1

theorem Sound.filed (h : site.Sound) : site.Filed where
  policies _ _ hstored := h.keyed.policy hstored
  groups _ _ hstored := h.keyed.group hstored
  indexed hknown := (h.node.group hknown).1

theorem Reached.furnished (h : site.Reached rules) : site.Furnished where
  sound := h.sound
  roster {id policy} hpolicy := by
    rw [h.rooted.toIndexed.view_policy? h.sound] at hpolicy
    obtain ⟨roster, hroster⟩ := h.sound.exists_roster? h.paired hpolicy
    exact ⟨roster.everyone, congrArg (Option.map Roster.everyone) hroster⟩
  lineage {actor groupId} hmem := by
    obtain ⟨-, group, hknown, -⟩ := h.sound.mem_groupsOf.1 hmem
    obtain ⟨line, hline⟩ :=
      h.forested.tables.exists_line h.sound.store.groups (h.inStep.group hknown)
    exact h.inStep.exists_lineage h.sound hline

/-- Where the first part of a call fails, the call does. -/
theorem error_of_bind {α β : Type} {call : Call α} {next : α → Call β}
    (h : (call.perform site).1 = .error error) :
    ((call >>= next).perform site).1 = .error error := by
  have hrun : call.perform site = (.error error, (call.perform site).2) := Prod.ext h rfl
  rw [perform_bind, hrun]

/-- A resolution fails where its walk over policies does. -/
theorem freshRights_of_error (h : (contributors id).gives site = .error error) (actor : Actor) :
    site.freshRights id actor = .error error :=
  error_of_bind h

/-- The policies that contribute have rosters. -/
theorem Furnished.walk_of_contributors (h : site.Furnished)
    (hpolicies : (contributors id).gives site = .ok policies) :
    ∃ path, site.view.Walk id path policies ∧ ∀ policy ∈ policies,
      site.view.policy? policy.id = some policy ∧
        ∃ rights, site.view.everyone? policy.id = some rights := by
  have hkeyed := h.sound.keyed.unfailing
  obtain ⟨hlearns, hpost⟩ := reads_contributorsFrom hkeyed .empty id
  obtain ⟨path, hwalk⟩ := hpost policies hpolicies
  have hwalk : site.view.Walk id path policies := hwalk.mono (hlearns.view_of_recalled hkeyed)
  refine ⟨path, hwalk, fun policy hmem => ?_⟩
  obtain ⟨other, -, hfound, -⟩ := hwalk.of_mem hmem
  rw [h.sound.policyId_of_view hfound]
  exact ⟨hfound, h.roster hfound⟩

/-- A resolution gives rights if the walks from the groups that concern the actor end. -/
theorem Furnished.freshRights_ok (h : site.Furnished)
    (hpolicies : (contributors id).gives site = .ok policies)
    (hends : ∀ groupId ∈ site.view.groupsConcerning actor.normalize,
      ∃ groups, site.view.Lineage groupId groups) :
    ∃ rights, site.freshRights id actor = .ok rights ∧
      site.view.Contributed actor.normalize policies rights := by
  have hkeyed := h.sound.keyed
  obtain ⟨path, hwalk, hfound⟩ := h.walk_of_contributors hpolicies
  have hrosters (policy : Policy) (hmem : policy ∈ policies) := (hfound policy hmem).2
  obtain ⟨rights, hrights⟩ := @succeeds_resolve site.unfailing hkeyed.unfailing rfl id actor.normalize
    ⟨⟨path, policies, hwalk, hrosters⟩, hends⟩
  refine ⟨rights, hrights, ?_⟩
  obtain ⟨path', policies', hwalk', hcontributed⟩ :=
    View.effective_iff_walk.1 ((freshRights_eq_ok_iff hkeyed).1 hrights)
  exact (hwalk'.unique hwalk).2 ▸ hcontributed

/-- What a policy gives a group or a role is refused if the walk from it to its root is. -/
theorem ownRights_of_ancestry (hsound : site.Sound) (hcalm : site.backend.faults = [])
    {policy : Policy} (heveryone : site.view.everyone? policy.id = some rights)
    (hkind : actor.kind = .role ∨ actor.kind = .group)
    (hancestry : ((ancestry actor.id).perform site).1 = .error error) :
    ((ownRights policy actor).perform site).1 = .error error := by
  obtain ⟨roster, hroster, -⟩ := Option.map_eq_some_iff.1 heveryone
  have hrosterOf := succeeds_rosterOf hcalm hroster
  unfold ownRights
  rw [perform_bind]
  obtain ⟨reason, middle, -, hrun⟩ | ⟨live, middle, hlearns, -, hrun⟩ :=
    (reads_rosterOf hsound.keyed policy.id).cases
  · obtain ⟨live, hlive⟩ := hrosterOf
    rw [hrun] at hlive
    cases hlive
  · -- reading the roster has changed nothing of what is found
    have hmiddle := hsound.filed.ancestry_congr hcalm (hlearns.sound hsound).filed
      (hlearns.still.calm hcalm) (by rw [hlearns.view_eq hsound.keyed]) actor.id
    have hancestry : (ancestry actor.id).perform middle =
        (.error error, ((ancestry actor.id).perform middle).2) :=
      Prod.ext (hmiddle.trans hancestry) rfl
    rw [hrun]
    dsimp only
    obtain hkind | hkind := hkind <;> rw [hkind] <;> dsimp only <;>
      rw [perform_bind, groupRightsIn, perform_bind, hancestry]

/-- So are its rights on a policy. -/
theorem Furnished.freshRights_of_ancestry (h : site.Furnished)
    (hpolicies : (contributors id).gives site = .ok policies)
    (hkind : actor.normalize.kind = .role ∨ actor.normalize.kind = .group)
    (hancestry : (ancestry actor.normalize.id).gives site = .error error) :
    site.freshRights id actor = .error error := by
  have hsound := h.sound.unfailing
  obtain ⟨path, hwalk, hfound⟩ := h.walk_of_contributors hpolicies
  have hlearns := (reads_contributorsFrom hsound.keyed .empty id).learns
  have hrun : (contributors id).perform site.unfailing =
      (.ok policies, ((contributors id).perform site.unfailing).2) := Prod.ext hpolicies rfl
  -- the refusal comes from the first policy that contributes
  cases policies with
  | nil =>
    obtain ⟨policy, hmem⟩ := hwalk.exists_mem
    cases hmem
  | cons policy policies =>
    obtain ⟨-, rights, heveryone⟩ := hfound policy List.mem_cons_self
    have hview := hlearns.view_eq hsound.keyed
    have hsound' := hlearns.sound hsound
    have hcalm := hlearns.still.calm rfl
    have hmiddle := hsound.filed.ancestry_congr rfl hsound'.filed hcalm
      (congrArg View.group? hview) actor.normalize.id
    have hfirst := ownRights_of_ancestry hsound' hcalm (by rw [hview]; exact heveryone) hkind
      (hmiddle.trans hancestry)
    show ((resolve id actor.normalize).perform site.unfailing).1 = _
    rw [resolve, perform_bind, hrun]
    exact error_of_bind hfirst

/-- How a resolution ends. -/
theorem Furnished.freshRights_cases (h : site.Furnished) (id : UInt64) (actor : Actor) :
    (∃ error, (contributors id).gives site = .error error ∧
      site.freshRights id actor = .error error) ∨
    ∃ policies, (contributors id).gives site = .ok policies ∧
      ((∃ error, (actor.normalize.kind = .role ∨ actor.normalize.kind = .group) ∧
          (ancestry actor.normalize.id).gives site = .error error ∧
          site.freshRights id actor = .error error) ∨
        ∃ rights, site.freshRights id actor = .ok rights ∧
          site.view.Contributed actor.normalize policies rights) := by
  cases hpolicies : (contributors id).gives site with
  | error error => exact .inl ⟨error, rfl, freshRights_of_error hpolicies actor⟩
  | ok policies =>
    refine .inr ⟨policies, rfl, ?_⟩
    by_cases hkind : actor.normalize.kind = .role ∨ actor.normalize.kind = .group
    · cases hancestry : (ancestry actor.normalize.id).gives site with
      | error error =>
        exact .inl ⟨error, hkind, rfl, h.freshRights_of_ancestry hpolicies hkind hancestry⟩
      | ok groups =>
        have hkeyed := h.sound.keyed.unfailing
        obtain ⟨hlearns, hpost⟩ := reads_ancestry hkeyed actor.normalize.id
        have hlineage := (hpost groups hancestry).1.mono (hlearns.view_of_recalled hkeyed)
        refine .inr (h.freshRights_ok hpolicies fun groupId hmem => ⟨groups, ?_⟩)
        unfold View.groupsConcerning at hmem
        obtain hkind | hkind := hkind <;> rw [hkind] at hmem <;>
          exact List.mem_singleton.1 hmem ▸ hlineage
    · -- the groups of a user lead to a root, and nobody else asks for groups
      refine .inr (h.freshRights_ok hpolicies fun groupId hmem => ?_)
      unfold View.groupsConcerning at hmem
      split at hmem
      · cases hmem
      · exact h.lineage hmem
      · exact absurd (.inl ‹_›) hkind
      · exact absurd (.inr ‹_›) hkind

/-! ### Rights after a change of memberships -/

/-- Memberships make no difference to whether a resolution fails, and why. -/
theorem Furnished.freshRights_regrouped (h : site.Furnished) (h' : after.Furnished)
    (hviews : site.view.Regrouped after.view) (id : UInt64) (actor : Actor) :
    (∃ error, site.freshRights id actor = .error error ∧
      after.freshRights id actor = .error error) ∨
    ∃ policies held later, (contributors id).gives site = .ok policies ∧
      site.freshRights id actor = .ok held ∧ after.freshRights id actor = .ok later ∧
      site.view.Contributed actor.normalize policies held ∧
      after.view.Contributed actor.normalize policies later := by
  have hfiled := h.sound.unfailing.filed
  have hfiled' := h'.sound.unfailing.filed
  have hcontributors : (contributors id).gives after = (contributors id).gives site :=
    hfiled.contributors_congr rfl hfiled' rfl hviews.policy id
  have hancestry : (ancestry actor.normalize.id).gives after = (ancestry actor.normalize.id).gives site :=
    hfiled.ancestry_congr rfl hfiled' rfl hviews.group actor.normalize.id
  obtain ⟨error, hpolicies, hrights⟩ | ⟨policies, hpolicies, ⟨error, hkind, hlost, hrights⟩ |
    ⟨held, hheld, hcontributed⟩⟩ := h.freshRights_cases id actor
  · exact .inl ⟨error, hrights, freshRights_of_error (hcontributors.trans hpolicies) actor⟩
  · exact .inl ⟨error, hrights,
      h'.freshRights_of_ancestry (hcontributors.trans hpolicies) hkind (hancestry.trans hlost)⟩
  obtain ⟨error, hpolicies', -⟩ | ⟨policies', hpolicies', ⟨error, hkind, hlost, -⟩ |
    ⟨later, hlater, hcontributed'⟩⟩ := h'.freshRights_cases id actor
  -- what fails after would have failed before
  · rw [hcontributors, hpolicies] at hpolicies'
    cases hpolicies'
  · have hfails := h.freshRights_of_ancestry hpolicies hkind (hancestry.symm.trans hlost)
    cases hheld.symm.trans hfails
  · rw [hcontributors, hpolicies] at hpolicies'
    cases hpolicies'
    exact .inr ⟨policies, held, later, hpolicies, hheld, hlater, hcontributed, hcontributed'⟩

/-- Whoever is a member of the same groups as before has what it had. -/
theorem Furnished.freshRights_eq (h : site.Furnished) (h' : after.Furnished)
    (hviews : site.view.Regrouped after.view)
    (hsame : actor.kind = .user →
      ∀ groupId, groupId ∈ after.view.groupsOf actor ↔ groupId ∈ site.view.groupsOf actor) :
    after.freshRights id actor = site.freshRights id actor := by
  obtain ⟨error, hbefore, hafter⟩ | ⟨policies, held, later, -, hheld, hlater, hbefore, hafter⟩ :=
    h.freshRights_regrouped h' hviews id actor
  · rw [hbefore, hafter]
  rw [hheld, hlater]
  refine congrArg Except.ok (Rights.eq_of_mem_iff fun i => ?_)
  -- only users are concerned by groups through their memberships
  have hconcerning (groupId : UInt64) : groupId ∈ after.view.groupsConcerning actor.normalize ↔
      groupId ∈ site.view.groupsConcerning actor.normalize ∨ groupId ∈ [] := by
    rw [or_iff_left List.not_mem_nil]
    cases hpublic : actor.isEveryone with
    | true =>
      have hnormal : actor.normalize = .everyone := if_pos hpublic
      rw [hnormal]
      exact Iff.rfl
    | false =>
      rw [Actor.normalize_of_not_everyone hpublic]
      unfold View.groupsConcerning
      split
      · exact Iff.rfl
      · exact hsame ‹_› groupId
      · exact Iff.rfl
      · exact Iff.rfl
  rw [hviews.mem_iff hconcerning hbefore hafter]
  simp

/-- The second site has one membership more than the first one, and nothing else is different of what
is found there. -/
structure Enrolls (site after : Site) (groupId : UInt64) (asset : Actor) : Prop where
  furnished : site.Furnished
  furnished' : after.Furnished
  views : site.view.Regrouped after.view
  groupsOf {id : UInt64} {actor : Actor} : id ∈ after.view.groupsOf actor ↔
    id ∈ site.view.groupsOf actor ∨ actor = asset ∧ id = groupId

theorem Enrolls.others (h : site.Enrolls after groupId asset)
    (hother : actor ≠ asset ∨ asset.kind ≠ .user) (id : UInt64) :
    after.freshRights id actor = site.freshRights id actor := by
  refine h.furnished.freshRights_eq h.furnished' h.views fun hkind groupId => ?_
  rw [h.groupsOf]
  refine or_iff_left fun hnew => ?_
  obtain ⟨rfl, -⟩ := hnew
  exact hother.elim (fun hne => hne rfl) fun hne => hne hkind

/-- Policies that contribute give rights to every group that leads to a root. -/
theorem Furnished.exists_share (h : site.Furnished)
    (hpolicies : (contributors id).gives site = .ok policies)
    (hgroup : ∃ groups, site.view.Lineage groupId groups) (policy : Policy) (hmem : policy ∈ policies) :
    ∃ share, site.view.OfGroup policy.id groupId share ∧
      (groupAccess policy.id groupId).gives site = .ok share := by
  obtain ⟨-, -, hfound⟩ := h.walk_of_contributors hpolicies
  obtain ⟨hpolicy, rights, heveryone⟩ := hfound policy hmem
  obtain ⟨roster, hroster, -⟩ := Option.map_eq_some_iff.1 heveryone
  obtain ⟨groups, hlineage⟩ := hgroup
  obtain ⟨found, hnearest⟩ := (shows_of_roster? hroster).exists_firstCell (groups.map View.holder)
  have hshare := View.OfGroup.intro hlineage hnearest
  exact ⟨_, hshare, gives_groupAccess h.sound.keyed hpolicy hroster hshare⟩

/-- A user gains what the group has on the policies that contribute. -/
theorem Enrolls.adds (h : site.Enrolls after groupId asset) (hkind : asset.kind = .user)
    (hheld : site.freshRights id asset = .ok held) :
    ∃ policies, ∃ share : Policy → Rights, (contributors id).gives site = .ok policies ∧
      (∀ policy ∈ policies, (groupAccess policy.id groupId).gives site = .ok (share policy)) ∧
      after.freshRights id asset = .ok (held ∪ (policies.map share).foldr (· ∪ ·) ∅) := by
  obtain ⟨error, hrefused, -⟩ | ⟨policies, held', later, hpolicies, hheld', hlater, hbefore, hafter⟩ :=
    h.furnished.freshRights_regrouped h.furnished' h.views id asset
  · cases hrefused.symm.trans hheld
  cases hheld'.symm.trans hheld
  obtain ⟨groups, hlineage⟩ := h.furnished'.lineage (h.groupsOf.2 (.inr ⟨rfl, rfl⟩))
  choose! share hshare hgives using
    h.furnished.exists_share hpolicies ⟨groups, hlineage.congr h.views.symm.group⟩
  refine ⟨policies, share, hpolicies, hgives, ?_⟩
  rw [hlater]
  refine congrArg Except.ok (Rights.eq_of_mem_iff fun i => ?_)
  -- one group more concerns the user, and it gives its share on every policy that contributes
  have hjoined (other : UInt64) : other ∈ after.view.groupsConcerning asset.normalize ↔
      other ∈ site.view.groupsConcerning asset.normalize ∨ other ∈ [groupId] := by
    have hnormal : asset.normalize = asset := by
      refine Actor.normalize_of_not_everyone ?_
      unfold Actor.isEveryone
      rw [hkind]
      rfl
    rw [hnormal, List.mem_singleton]
    unfold View.groupsConcerning
    rw [hkind]
    exact h.groupsOf.trans (or_congr_right (and_iff_right rfl))
  rw [h.views.mem_iff hjoined hbefore hafter, Rights.mem_union, Rights.mem_foldr_union]
  refine or_congr_right ?_
  simp only [List.mem_map, List.mem_singleton, exists_eq_left, exists_exists_and_eq_and]
  exact exists_congr fun policy => and_congr_right fun hmem => (hshare policy hmem).exists_iff

/-! ### Joining and leaving -/

/-- The rules of resolutions hold at a site that differs in memberships only, if the new ones are in
groups that lead to a root. -/
theorem Furnished.regroup (h : site.Furnished) (hsound : after.Sound)
    (hviews : site.view.Regrouped after.view)
    (hlineage : ∀ {actor groupId}, groupId ∈ after.view.groupsOf actor →
      ∃ groups, site.view.Lineage groupId groups) : after.Furnished where
  sound := hsound
  roster {id policy} hpolicy := by
    rw [hviews.policy] at hpolicy
    rw [hviews.everyone]
    exact h.roster hpolicy
  lineage hmem := (hlineage hmem).imp fun _ hgroups => hgroups.congr hviews.group

/-- A group that has a kind counts among the groups of its members. -/
theorem meets_anyKind {group : Group} (hkind : group.kind?.isSome = true) :
    group.flags.meets .anyKind = true := by
  unfold Group.kind? at hkind
  unfold GroupFlags.meets
  dsimp only at hkind
  split at hkind
  · rw [‹group.flags.inter .anyKind = _›]
    rfl
  split at hkind
  · rw [‹group.flags.inter .anyKind = _›]
    rfl
  · cases hkind

/-- A call that makes an asset a member links it to a known group. -/
theorem linked_of_relate (hkeyed : site.Keyed)
    (hdone : (relate groupId asset).perform site = (.ok (), after)) :
    ∃ middle group, site.Learns middle ∧ middle.node.groups.group? groupId = some group ∧
      after.node.groups = middle.node.groups.link groupId asset ∧ site.view.Regrouped after.view := by
  have hends := relate_ends hkeyed groupId asset
  rw [hdone] at hends
  cases hends with
  | @related middle group groups learns indexed new related =>
    obtain ⟨-, rfl⟩ := GroupTables.relate_eq_ok related
    refine ⟨middle, group, learns, indexed, rfl, ?_⟩
    rw [← learns.view_eq hkeyed]
    exact ⟨rfl, rfl, rfl, rfl⟩

/-- One that ends a membership unlinks it. -/
theorem unlinked_of_unrelate (hkeyed : site.Keyed)
    (hdone : (unrelate groupId asset).perform site = (.ok (), after)) :
    ∃ middle, site.Learns middle ∧
      after.node.groups = middle.node.groups.unlink groupId asset ∧ site.view.Regrouped after.view := by
  obtain ⟨error, last, -, hrun⟩ | ⟨last, hlearns, hrun⟩ := unrelate_cases site groupId asset
  · cases hrun.symm.trans hdone
  · cases hrun.symm.trans hdone
    refine ⟨last, hlearns, rfl, ?_⟩
    rw [← hlearns.view_eq hkeyed]
    exact ⟨rfl, rfl, rfl, rfl⟩

/-- A call that makes an asset a member enrolls it. -/
theorem Reached.enrolls_of_relate (h : site.Reached rules) (hsound' : after.Sound)
    (hdone : (relate groupId asset).perform site = (.ok (), after)) :
    site.Enrolls after groupId asset := by
  have hsound := h.sound
  obtain ⟨middle, group, hlearns, hknown, hindex, hviews⟩ := linked_of_relate hsound.keyed hdone
  -- the group is stored, so it has a kind and leads to a root
  have hstored := (hlearns.inStep hsound h.inStep).group hknown
  rw [hlearns.still.store] at hstored
  have hkind := meets_anyKind (h.forested.tables.kind hstored)
  obtain ⟨line, hline⟩ := h.forested.tables.exists_line hsound.store.groups hstored
  have hlineage := h.inStep.exists_lineage hsound hline
  have hgroups {id : UInt64} {actor : Actor} : id ∈ after.view.groupsOf actor ↔
      id ∈ site.view.groupsOf actor ∨ actor = asset ∧ id = groupId := by
    have hfound : after.node.groups.group? id = middle.node.groups.group? id := by
      rw [hindex]
      rfl
    rw [hsound'.mem_groupsOf, hfound, hindex, GroupIndex.mem_groupsOf_link,
      ← hlearns.view_eq hsound.keyed, (hlearns.sound hsound).mem_groupsOf, or_and_right, or_comm]
    refine or_congr_right ⟨fun ⟨⟨hid, hactor⟩, _⟩ => ⟨hactor.symm, hid.symm⟩, ?_⟩
    rintro ⟨rfl, rfl⟩
    exact ⟨⟨rfl, rfl⟩, group, hknown, hkind⟩
  refine ⟨h.furnished, h.furnished.regroup hsound' hviews fun {actor id} hmem => ?_, hviews, hgroups⟩
  obtain hold | ⟨-, rfl⟩ := hgroups.1 hmem
  · exact h.furnished.lineage hold
  · exact hlineage

/-- A call that ends a membership takes one group from the groups of the asset, or none that counted. -/
theorem Reached.enrolls_or_same_of_unrelate (h : site.Reached rules) (hsound' : after.Sound)
    (hdone : (unrelate groupId asset).perform site = (.ok (), after)) :
    after.Enrolls site groupId asset ∨ after.Furnished ∧ site.view.Regrouped after.view ∧
      ∀ id actor, id ∈ after.view.groupsOf actor ↔ id ∈ site.view.groupsOf actor := by
  have hsound := h.sound
  obtain ⟨middle, hlearns, hindex, hviews⟩ := unlinked_of_unrelate hsound.keyed hdone
  have hgroups (id : UInt64) (actor : Actor) : id ∈ after.view.groupsOf actor ↔
      id ∈ site.view.groupsOf actor ∧ ¬ (actor = asset ∧ id = groupId) := by
    have hfound : after.node.groups.group? id = middle.node.groups.group? id := by
      rw [hindex]
      rfl
    rw [hsound'.mem_groupsOf, hfound, hindex, GroupIndex.mem_groupsOf_unlink,
      ← hlearns.view_eq hsound.keyed, (hlearns.sound hsound).mem_groupsOf, and_right_comm]
    refine and_congr_right fun _ => not_congr ?_
    rw [and_comm, eq_comm, @eq_comm _ groupId]
  have hfurnished : after.Furnished := h.furnished.regroup hsound' hviews fun {actor id} hmem =>
    h.furnished.lineage ((hgroups id actor).1 hmem).1
  -- a membership in a group that does not exist counts for nothing
  by_cases hmember : groupId ∈ site.view.groupsOf asset
  · refine .inl ⟨hfurnished, h.furnished, hviews.symm, fun {id actor} => ?_⟩
    rw [hgroups]
    constructor
    · intro hmem
      by_cases hended : actor = asset ∧ id = groupId
      · exact .inr hended
      · exact .inl ⟨hmem, hended⟩
    · rintro (⟨hmem, -⟩ | ⟨rfl, rfl⟩)
      · exact hmem
      · exact hmember
  · refine .inr ⟨hfurnished, hviews, fun id actor => ?_⟩
    rw [hgroups, and_iff_left_iff_imp]
    rintro hmem ⟨rfl, rfl⟩
    exact hmember hmem

/-- Joining a group has added to the rights of a user what the group has on the policies that
contribute, and has changed nothing else. -/
structure AddsShares (site after : Site) (groupId : UInt64) (asset : Actor) : Prop where
  others {actor : Actor} (hother : actor ≠ asset ∨ asset.kind ≠ .user) (id : UInt64) :
    after.freshRights id actor = site.freshRights id actor
  adds {id : UInt64} {held : Rights} (user : asset.kind = .user)
    (hheld : site.freshRights id asset = .ok held) :
    ∃ policies, ∃ share : Policy → Rights, (contributors id).gives site = .ok policies ∧
      (∀ policy ∈ policies, (groupAccess policy.id groupId).gives site = .ok (share policy)) ∧
      after.freshRights id asset = .ok (held ∪ (policies.map share).foldr (· ∪ ·) ∅)
  refused {id : UInt64} {error : AccessError} (hrefused : site.freshRights id asset = .error error) :
    after.freshRights id asset = .error error

/-- Nobody has gained a right anywhere, and resolutions fail where and why they failed before. -/
structure AddsNothing (site after : Site) : Prop where
  held {id : UInt64} {actor : Actor} {later : Rights} (hlater : after.freshRights id actor = .ok later) :
    ∃ held, site.freshRights id actor = .ok held ∧ later ⊆ held
  refused {id : UInt64} {actor : Actor} {error : AccessError} :
    after.freshRights id actor = .error error ↔ site.freshRights id actor = .error error

theorem Enrolls.addsShares (h : site.Enrolls after groupId asset) :
    site.AddsShares after groupId asset where
  others hother id := h.others hother id
  adds user hheld := h.adds user hheld
  refused {id error} hrefused := by
    obtain ⟨reason, hbefore, hafter⟩ | ⟨policies, held, later, -, hheld, -⟩ :=
      h.furnished.freshRights_regrouped h.furnished' h.views id asset
    · rw [hafter, ← hbefore, hrefused]
    · cases hrefused.symm.trans hheld

/-- What has been added is gone when the membership ends. -/
theorem Enrolls.addsNothing (h : site.Enrolls after groupId asset) : after.AddsNothing site where
  held {id actor later} hlater := by
    by_cases hmember : actor = asset ∧ asset.kind = .user
    · obtain ⟨rfl, hkind⟩ := hmember
      obtain ⟨policies, share, -, -, hheld⟩ := h.adds hkind hlater
      exact ⟨_, hheld, Rights.subset_union_left _ _⟩
    · have hsame := h.others (Decidable.not_and_iff_or_not.1 hmember) id
      exact ⟨later, hsame.trans hlater, Rights.subset_iff.2 fun _ hmem => hmem⟩
  refused {id actor error} := by
    obtain ⟨reason, hbefore, hafter⟩ | ⟨policies, held, later, -, hheld, hlater, -⟩ :=
      h.furnished.freshRights_regrouped h.furnished' h.views id actor
    · rw [hbefore, hafter]
    · rw [hheld, hlater]
      exact iff_of_false (by rintro ⟨⟩) (by rintro ⟨⟩)

/-- A node that has its store to itself counts every membership that it takes in. -/
theorem Reached.passes_of_membership (h : site.Reached rules)
    (hdone : (relate groupId asset).perform site = (.ok (), after) ∨
      (unrelate groupId asset).perform site = (.ok (), after)) :
    Site.Passes False 0 site after := by
  obtain hdone | hdone := hdone
  · have hpasses : Site.Passes False 0 site ((relate groupId asset).perform site).2 :=
      relate_passes h.sound.keyed (h.inStep.not_unseen groupId asset)
    rwa [hdone] at hpasses
  · have hpasses : (unrelate groupId asset).Passes False 0 0 site := unrelate_passes groupId asset
    obtain ⟨n, hn, -, hpasses⟩ := hpasses
    obtain rfl := Nat.le_zero.1 hn
    rwa [hdone] at hpasses

/-- Whoever becomes a member of a group gains what the group has on the policies that contribute,
if it is a user, and nobody else gains or loses anything; and nobody gains anything when a membership
ends.  Where nobody has worked on live rosters past the rules for grants, these are the rights that
calls are answered with. -/
theorem Reached.memberships_act (hreached : site.Reached .all) (groupId : UInt64) (asset : Actor) :
    (∀ after, (relate groupId asset).perform site = (.ok (), after) →
      site.AddsShares after groupId asset) ∧
    (∀ after, (unrelate groupId asset).perform site = (.ok (), after) → site.AddsNothing after) ∧
    (site.Reached .requests → ∀ after, (relate groupId asset).perform site = (.ok (), after) ∨
        (unrelate groupId asset).perform site = (.ok (), after) →
      after.node.changes < UInt64.size → ∀ id actor,
        (effectiveAccess id actor).gives site = site.freshRights id actor ∧
        (effectiveAccess id actor).gives after = after.freshRights id actor) := by
  have hsound := hreached.sound
  have hroom := Store.hasRoom_zero site.backend.store
  refine ⟨fun after hdone => ?_, fun after hdone => ?_,
    fun hrequests after hdone hcounted id actor => ?_⟩
  · have hsound' := ((hreached.passes_of_membership (.inl hdone)).sound hsound hroom).1
    exact (hreached.enrolls_of_relate hsound' hdone).addsShares
  · have hsound' := ((hreached.passes_of_membership (.inr hdone)).sound hsound hroom).1
    obtain henrolls | ⟨hfurnished, hviews, hsame⟩ :=
      hreached.enrolls_or_same_of_unrelate hsound' hdone
    · exact henrolls.addsNothing
    · have hrights {id : UInt64} {actor : Actor} :
          after.freshRights id actor = site.freshRights id actor :=
        hreached.furnished.freshRights_eq hfurnished hviews fun _ other => hsame other actor
      exact ⟨fun hlater => ⟨_, hrights.symm.trans hlater, Rights.subset_iff.2 fun _ hmem => hmem⟩,
        fun {_ _ _} => by rw [hrights]⟩
  · have hfaithful := hrequests.faithful fun _ => not_false
    have hpasses := hreached.passes_of_membership hdone
    have hbefore := Nat.lt_of_le_of_lt hpasses.changes_le hcounted
    exact ⟨gives_effectiveAccess hsound.keyed ⟨hfaithful, hbefore⟩ id actor,
      gives_effectiveAccess (hpasses.sound hsound hroom).1.keyed
        ⟨hpasses.faithful hsound hroom False.elim hfaithful, hcounted⟩ id actor⟩

/-- The team may view the second policy, and so does another group, which may also change it. -/
def teamStaffed : Site :=
  (teamExtended.live [
    (default, .createGroup .group 0 "ops" "Operations"),
    (default, .grantAccess 2 (.user 1) (.group 1) .view),
    (default, .grantAccess 2 (.user 1) (.group 3) (.view ∪ .change))]).2

theorem reached_teamStaffed : teamStaffed.Reached .calm :=
  reached_teamExtended.live (fun _ _ _ => trivial) ⟨by decide +kernel, by decide +kernel⟩

/-- The member of the team joins the other group as well. -/
def teamJoined : Except AccessError Unit × Site :=
  (relate 3 (.user 7)).perform teamStaffed

theorem fst_teamJoined : teamJoined.1 = .ok () := by
  decide +kernel

/-- The member leaves the team. -/
def teamLeft : Except AccessError Unit × Site :=
  (unrelate 2 (.user 7)).perform teamStaffed

theorem fst_teamLeft : teamLeft.1 = .ok () := by
  decide +kernel

/-- On the policy that inherits, the member gains what only the other group has, and is left with
nothing without the team. -/
theorem memberships_act_team :
    (teamStaffed.AddsShares teamJoined.2 3 (.user 7) ∧
      (effectiveAccess 3 (.user 7)).gives teamStaffed = .ok .view ∧
      (effectiveAccess 3 (.user 7)).gives teamJoined.2 = .ok (.view ∪ .change)) ∧
    teamStaffed.AddsNothing teamLeft.2 ∧
      (effectiveAccess 3 (.user 7)).gives teamLeft.2 = .ok ∅ := by
  have hjoined : (relate 3 (.user 7)).perform teamStaffed = (.ok (), teamJoined.2) :=
    Prod.ext fst_teamJoined rfl
  have hleft : (unrelate 2 (.user 7)).perform teamStaffed = (.ok (), teamLeft.2) :=
    Prod.ext fst_teamLeft rfl
  have hrequests : teamStaffed.Reached .requests :=
    reached_teamStaffed.mono ⟨fun _ => trivial, False.elim, False.elim⟩
  have hreached := reached_teamStaffed.mono (Rules.le_all _)
  obtain ⟨hjoins, -, hgives⟩ := hreached.memberships_act 3 (.user 7)
  obtain ⟨-, hleaves, hgives'⟩ := hreached.memberships_act 2 (.user 7)
  obtain ⟨hbefore, hafter⟩ := hgives hrequests _ (.inl hjoined) (by decide +kernel) 3 (.user 7)
  obtain ⟨-, hwithout⟩ := hgives' hrequests _ (.inr hleft) (by decide +kernel) 3 (.user 7)
  rw [hbefore, hafter, hwithout]
  exact ⟨⟨hjoins _ hjoined, by decide +kernel, by decide +kernel⟩, hleaves _ hleft, by decide +kernel⟩

end Site

end AccessRights
