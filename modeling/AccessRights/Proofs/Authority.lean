/-
AccessRights/Proofs/Authority.lean

When a change of rights is accepted, and what it changes.

Without failures of the store, a grant is accepted exactly if the policy and the
grantee are there and the grantor has the right to manage access and all that it
hands on.  A revocation asks less: the grantee needs no more than a number, and the
grantor no more than the right to manage access.  What the grantor has is what it
would be given if it asked at that very moment.

A change that is accepted sets or unsets the cell of the grantee in one live
roster and is pending there.  Whatever else was read on the way is as it was.
As the groups of a node in step are a forest, a role or group that was granted
rights is given just these, from the cell that was set.

Main results: `ChangeEnds.eq_ok_iff`, `ChangeEnds.changed_only` and
`changes_authorized`.
-/
import AccessRights.Proofs.Ancestry
import AccessRights.Proofs.Delegation
import AccessRights.Proofs.Pairing

namespace AccessRights

namespace Registry

variable {registry : Registry}

/-- The public has its rights under any number. -/
theorem rightsOf?_normalize (registry : Registry) (actor : Actor) :
    registry.rightsOf? actor.normalize = registry.rightsOf? actor := by
  unfold Actor.normalize
  split
  · rename_i hpublic
    unfold rightsOf?
    rw [if_pos hpublic]
    rfl
  · rfl

theorem rightsOf?_set (registry : Registry) (grantee : Actor) (rights : Rights) :
    (registry.apply ⟨.set, grantee.normalize, rights⟩).rightsOf? grantee = some rights := by
  rw [← rightsOf?_normalize, rightsOf?_apply_set]

/-- The public is left without rights, and anybody else without a cell. -/
theorem Tidy.rightsOf?_revoked (h : registry.Tidy) (grantee : Actor) :
    (registry.apply ⟨.unset, grantee.normalize, ∅⟩).rightsOf? grantee =
      if grantee.isEveryone then some ∅ else none := by
  cases hpublic : grantee.isEveryone with
  | true =>
    have hnormal : grantee.normalize = .everyone := if_pos hpublic
    rw [hnormal, rightsOf?, if_pos hpublic]
    rfl
  | false =>
    rw [Actor.normalize_of_not_everyone hpublic, h.rightsOf?_unset hpublic]
    rfl

end Registry

namespace Site

open Call

variable {site after : Site} {opening : Call Unit} {policyId groupId : UInt64}
  {grantor grantee : Actor} {allowed : Rights → Prop} {change : Change}

/-! ### Opening a roster -/

/-- A roster is opened where the policy and its roster are found. -/
theorem openRoster_eq_ok_iff (hkeyed : site.Keyed) (hcalm : site.backend.faults = [])
    (policyId : UInt64) : ((openRoster policyId).perform site).1 = .ok () ↔
      (∃ policy, site.view.policy? policyId = some policy) ∧
        ∃ roster, site.roster? policyId = some roster := by
  constructor
  · -- an opened roster is live, so the site had one before
    intro hdone
    obtain ⟨error, after, -, hrun⟩ | ⟨live, opened, hlearns, hid, hknown, hlive, -⟩ :=
      openRoster_cases hkeyed policyId
    · rw [hrun] at hdone
      cases hdone
    · have hopened : opened.roster? policyId = some live := by
        rw [roster?_of_live hlive, if_neg hid]
      exact ⟨hknown, (hlearns.exists_roster?_iff policyId).1 ⟨live, hopened⟩⟩
  · rintro ⟨⟨policy, hpolicy⟩, roster, hroster⟩
    have hsucceeds : Succeeds (openRoster policyId) site := by
      refine (succeeds_policyById hcalm hpolicy).bind (reads_policyById hkeyed policyId) hkeyed
        fun _ found hlearns hkeyed' _ => ?_
      obtain ⟨later, hlater, -⟩ := hlearns.roster?_within hroster
      exact (succeeds_rosterOf (hlearns.still.calm hcalm) hlater).bind
        (reads_rosterOf hkeyed' policyId) hkeyed' fun _ _ _ _ _ => ⟨(), rfl⟩
    obtain ⟨⟨⟩, hdone⟩ := hsucceeds
    exact hdone

/-- What is checked first does not stand in the way of the roster. -/
theorem check_openRoster_eq_ok_iff {check : Call Unit} (hkeyed : site.Keyed)
    (hcalm : site.backend.faults = []) (hcheck : check.Reads site fun _ _ => True)
    (policyId : UInt64) :
    ((check >>= fun _ => openRoster policyId).perform site).1 = .ok () ↔
      (check.perform site).1 = .ok () ∧ (∃ policy, site.view.policy? policyId = some policy) ∧
        ∃ roster, site.roster? policyId = some roster := by
  rw [perform_bind]
  obtain ⟨error, after, -, hrun⟩ | ⟨_, first, hlearns, -, hrun⟩ := hcheck.cases <;> rw [hrun]
  · refine iff_of_false nofun fun h => ?_
    cases h.1
  · dsimp only
    rw [openRoster_eq_ok_iff (hlearns.keyed hkeyed) (hlearns.still.calm hcalm),
      hlearns.view_eq hkeyed, hlearns.exists_roster?_iff]
    exact ⟨fun h => ⟨rfl, h⟩, fun h => h.2⟩

theorem checkGroupKind_eq_ok_iff (hkeyed : site.Keyed) (hcalm : site.backend.faults = [])
    (groupId : UInt64) (kind : GroupKind) :
    ((checkGroupKind groupId kind).perform site).1 = .ok () ↔
      ∃ group, site.view.group? groupId = some group ∧ group.kind? = some kind := by
  unfold checkGroupKind
  rw [perform_bind]
  obtain ⟨error, after, -, hrun⟩ | ⟨group, after, hlearns, ⟨hgroup, -⟩, hrun⟩ :=
    (reads_groupById hkeyed groupId).cases <;> rw [hrun]
  · refine iff_of_false nofun ?_
    rintro ⟨group, hgroup, -⟩
    obtain ⟨found, hfound⟩ := succeeds_groupById hcalm hgroup
    rw [hrun] at hfound
    cases hfound
  · have hfound := (hlearns.view_of_recalled hkeyed).group hgroup
    rw [hfound]
    dsimp only
    split
    · rename_i hkind
      exact iff_of_false nofun fun ⟨_, heq, hsame⟩ => hkind (Option.some.inj heq ▸ hsame)
    · rename_i hkind
      exact iff_of_true rfl ⟨group, rfl, not_ne_iff.1 hkind⟩

/-! ### Grantees -/

/-- The actor can be granted rights: it is the public, a user with a number, or a role or group that
is stored and is of that kind. -/
def Grantable (site : Site) (grantee : Actor) : Prop :=
  match grantee.kind with
  | .everyone => True
  | .user => grantee.id ≠ 0
  | .role => ∃ group, site.backend.store.groups.byId? grantee.id = some group ∧
      group.kind? = some .role
  | .group => ∃ group, site.backend.store.groups.byId? grantee.id = some group ∧
      group.kind? = some .group

theorem checkGrantee_eq_ok_iff (hsound : site.Sound) (hstep : site.InStep)
    (hcalm : site.backend.faults = []) (grantee : Actor) :
    ((checkGrantee grantee).perform site).1 = .ok () ↔ site.Grantable grantee := by
  have hgroup (kind : GroupKind) := checkGroupKind_eq_ok_iff hsound.keyed hcalm grantee.id kind
  simp only [hstep.view_group? hsound] at hgroup
  unfold checkGrantee Grantable
  cases grantee.kind with
  | everyone => exact iff_of_true rfl trivial
  | user =>
    dsimp only
    split
    · rename_i hzero
      exact iff_of_false nofun fun hnonzero => hnonzero hzero
    · rename_i hnonzero
      exact iff_of_true rfl hnonzero
  | role => exact hgroup .role
  | group => exact hgroup .group

theorem checkRevoked_eq_ok_iff (site : Site) (grantee : Actor) :
    ((checkRevoked grantee).perform site).1 = .ok () ↔
      grantee.kind = .everyone ∨ grantee.id ≠ 0 := by
  unfold checkRevoked
  cases hpublic : grantee.isEveryone with
  | true =>
    have hnormal : grantee.normalize = .everyone := by rw [Actor.normalize, if_pos hpublic]
    rw [hnormal]
    exact iff_of_true rfl (.inl (by simpa [Actor.isEveryone] using hpublic))
  | false =>
    have hkind : grantee.kind ≠ .everyone := by simpa [Actor.isEveryone] using hpublic
    rw [Actor.normalize_of_not_everyone hpublic, hpublic, or_iff_right hkind]
    by_cases hzero : grantee.id = 0
    · simp [hzero]
    · simp [hzero]

/-! ### Changes that are accepted -/

/-- The answer about the grantor is the one that would be given before the roster was opened. -/
theorem Opened.answer_eq_ok_iff (hsound : site.Sound) (hcalm : site.backend.faults = [])
    (hquiet : opening.Quiet) {answer : Except AccessError Rights} {live roster : Roster}
    (h : site.Opened opening policyId grantor answer live roster after) {held : Rights} :
    answer = .ok held ↔ (effectiveAccess policyId grantor).gives site = .ok held := by
  have hserved := h.served? hsound hquiet
  have hcalm' : (opening.perform site).2.backend.faults = [] := by
    obtain ⟨opened, middle, hfound, -, rfl, -, -, hopening⟩ := h.learned
    rw [hopening]
    exact hfound.still.calm hcalm
  obtain ⟨middle, rfl, hkeyed, hview, -, -, hasked⟩ := h.asked hsound
  have hgives : (effectiveAccess policyId grantor).gives (opening.perform site).2 = answer := by
    rw [gives, unfailing_of_calm hcalm', hasked]
  rw [← hgives, gives_effectiveAccess_eq_ok_iff hkeyed,
    gives_effectiveAccess_eq_ok_iff hsound.keyed, hserved, hview]

/-- Without failures of the store, a change is accepted exactly if the roster is opened and the
grantor is given what it takes. -/
theorem ChangeEnds.eq_ok_iff (hsound : site.Sound) (hcalm : site.backend.faults = [])
    (hquiet : opening.Quiet) {result : Except AccessError Unit × Site}
    (h : site.ChangeEnds opening policyId grantor allowed change result) :
    result.1 = .ok () ↔ (opening.perform site).1 = .ok () ∧
      ∃ held, (effectiveAccess policyId grantor).gives site = .ok held ∧ allowed held := by
  cases h with
  | refused learns unopened => exact iff_of_false nofun fun h => unopened h.1
  | rolledBack opened denied =>
    refine iff_of_false nofun ?_
    rintro ⟨-, held, hheld, hallowed⟩
    exact denied held ((opened.answer_eq_ok_iff hsound hcalm hquiet).2 hheld) hallowed
  | changed opened permitted =>
    have hheld := (opened.answer_eq_ok_iff hsound hcalm hquiet).1 rfl
    exact iff_of_true rfl ⟨opened.reached, _, hheld, permitted⟩

/-- The change is all that has happened to a live roster since the other site, and to other rosters
and to what is known besides nothing has.  Rosters may have been read on the way, and may remember
more answers. -/
structure ChangedOnly (site : Site) (policyId : UInt64) (change : Change) (after : Site) :
    Prop where
  changed : ∃ roster later, site.roster? policyId = some roster ∧
    after.roster? policyId = some later ∧
    later.registry = roster.registry.apply change ∧
    later.pending = roster.pending ++ [change]
  other {id : UInt64} {roster : Roster} : id ≠ policyId → site.roster? id = some roster →
    ∃ later, after.roster? id = some later ∧ roster.Within later
  absent {id : UInt64} : site.roster? id = none → after.roster? id = none
  policy (id : UInt64) : after.view.policy? id = site.view.policy? id
  group (id : UInt64) : after.view.group? id = site.view.group? id
  groupsOf (actor : Actor) : after.view.groupsOf actor = site.view.groupsOf actor
  store : after.backend.store = site.backend.store

theorem ChangeEnds.changed_only (hsound : site.Sound)
    (h : site.ChangeEnds opening policyId grantor allowed change (.ok (), after)) :
    site.ChangedOnly policyId change after := by
  obtain ⟨before, hbefore, -, hview⟩ := h.changed_view hsound
  generalize hresult : (Except.ok (), after) = result at h
  cases h with
  | refused | rolledBack => cases hresult
  | @changed held live roster last opened permitted =>
    cases hresult
    have hid := opened.nonzero
    have hwithin := opened.within_live hbefore
    -- learning, the backup, learning again, and the change: only the last touches the cells
    obtain ⟨found, middle, hfound, hlive, rfl, hlearned, -, -⟩ := opened.learned
    have hlast := last.roster?_insert_counted hid (roster.change change) (last.node.changes + 1)
    have hmiddle := found.roster?_insert_counted hid live.backUp found.node.changes
    refine ⟨⟨before, _, hbefore, (hlast policyId).trans (if_pos rfl), ?_, ?_⟩,
      fun {id other} hne hother => ?_, fun {id} hnone => ?_, fun id => ?_, fun id => ?_,
      fun actor => ?_, hlearned.still.store.trans hfound.still.store⟩
    · rw [Roster.registry_change, opened.within.registry, Roster.registry_backUp, hwithin.registry]
    · rw [Roster.pending_change, opened.within.pending, Roster.pending_backUp, hwithin.pending]
    · obtain ⟨second, hsecond, hwithin⟩ := hfound.roster?_within hother
      obtain ⟨third, hthird, hwithin'⟩ :=
        hlearned.roster?_within ((hmiddle id).trans ((if_neg hne.symm).trans hsecond))
      exact ⟨third, (hlast id).trans ((if_neg hne.symm).trans hthird), hwithin.trans hwithin'⟩
    · have hne : policyId ≠ id := by
        rintro rfl
        cases hnone.symm.trans hbefore
      have hfound := (hmiddle id).trans ((if_neg hne).trans (hfound.roster?_eq_none hnone))
      exact (hlast id).trans ((if_neg hne).trans (hlearned.roster?_eq_none hfound))
    · rw [hview]
      rfl
    · rw [hview]
      rfl
    · rw [hview]
      rfl

/-- Of all entries in the roster of a policy, that of one actor is as given, and the others are as
they were. -/
def EntryOnly (site : Site) (policyId : UInt64) (actor : Actor) (entry : Option Rights)
    (after : Site) : Prop :=
  ∀ roster later, site.roster? policyId = some roster → after.roster? policyId = some later →
    later.registry.rightsOf? actor = entry ∧
      ∀ other, other.normalize ≠ actor.normalize →
        later.registry.rightsOf? other = roster.registry.rightsOf? other

/-- A changed roster has the entry that the change makes. -/
theorem ChangedOnly.entryOnly (h : site.ChangedOnly policyId change after) {actor : Actor}
    (hactor : change.actor = actor.normalize) {entry : Option Rights}
    (hentry : ∀ roster, site.roster? policyId = some roster →
      (roster.registry.apply change).rightsOf? actor = entry) :
    site.EntryOnly policyId actor entry after := by
  rintro roster later hroster hlater
  obtain ⟨_, _, hroster', hlater', hregistry, -⟩ := h.changed
  cases hroster.symm.trans hroster'
  cases hlater.symm.trans hlater'
  rw [hregistry]
  refine ⟨hentry roster hroster, fun other hne => ?_⟩
  refine Registry.rightsOf?_apply_of_normalize_ne fun hsame => hne ?_
  -- a normal form is its own
  rw [← hsame, hactor, Actor.normalize_normalize]

/-! ### Sites whose store does not fail -/

theorem InStep.unfailing (h : site.InStep) : site.unfailing.InStep :=
  ⟨h.group, h.relation⟩

theorem ChangedOnly.of_unfailing (h : site.unfailing.ChangedOnly policyId change after) :
    site.ChangedOnly policyId change after :=
  ⟨h.changed, h.other, h.absent, h.policy, h.group, h.groupsOf, h.store⟩

/-- At a reached site a change is accepted exactly if the policy is stored, the grantee passes the
check and the grantor is given what it takes. -/
theorem Reached.accepted_iff {rules : Rules} (hreached : site.Reached rules) {check : Call Unit}
    (hcheck : check.Reads site.unfailing fun _ _ => True) (hquiet : check.Quiet)
    {result : Except AccessError Unit × Site}
    (h : site.unfailing.ChangeEnds (check >>= fun _ => openRoster policyId) policyId grantor allowed
      change result) :
    result.1 = .ok () ↔
      (∃ policy, site.backend.store.policies.byId? policyId = some policy) ∧
        (check.perform site.unfailing).1 = .ok () ∧
          ∃ held, (effectiveAccess policyId grantor).gives site = .ok held ∧ allowed held := by
  have hsound := hreached.sound
  have hpolicy : site.unfailing.view.policy? policyId =
      site.backend.store.policies.byId? policyId :=
    hreached.rooted.toIndexed.view_policy? hsound policyId
  rw [h.eq_ok_iff hsound.unfailing rfl (hquiet.bind fun _ => quiet_openRoster policyId),
    check_openRoster_eq_ok_iff hsound.unfailing.keyed rfl hcheck, hpolicy]
  constructor
  · rintro ⟨⟨hdone, hstored, -⟩, hheld⟩
    exact ⟨hstored, hdone, hheld⟩
  · rintro ⟨⟨policy, hstored⟩, hdone, hheld⟩
    exact ⟨⟨hdone, ⟨policy, hstored⟩, hsound.exists_roster? hreached.paired hstored⟩, hheld⟩

/-- The role or group that can be granted rights holds them under its own name. -/
theorem Grantable.exists_actor (h : site.Grantable grantee) (hsound : site.Sound)
    (hkind : grantee.kind = .role ∨ grantee.kind = .group) :
    ∃ group, site.backend.store.groups.byId? grantee.id = some group ∧
      View.holder group = grantee := by
  obtain ⟨kind, id⟩ := grantee
  obtain rfl | rfl := hkind
  · obtain ⟨group, hstored, hrole⟩ := h
    have hid := (hsound.store.groups.group hstored).1
    refine ⟨group, hstored, ?_⟩
    rw [View.holder, hrole, hid]
  · obtain ⟨group, hstored, hgroup⟩ := h
    have hid := (hsound.store.groups.group hstored).1
    refine ⟨group, hstored, ?_⟩
    rw [View.holder, hgroup, hid]

/-- The nearest cell of a group that has a cell of its own is that one. -/
theorem Reached.ofGroup_of_cell {rules : Rules} (hreached : site.Reached rules) {group : Group}
    (hstored : site.backend.store.groups.byId? groupId = some group) {view : View}
    (hgroups : view.group? = site.view.group?) {rights : Rights}
    (hcell : view.cell? policyId (View.holder group) = some (some rights)) :
    view.OfGroup policyId groupId rights := by
  have hsound := hreached.sound
  obtain ⟨line, hline⟩ := hreached.forested.tables.exists_line hsound.store.groups hstored
  obtain ⟨groups, hlineage⟩ := hreached.inStep.exists_lineage hsound hline
  have hnearest : View.FirstCell (view.cell? policyId) (groups.map View.holder) (some rights) := by
    cases hlineage with
    | root => exact absurd rfl (hsound.store.groups.group hstored).2.1
    | child _ found _ =>
      rw [hreached.inStep.view_group? hsound, hstored] at found
      cases found
      exact .here hcell
  exact .intro (hlineage.congr hgroups) hnearest

/-- A grant to a role or group sets the cell that it is given its rights from. -/
theorem Reached.gives_groupAccess_of_entry {rules : Rules} (hreached : site.Reached rules)
    (hkeyed : after.Keyed) (hgrantable : site.Grantable grantee)
    (hkind : grantee.kind = .role ∨ grantee.kind = .group) {policy : Policy}
    (hpolicy : site.backend.store.policies.byId? policyId = some policy)
    (honly : site.ChangedOnly policyId change after) {rights : Rights}
    (hentry : site.EntryOnly policyId grantee (some rights) after) :
    (groupAccess policyId grantee.id).gives after = .ok rights := by
  obtain ⟨group, hstored, hactor⟩ := hgrantable.exists_actor hreached.sound hkind
  obtain ⟨roster, later, hroster, hlater, -⟩ := honly.changed
  have hcell := (shows_of_roster? hlater).cell (View.holder group)
  rw [hactor, (hentry roster later hroster hlater).1, ← hactor] at hcell
  have hrights := hreached.ofGroup_of_cell hstored (funext honly.group) hcell
  have hknown : after.view.policy? policyId = some policy := by
    rw [honly.policy, hreached.rooted.toIndexed.view_policy? hreached.sound, hpolicy]
  exact gives_groupAccess hkeyed hknown hlater hrights

/-- Without failures of the store, a grant is accepted exactly if the policy and the grantee are
there and the grantor is given the right to manage access and all that it hands on; a revocation
asks for the right to manage access alone, and of the grantee only a number.  Whatever is accepted
sets or unsets the entry of the grantee, which is then pending, and nothing else; and a role or
group that was granted rights is given just these. -/
theorem changes_authorized (hreached : site.Reached .all) (policyId : UInt64)
    (grantor grantee : Actor) (rights : Rights) :
    ((grantAccess policyId grantor grantee rights).gives site = .ok () ↔
      (∃ policy, site.backend.store.policies.byId? policyId = some policy) ∧
        site.Grantable grantee ∧
          ∃ held, (effectiveAccess policyId grantor).gives site = .ok held ∧
            Rights.manageAccess ∪ rights ⊆ held) ∧
    ((revokeAccess policyId grantor grantee).gives site = .ok () ↔
      (∃ policy, site.backend.store.policies.byId? policyId = some policy) ∧
        (grantee.kind = .everyone ∨ grantee.id ≠ 0) ∧
          ∃ held, (effectiveAccess policyId grantor).gives site = .ok held ∧
            Rights.manageAccess ⊆ held) ∧
    (∀ after, (grantAccess policyId grantor grantee rights).perform site.unfailing =
        (.ok (), after) →
      site.ChangedOnly policyId ⟨.set, grantee.normalize, rights⟩ after ∧
        site.EntryOnly policyId grantee (some rights) after ∧
          (grantee.kind = .role ∨ grantee.kind = .group →
            (groupAccess policyId grantee.id).gives after = .ok rights)) ∧
    ∀ after, (revokeAccess policyId grantor grantee).perform site.unfailing = (.ok (), after) →
      site.ChangedOnly policyId ⟨.unset, grantee.normalize, ∅⟩ after ∧
        site.EntryOnly policyId grantee (if grantee.isEveryone then some ∅ else none) after := by
  have hsound := hreached.sound.unfailing
  have hgrant := grantAccess_ends hsound policyId grantor grantee rights
  have hrevoke := revokeAccess_ends hsound policyId grantor grantee
  have hgranted := hreached.accepted_iff (reads_checkGrantee hsound.keyed grantee)
    (quiet_checkGrantee grantee) hgrant
  rw [checkGrantee_eq_ok_iff hsound hreached.inStep.unfailing rfl] at hgranted
  have hrevoked := hreached.accepted_iff (reads_checkRevoked grantee)
    (quiet_checkRevoked grantee) hrevoke
  rw [checkRevoked_eq_ok_iff] at hrevoked
  refine ⟨hgranted, hrevoked, fun after hdone => ?_, fun after hdone => ?_⟩
  · rw [hdone] at hgrant hgranted
    obtain ⟨⟨policy, hpolicy⟩, hgrantable, -⟩ := hgranted.1 rfl
    have honly : site.ChangedOnly policyId ⟨.set, grantee.normalize, rights⟩ after :=
      (hgrant.changed_only hsound).of_unfailing
    have hentry : site.EntryOnly policyId grantee (some rights) after :=
      honly.entryOnly rfl fun roster _ => roster.registry.rightsOf?_set grantee rights
    have hpasses : Site.Passes False 0 site.unfailing after := hgrant.passes hsound
    have hkeyed := (hpasses.sound hsound (Store.hasRoom_zero _)).1.keyed
    exact ⟨honly, hentry, fun hkind =>
      hreached.gives_groupAccess_of_entry hkeyed hgrantable hkind hpolicy honly hentry⟩
  · rw [hdone] at hrevoke
    have honly : site.ChangedOnly policyId ⟨.unset, grantee.normalize, ∅⟩ after :=
      (hrevoke.changed_only hsound).of_unfailing
    refine ⟨honly, honly.entryOnly rfl fun roster hroster => ?_⟩
    exact (hreached.tidy.roster? hroster).rightsOf?_revoked grantee

/-- The owner may grant a group a right, a member of it may not, and the group is given just that
right on the policy; without a number nobody is revoked anything. -/
theorem changes_authorized_team :
    (grantAccess 1 (.user 1) (.group 1) .view).gives team = .ok () ∧
      (grantAccess 1 (.user 7) (.group 1) .view).gives team ≠ .ok () ∧
      (revokeAccess 1 (.user 1) (.user 0)).gives team ≠ .ok () ∧
      (groupAccess 1 1).gives teamShared.2 = .ok .view := by
  have hreached := reached_team.mono (Rules.le_all _)
  have hpolicy : (team.backend.store.policies.byId? 1).isSome = true := by decide +kernel
  have hgroup : (team.backend.store.groups.byId? 1).bind Group.kind? = some .group := by
    decide +kernel
  have howner : (effectiveAccess 1 (.user 1)).gives team = .ok .full := by decide +kernel
  have hmember : (effectiveAccess 1 (.user 7)).gives team = .ok ∅ := by decide +kernel
  have hcalm : team.unfailing = team := unfailing_of_calm (by decide +kernel)
  have hdone : (grantAccess 1 (.user 1) (.group 1) .view).perform team.unfailing =
      (.ok (), teamShared.2) := by
    rw [hcalm]
    exact Prod.ext fst_teamShared rfl
  obtain ⟨hgranted, -, honly, -⟩ := changes_authorized hreached 1 (.user 1) (.group 1) .view
  obtain ⟨hgranted', -⟩ := changes_authorized hreached 1 (.user 7) (.group 1) .view
  obtain ⟨-, hrevoked, -⟩ := changes_authorized hreached 1 (.user 1) (.user 0) .view
  refine ⟨hgranted.2 ⟨Option.isSome_iff_exists.1 hpolicy, Option.bind_eq_some_iff.1 hgroup, .full,
    howner, by decide⟩, fun hother => ?_, fun hnobody => ?_, (honly _ hdone).2.2 (.inr rfl)⟩
  · obtain ⟨-, -, held, hheld, hsubset⟩ := hgranted'.1 hother
    cases hmember.symm.trans hheld
    exact absurd hsubset (by decide)
  · obtain ⟨-, hnumber, -⟩ := hrevoked.1 hnobody
    exact absurd hnumber (by decide)

end Site

end AccessRights
