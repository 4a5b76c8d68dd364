/-
AccessRights/Proofs/Delegation.lean

What everybody gains when somebody grants or revokes.

A grant or revocation that succeeds has read a roster, changed one cell of it,
and put it back (`ChangeEnds.changed_view`).  So what a node would find
afterwards is what it would have found before, with another registry for one
policy, and how far that spreads is known already.

What the grantor may hand on is decided by what it is given for its rights
just before the change (`ChangeEnds.changed_held`).

Main results: `grantAccess_bounded` (nobody gains more than what is granted),
`revokeAccess_bounded` (nobody gains more than the group that lost its cell)
and `not_forall_revokeAccess_subset` (that can be something).
-/
import AccessRights.Proofs.Rollback
import AccessRights.Proofs.Serving
import AccessRights.Proofs.Spread
import AccessRights.Proofs.Tidy

namespace AccessRights

/-- Only the public is not in its standard form already. -/
theorem Actor.normalize_of_kind {actor : Actor}
    (h : actor.normalize.kind = .role ∨ actor.normalize.kind = .group) :
    actor.normalize = actor := by
  unfold Actor.normalize at h ⊢
  split at h
  · simp [Actor.everyone] at h
  · rename_i hactor
    rw [if_neg hactor]

namespace View

variable {view : View} {policyId : UInt64} {registry : Registry}

/-- A registry that is shown already makes no difference. -/
theorem Shows.withRegistry_eq (h : view.Shows policyId registry) :
    view.withRegistry policyId registry = view := by
  apply View.ext
  · rfl
  · funext id
    by_cases hid : policyId = id
    · subst hid
      exact (view.shows_withRegistry policyId registry).everyone.trans h.everyone.symm
    · exact everyone?_withRegistry_of_ne hid
  · funext id actor
    by_cases hid : policyId = id
    · subst hid
      exact ((view.shows_withRegistry policyId registry).cell actor).trans (h.cell actor).symm
    · exact cell?_withRegistry_of_ne hid actor
  · rfl
  · rfl

end View

namespace Site

open Call

variable {site after : Site} {opening : Call Unit} {policyId groupId : UInt64}
  {grantor grantee : Actor} {allowed : Rights → Prop} {change : Change} {rights : Rights}

/-! ### Another roster in its place -/

theorem shows_of_roster? {roster : Roster} (h : site.roster? policyId = some roster) :
    site.view.Shows policyId roster.registry where
  everyone := by
    show (site.roster? policyId).map Roster.everyone = _
    rw [h]
    rfl
  cell actor := by
    show (site.roster? policyId).map (fun roster => roster.registry.rightsOf? actor) = _
    rw [h]
    rfl

theorem roster?_insert_counted (site : Site) (hid : policyId ≠ 0) (roster : Roster)
    (changes : Nat) (id : UInt64) :
    roster? { site with node := { site.node with
        rosters := site.node.rosters.insert policyId roster, changes } } id =
      if policyId = id then some roster else site.roster? id := by
  refine (roster?_insert site policyId roster id).trans (if_congr ?_ rfl rfl)
  exact and_iff_left_of_imp fun heq => heq ▸ hid

/-- Of a live roster, only the registry shows. -/
theorem view_insert_roster (site : Site) (hid : policyId ≠ 0) (roster : Roster)
    (changes : Nat) :
    view { site with node := { site.node with
        rosters := site.node.rosters.insert policyId roster, changes } } =
      site.view.withRegistry policyId roster.registry := by
  have hroster := site.roster?_insert_counted hid roster changes
  apply View.ext
  · rfl
  · funext id
    show (roster? _ id).map _ = if policyId = id then _ else (site.roster? id).map _
    rw [hroster]
    split <;> rfl
  · funext id actor
    show (roster? _ id).map _ = if policyId = id then _ else (site.roster? id).map _
    rw [hroster]
    split <;> rfl
  · rfl
  · rfl

/-! ### Changes that succeed -/

/-- When the grantor is asked for, the node would find what it would have found before. -/
theorem Opened.asked (hsound : site.Sound) {answer : Except AccessError Rights}
    {live roster : Roster} (h : site.Opened opening policyId grantor answer live roster after) :
    ∃ middle, (opening.perform site).2 = middle ∧ middle.Keyed ∧ middle.view = site.view ∧
      middle.node.changes = site.node.changes ∧ middle.Learns after ∧
        (effectiveAccess policyId grantor).perform middle = (answer, after) := by
  obtain ⟨opened, middle, hfound, hlive, rfl, hlearned, hasked, hopening⟩ := h.learned
  have hpasses : Site.Passes False 0 site _ :=
    hfound.passes.trans (.single (.rosterBackedUp hlive))
  have hkeyed := (hpasses.sound hsound (Store.hasRoom_zero _)).1.keyed
  refine ⟨_, hopening, hkeyed, ?_, hfound.still.changes, hlearned, hasked⟩
  have hshown : opened.view.Shows policyId live.registry :=
    shows_of_roster? (by rw [roster?_of_live hlive, if_neg h.nonzero])
  calc view _ = opened.view.withRegistry policyId live.backUp.registry :=
        view_insert_roster opened h.nonzero live.backUp _
    _ = opened.view := by rw [Roster.registry_backUp, hshown.withRegistry_eq]
    _ = site.view := hfound.view_eq hsound.keyed

/-- What would be served is the same then, as neither cache nor counter has moved. -/
theorem Opened.served? (hsound : site.Sound) (hquiet : opening.Quiet)
    {answer : Except AccessError Rights} {live roster : Roster}
    (h : site.Opened opening policyId grantor answer live roster after)
    (question : RightsQuestion) :
    (opening.perform site).2.node.served? question = site.node.served? question := by
  obtain ⟨middle, rfl, -, -, hchanges, -, -⟩ := h.asked hsound
  unfold Node.served? Node.generation
  rw [hquiet site, hchanges]

/-- A change that succeeds was allowed for the rights that the grantor was given before it. -/
theorem ChangeEnds.changed_held (hsound : site.Sound) (hquiet : opening.Quiet)
    (h : site.ChangeEnds opening policyId grantor allowed change (.ok (), after)) :
    ∃ held, (effectiveAccess policyId grantor).gives site = .ok held ∧ allowed held := by
  generalize hresult : (Except.ok (), after) = result at h
  cases h with
  | refused | rolledBack => cases hresult
  | @changed held live roster last opened permitted =>
    obtain ⟨middle, rfl, hkeyed, hview, -, -, hasked⟩ := opened.asked hsound
    refine ⟨held, (gives_effectiveAccess_eq_ok_iff hsound.keyed).2 ?_, permitted⟩
    have hanswer := served_or_effective hkeyed (congrArg Prod.fst hasked)
    rwa [opened.served? hsound hquiet, hview] at hanswer

/-- A change that succeeds changes the registry of one policy, which was found, as was its
roster. -/
theorem ChangeEnds.changed_view (hsound : site.Sound)
    (h : site.ChangeEnds opening policyId grantor allowed change (.ok (), after)) :
    ∃ roster, site.roster? policyId = some roster ∧
      (∃ policy, site.view.policy? policyId = some policy) ∧
        after.view = site.view.withRegistry policyId (roster.registry.apply change) := by
  generalize hresult : (Except.ok (), after) = result at h
  cases h with
  | refused | rolledBack => cases hresult
  | @changed held live roster last opened permitted =>
    cases hresult
    obtain ⟨middle, -, hkeyed, hview, -, hlearned, -⟩ := opened.asked hsound
    have hbefore : ∃ before, site.roster? policyId = some before := by
      obtain ⟨found, _, hfound, hlive, -⟩ := opened.learned
      have hopened : found.roster? policyId = some live := by
        rw [roster?_of_live hlive, if_neg opened.nonzero]
      exact (hfound.exists_roster?_iff policyId).1 ⟨live, hopened⟩
    obtain ⟨before, hbefore⟩ := hbefore
    refine ⟨before, hbefore, opened.known, ?_⟩
    -- neither before nor after it was opened has the roster done more than learn
    have hregistry : roster.registry = before.registry := by
      rw [opened.within.registry, Roster.registry_backUp, (opened.within_live hbefore).registry]
    rw [view_insert_roster last opened.nonzero, hlearned.view_eq hkeyed, hview, ← hregistry,
      Roster.registry_change]

/-- Where the view widens by no more than `extra`, so do the rights of every actor on every
policy. -/
theorem freshRights_of_widens {extra : Rights} (hkeyed : site.Keyed) (hkeyed' : after.Keyed)
    (hwidens : site.view.Widens after.view extra) {id : UInt64} {actor : Actor} {held : Rights}
    (hheld : site.freshRights id actor = .ok held) :
    ∃ later, after.freshRights id actor = .ok later ∧ later ⊆ held ∪ extra := by
  rw [freshRights_eq_ok_iff hkeyed] at hheld
  obtain ⟨later, hlater, hle⟩ := hwidens.effective hheld
  exact ⟨later, (freshRights_eq_ok_iff hkeyed').2 hlater, hle⟩

/-- Where only requests are made and the counter does not come round, whatever is given for rights
is what a resolution gives, also after a change of rights. -/
theorem ChangeEnds.gives_fresh (hreached : site.Reached .requests)
    {result : Except AccessError Unit × Site}
    (h : site.ChangeEnds opening policyId grantor allowed change result)
    (hcounted : result.2.node.changes < UInt64.size) (id : UInt64) (actor : Actor) :
    (effectiveAccess id actor).gives site = site.freshRights id actor ∧
      (effectiveAccess id actor).gives result.2 = result.2.freshRights id actor := by
  have hfaithful := hreached.faithful fun _ => not_false
  have hpasses : Site.Passes False 0 site result.2 := h.passes hreached.sound
  have hroom := Store.hasRoom_zero site.backend.store
  have hbefore := Nat.lt_of_le_of_lt hpasses.changes_le hcounted
  exact ⟨gives_effectiveAccess hreached.sound.keyed ⟨hfaithful, hbefore⟩ id actor,
    gives_effectiveAccess (hpasses.sound hreached.sound hroom).1.keyed
      ⟨hpasses.faithful hreached.sound hroom False.elim hfaithful, hcounted⟩ id actor⟩

/-! ### Granting -/

/-- A grant that succeeds gives nobody more than the rights that are granted, on any policy, and
the grantor has these rights itself.  All that may have been tampered with are live rosters, and
where they have not, the rights are those that calls are answered with. -/
theorem grantAccess_bounded (hreached : site.Reached .all)
    (hdone : (grantAccess policyId grantor grantee rights).perform site = (.ok (), after)) :
    (∃ held, (effectiveAccess policyId grantor).gives site = .ok held ∧ rights ⊆ held) ∧
      (∀ id actor held, site.freshRights id actor = .ok held →
        ∃ later, after.freshRights id actor = .ok later ∧ later ⊆ held ∪ rights) ∧
      (site.Reached .requests → after.node.changes < UInt64.size → ∀ id actor,
        (effectiveAccess id actor).gives site = site.freshRights id actor ∧
          (effectiveAccess id actor).gives after = after.freshRights id actor) := by
  have hsound := hreached.sound
  have hends := grantAccess_ends hsound policyId grantor grantee rights
  rw [hdone] at hends
  have hpasses : Site.Passes False 0 site after := hends.passes hsound
  have hkeyed' := (hpasses.sound hsound (Store.hasRoom_zero _)).1.keyed
  refine ⟨?_, fun id actor held hheld => ?_, fun hrequests => hends.gives_fresh hrequests⟩
  · have hquiet := (quiet_checkGrantee grantee).bind fun _ => quiet_openRoster policyId
    obtain ⟨held, hheld, hallowed⟩ := hends.changed_held hsound hquiet
    exact ⟨held, hheld, Rights.subset_of_satisfies_requiredToGrant hallowed⟩
  · obtain ⟨roster, hroster, -, hview⟩ := hends.changed_view hsound
    have hwidens := (shows_of_roster? hroster).widens_set grantee.normalize rights
    rw [← hview] at hwidens
    exact freshRights_of_widens hsound.keyed hkeyed' hwidens hheld

/-- A node that knows a group, one below that with a member, and a policy. -/
def team : Site :=
  (live ⟨.blank {}, {}⟩ [
    (default, .createGroup .group 0 "org" "Organisation"),
    (default, .createGroup .group 1 "eng" "Engineering"),
    (default, .relate 2 (.user 7)),
    (default, .createPolicy (some "doc") 1 0 none .empty)]).2

theorem reached_team : team.Reached .calm :=
  (Reached.blank {}).live (fun _ _ _ => trivial) ⟨by decide +kernel, by decide +kernel⟩

/-- The owner lets a group and all below it view the policy. -/
def teamShared : Except AccessError Unit × Site :=
  (grantAccess 1 (.user 1) (.group 1) .view).perform team

theorem fst_teamShared : teamShared.1 = .ok () := by
  decide +kernel

/-- A member of the group below gains no more than that. -/
theorem grantAccess_bounded_team :
    ∃ later, teamShared.2.freshRights 1 (.user 7) = .ok later ∧ later ⊆ ∅ ∪ Rights.view := by
  have hdone : (grantAccess 1 (.user 1) (.group 1) .view).perform team = (.ok (), teamShared.2) :=
    Prod.ext fst_teamShared rfl
  have hbefore : team.freshRights 1 (.user 7) = .ok ∅ := by decide +kernel
  exact (grantAccess_bounded (reached_team.mono (Rules.le_all _)) hdone).2.1 1 (.user 7) ∅ hbefore

/-! ### Revoking -/

/-- A group that is found has the number under which it was looked for. -/
theorem Sound.id_of_view (hsound : site.Sound) {group : Group}
    (h : site.view.group? groupId = some group) : group.id = groupId := by
  obtain hknown | hstored := known_or_stored h
  · exact (hsound.node.group hknown).1
  · exact hsound.keyed.group hstored

/-- So does a policy. -/
theorem Sound.policyId_of_view (hsound : site.Sound) {policy : Policy}
    (h : site.view.policy? policyId = some policy) : policy.id = policyId := by
  obtain hknown | hstored := known_or_stored h
  · exact (hsound.node.policy hknown).1
  · exact hsound.keyed.policy hstored

/-- What a role or group gains is what it is given afterwards and was not given before. -/
theorem groupAccess_of_gains (hkeyed : site.Keyed) (hkeyed' : after.Keyed) {policy : Policy}
    {roster : Roster} {later : Registry} {extra : Rights}
    (hpolicy : site.view.policy? policyId = some policy)
    (hroster : site.roster? policyId = some roster)
    (hview : after.view = site.view.withRegistry policyId later)
    (hgains : site.view.Gains after.view policyId grantee extra) :
    ∃ had has, (groupAccess policyId grantee.id).gives site = .ok had ∧
      (groupAccess policyId grantee.id).gives after = .ok has ∧ extra = had.missing has := by
  obtain ⟨-, hhad, hhas⟩ := hgains
  have hpolicy' : after.view.policy? policyId = some policy := by rw [hview]; exact hpolicy
  have hshown := site.view.shows_withRegistry policyId later
  rw [← hview] at hshown
  obtain ⟨roster', hroster', -⟩ := Option.map_eq_some_iff.1 hshown.everyone
  exact ⟨_, _, gives_groupAccess hkeyed hpolicy hroster hhad,
    gives_groupAccess hkeyed' hpolicy' hroster' hhas, rfl⟩

/-- A revocation that succeeds gives nobody anything on any policy, unless it takes the cell of a
role or group away.  Then the cell of the nearest ancestor counts instead, and nobody gains more than
the role or group does. -/
theorem revokeAccess_bounded (hreached : site.Reached .all)
    (hdone : (revokeAccess policyId grantor grantee).perform site = (.ok (), after)) :
    (∀ id actor held, site.freshRights id actor = .ok held →
      ∃ later, after.freshRights id actor = .ok later ∧
        (later ⊆ held ∨ (grantee.kind = .role ∨ grantee.kind = .group) ∧ ∃ had has,
          (groupAccess policyId grantee.id).gives site = .ok had ∧
            (groupAccess policyId grantee.id).gives after = .ok has ∧
              later ⊆ held ∪ had.missing has)) ∧
      (site.Reached .requests → after.node.changes < UInt64.size → ∀ id actor,
        (effectiveAccess id actor).gives site = site.freshRights id actor ∧
          (effectiveAccess id actor).gives after = after.freshRights id actor) := by
  have hsound := hreached.sound
  have hends := revokeAccess_ends hsound policyId grantor grantee
  rw [hdone] at hends
  have hpasses : Site.Passes False 0 site after := hends.passes hsound
  have hkeyed' := (hpasses.sound hsound (Store.hasRoom_zero _)).1.keyed
  refine ⟨fun id actor held hheld => ?_, fun hrequests => hends.gives_fresh hrequests⟩
  obtain ⟨roster, hroster, ⟨policy, hpolicy⟩, hview⟩ := hends.changed_view hsound
  obtain ⟨extra, hextra, hwidens⟩ := (shows_of_roster? hroster).widens_unset
    (hreached.tidy.roster? hroster) hsound.id_of_view grantee.normalize
  rw [← hview] at hextra hwidens
  obtain ⟨later, hlater, hle⟩ := freshRights_of_widens hsound.keyed hkeyed' hwidens hheld
  refine ⟨later, hlater, ?_⟩
  obtain rfl | hgains := hextra
  · rw [Rights.union_empty] at hle
    exact .inl hle
  · -- only a group can gain, when a cell further up is uncovered
    have hkind : grantee.normalize.kind = .role ∨ grantee.normalize.kind = .group := by
      obtain ⟨hkind, -, -⟩ := hgains
      exact hkind
    have hnormal := Actor.normalize_of_kind hkind
    rw [hnormal] at hkind hgains
    obtain ⟨had, has, hhad, hhas, rfl⟩ :=
      groupAccess_of_gains hsound.keyed hkeyed' hpolicy hroster hview hgains
    exact .inr ⟨hkind, had, has, hhad, hhas, hle⟩

/-- The group below is excluded by a cell without rights. -/
def teamShadowed : Site :=
  (team.live [
    (default, .grantAccess 1 (.user 1) (.group 1) .view),
    (default, .grantAccess 1 (.user 1) (.group 2) ∅)]).2

theorem reached_teamShadowed : teamShadowed.Reached .calm :=
  reached_team.live (fun _ _ _ => trivial) ⟨by decide +kernel, by decide +kernel⟩

/-- The owner takes that cell away. -/
def teamUnshadowed : Except AccessError Unit × Site :=
  (revokeAccess 1 (.user 1) (.group 2)).perform teamShadowed

theorem fst_teamUnshadowed : teamUnshadowed.1 = .ok () := by
  decide +kernel

/-- The member of the group below gains what the group does. -/
theorem revokeAccess_bounded_team :
    ∃ later, teamUnshadowed.2.freshRights 1 (.user 7) = .ok later ∧
      (later ⊆ ∅ ∨ ∃ had has, (groupAccess 1 2).gives teamShadowed = .ok had ∧
        (groupAccess 1 2).gives teamUnshadowed.2 = .ok has ∧ later ⊆ ∅ ∪ had.missing has) := by
  have hdone : (revokeAccess 1 (.user 1) (.group 2)).perform teamShadowed =
      (.ok (), teamUnshadowed.2) := Prod.ext fst_teamUnshadowed rfl
  have hbefore : teamShadowed.freshRights 1 (.user 7) = .ok ∅ := by decide +kernel
  have hreached := reached_teamShadowed.mono (Rules.le_all _)
  obtain ⟨later, hlater, hle⟩ :=
    (revokeAccess_bounded hreached hdone).1 1 (.user 7) ∅ hbefore
  exact ⟨later, hlater, hle.imp_right And.right⟩

/-- A revocation can give somebody rights: a cell without rights stands in the way of what is
granted further up. -/
theorem not_forall_revokeAccess_subset :
    ¬ ∀ (site : Site), site.Reached .calm →
      ∀ (policyId : UInt64) (grantor grantee : Actor) (after : Site),
      (revokeAccess policyId grantor grantee).perform site = (.ok (), after) →
      ∀ (id : UInt64) (actor : Actor) (held : Rights),
      (effectiveAccess id actor).gives site = .ok held →
        ∃ later, (effectiveAccess id actor).gives after = .ok later ∧ later ⊆ held := by
  intro h
  have hdone : (revokeAccess 1 (.user 1) (.group 2)).perform teamShadowed =
      (.ok (), teamUnshadowed.2) := Prod.ext fst_teamUnshadowed rfl
  have hbefore : (effectiveAccess 1 (.user 7)).gives teamShadowed = .ok ∅ := by decide +kernel
  have hafter : (effectiveAccess 1 (.user 7)).gives teamUnshadowed.2 = .ok .view := by
    decide +kernel
  obtain ⟨later, hlater, hle⟩ :=
    h teamShadowed reached_teamShadowed 1 (.user 1) (.group 2) _ hdone 1 (.user 7) ∅ hbefore
  cases hafter.symm.trans hlater
  exact absurd hle (by decide)

end Site

end AccessRights
