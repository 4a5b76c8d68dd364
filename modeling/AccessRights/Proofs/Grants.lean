/-
AccessRights/Proofs/Grants.lean

Granting and revoking, and what they come to.

Both check the grantee, open the live roster, ask what the grantor has, and
then change the roster or roll it back (`changeAccess`).  `ChangeEnds` says what
that comes to: a call is refused before the roster is opened, or refused after,
or it changes the roster.  In between the call only learns, so that the roster
that is settled in the end is the one that was opened, with some more answers
remembered.

Main results: `grantAccess_ends` and `revokeAccess_ends`.
-/
import AccessRights.Proofs.Passing

namespace AccessRights

namespace Site

open Call

variable {licence : Licence} {most count : Nat} {site : Site}

/-! ### What is checked -/

/-- To check a grantee is only to read. -/
theorem reads_checkGrantee (hkeyed : site.Keyed) (grantee : Actor) :
    (checkGrantee grantee).Reads site fun _ _ => True :=
  (composed_checkGrantee learning_groupById grantee site).reads hkeyed

theorem reads_checkRevoked (grantee : Actor) :
    (checkRevoked grantee).Reads site fun _ _ => True := by
  unfold checkRevoked
  split
  · exact reads_throw _ _
  · exact reads_pure trivial

/-! ### How a change of rights ends -/

/-- The live roster of a policy was found and opened, and it was asked what the grantor has.
The call has only learned since: `roster` is what has become of the roster by then. -/
structure Opened (site : Site) (opening : Call Unit) (policyId : UInt64) (grantor : Actor)
    (answer : Except AccessError Rights) (live roster : Roster) (after : Site) : Prop where
  reached : (opening.perform site).1 = .ok ()
  nonzero : policyId ≠ 0
  known : ∃ policy, site.view.policy? policyId = some policy
  current : after.node.rosters[policyId]? = some roster
  within : live.backUp.Within roster
  learned : ∃ opened middle, site.Learns opened ∧ opened.node.rosters[policyId]? = some live ∧
    middle = { opened with node := { opened.node with
      rosters := opened.node.rosters.insert policyId live.backUp } } ∧
    middle.Learns after ∧ (effectiveAccess policyId grantor).perform middle = (answer, after) ∧
    (opening.perform site).2 = middle

/-- What a call comes to that opens a roster and is to change it if the rights of the grantor
allow it. -/
inductive ChangeEnds (site : Site) (opening : Call Unit) (policyId : UInt64) (grantor : Actor)
    (allowed : Rights → Prop) (change : Change) : Except AccessError Unit × Site → Prop
  /-- It is refused before the roster is opened. -/
  | refused {error : AccessError} {after : Site} (learns : site.Learns after)
      (unopened : (opening.perform site).1 ≠ .ok ()) :
      ChangeEnds site opening policyId grantor allowed change (.error error, after)
  /-- It is refused, and the roster is rolled back. -/
  | rolledBack {error : AccessError} {answer : Except AccessError Rights} {live roster : Roster}
      {after : Site} (opened : site.Opened opening policyId grantor answer live roster after)
      (denied : ∀ held, answer = .ok held → ¬ allowed held) :
      ChangeEnds site opening policyId grantor allowed change
        (.error error, { after with node := { after.node with
          rosters := after.node.rosters.insert policyId roster.rollBack
          changes := after.node.changes + 1 } })
  /-- The roster is changed, and gives nobody rights that the grantor does not have. -/
  | changed {held : Rights} {live roster : Roster} {after : Site}
      (opened : site.Opened opening policyId grantor (.ok held) live roster after)
      (permitted : allowed held) (within : change.rights ⊆ held) :
      ChangeEnds site opening policyId grantor allowed change
        (.ok (), { after with node := { after.node with
          rosters := after.node.rosters.insert policyId (roster.change change)
          changes := after.node.changes + 1 } })

variable {opening : Call Unit} {policyId : UInt64} {grantor : Actor} {allowed : Rights → Prop}
  {change : Change} {answer : Except AccessError Rights}

/-- Opening a roster and putting a changed one in its place, with rights that the grantor was found
to have, is a sequence of events. -/
theorem Opened.passes (hsound : site.Sound) {live roster last : Roster} {after : Site}
    (h : site.Opened opening policyId grantor answer live roster after)
    (hown : last.policyId = roster.policyId)
    (hconsistent : roster.Consistent → last.Consistent)
    (hedit : last = roster.rollBack ∨ ∃ change, last = roster.change change ∧
      ∃ held, answer = .ok held ∧ change.rights ⊆ held) :
    Site.Passes licence 0 site { after with node := { after.node with
      rosters := after.node.rosters.insert policyId last
      changes := after.node.changes + 1 } } := by
  obtain ⟨opened, asked, hfound, hlive, rfl, hlearned, hrun, -⟩ := h.learned
  have hopened : Site.Passes licence 0 site { opened with node := { opened.node with
      rosters := opened.node.rosters.insert policyId live.backUp } } :=
    hfound.passes.trans (.single (.rosterBackedUp hlive))
  have hkeyed := (hopened.sound hsound (Store.hasRoom_zero _)).1.keyed
  have hasked := (reads_effectiveAccess hkeyed policyId grantor).post
  rw [hrun] at hasked
  -- found, backed up, asked, and settled: the last of these is the event that counts
  have hafter := hopened.trans hlearned.passes
  obtain ⟨hid, -, hroster⟩ := (hafter.sound hsound (Store.hasRoom_zero _)).1.node.roster h.current
  refine hafter.trans (.single (.rosterChanged h.current (hown.trans hid) (hconsistent hroster)
    (hedit.imp_right ?_)))
  rintro ⟨change, hchange, held, hanswer, hwithin⟩
  exact ⟨change, hchange, grantor.normalize, held, (hasked held hanswer).1, hwithin⟩

/-- Whatever a change of rights comes to is a sequence of events. -/
theorem ChangeEnds.passes (hsound : site.Sound) {result : Except AccessError Unit × Site}
    (h : site.ChangeEnds opening policyId grantor allowed change result) :
    Site.Passes licence 0 site result.2 := by
  cases h with
  | refused learns => exact learns.passes
  | rolledBack opened denied =>
    exact opened.passes hsound (Roster.policyId_rollBack _) (fun hroster => hroster.rollBack)
      (.inl rfl)
  | changed opened permitted within =>
    exact opened.passes hsound (Roster.policyId_change _ _) (fun hroster => hroster.change change)
      (.inr ⟨change, rfl, _, rfl, within⟩)

/-! ### Granting and revoking -/

theorem perform_editRoster {roster : Roster} (hlive : site.node.rosters[policyId]? = some roster)
    (edit : Roster → Roster) : (editRoster policyId edit).perform site =
      (.ok (), { site with node := { site.node with
        rosters := site.node.rosters.insert policyId (edit roster) } }) := by
  rw [← Table.modify_eq_insert hlive edit]
  rfl

/-- A change that went through is counted. -/
theorem perform_settle_ok : (settle policyId (.ok ())).perform site =
    (.ok (), { site with node := { site.node with changes := site.node.changes + 1 } }) :=
  rfl

/-- A change that was refused is rolled back, which is counted as well. -/
theorem perform_settle_error {roster : Roster}
    (hlive : site.node.rosters[policyId]? = some roster) (error : AccessError) :
    (settle policyId (.error error)).perform site =
      (.error error, { site with node := { site.node with
        rosters := site.node.rosters.insert policyId roster.rollBack
        changes := site.node.changes + 1 } }) := by
  rw [← Table.modify_eq_insert hlive Roster.rollBack]
  rfl

/-- A roster is opened after its policy was found. -/
theorem openRoster_cases (hkeyed : site.Keyed) (policyId : UInt64) :
    (∃ error after, site.Learns after ∧
      (openRoster policyId).perform site = (.error error, after)) ∨
    ∃ live opened, site.Learns opened ∧ policyId ≠ 0 ∧
      (∃ policy, site.view.policy? policyId = some policy) ∧
      opened.node.rosters[policyId]? = some live ∧
      (openRoster policyId).perform site = (.ok (), { opened with node := { opened.node with
        rosters := opened.node.rosters.insert policyId live.backUp } }) := by
  unfold openRoster
  rw [perform_bind]
  obtain ⟨error, after, hlearns, hrun⟩ | ⟨policy, first, hlearns, ⟨hpolicy, -⟩, hrun⟩ :=
    (reads_policyById hkeyed policyId).cases <;> rw [hrun]
  · exact .inl ⟨error, after, hlearns, rfl⟩
  dsimp only
  rw [perform_bind]
  have hknown := (hlearns.keyed hkeyed).recalled_le.policy hpolicy
  rw [hlearns.view_eq hkeyed] at hknown
  have hkeyed := hlearns.keyed hkeyed
  obtain ⟨error, after, hlearns', hrun⟩ | ⟨live, second, hlearns', ⟨hid, hlive⟩, hrun⟩ :=
    (reads_rosterOf hkeyed policyId).cases <;> rw [hrun]
  · exact .inl ⟨error, after, hlearns.trans hlearns', rfl⟩
  · -- the backed-up roster is put under the number of its policy, where it was
    refine .inr ⟨live, second, hlearns.trans hlearns', hid, ⟨policy, hknown⟩, hlive, ?_⟩
    obtain ⟨rfl, -⟩ := (hlearns'.keyed hkeyed).roster hlive
    rw [← live.policyId_backUp]
    rfl

/-- Checking and opening, which a change of rights begins with. -/
theorem check_openRoster_cases {check : Call Unit} (hkeyed : site.Keyed)
    (hcheck : check.Reads site fun _ _ => True) (policyId : UInt64) :
    (∃ error after, site.Learns after ∧
      (check >>= fun _ => openRoster policyId).perform site = (.error error, after)) ∨
    ∃ live opened, site.Learns opened ∧ policyId ≠ 0 ∧
      (∃ policy, site.view.policy? policyId = some policy) ∧
      opened.node.rosters[policyId]? = some live ∧
      (check >>= fun _ => openRoster policyId).perform site =
        (.ok (), { opened with node := { opened.node with
          rosters := opened.node.rosters.insert policyId live.backUp } }) := by
  rw [perform_bind]
  obtain ⟨error, after, hlearns, hrun⟩ | ⟨_, first, hlearns, -, hrun⟩ := hcheck.cases <;> rw [hrun]
  · exact .inl ⟨error, after, hlearns, rfl⟩
  dsimp only
  obtain ⟨error, after, hlearns', hrun⟩ | ⟨live, opened, hlearns', hid, hknown, hlive, hrun⟩ :=
    openRoster_cases (hlearns.keyed hkeyed) policyId
  · exact .inl ⟨error, after, hlearns.trans hlearns', hrun⟩
  · rw [hlearns.view_eq hkeyed] at hknown
    exact .inr ⟨live, opened, hlearns.trans hlearns', hid, hknown, hlive, hrun⟩

/-- A change of rights is refused before the roster is opened, refused after and rolled
back, or made. -/
theorem changeAccess_ends {check : Call Unit} (hsound : site.Sound)
    (hcheck : check.Reads site fun _ _ => True) (policyId : UInt64) (grantor : Actor)
    {change : Change} {allowed : Rights → Prop} [DecidablePred allowed]
    (hbounded : ∀ held, allowed held → change.rights ⊆ held) (refusal : Rights → AccessError) :
    site.ChangeEnds (check >>= fun _ => openRoster policyId) policyId grantor allowed change
      ((changeAccess check policyId grantor change allowed refusal).perform site) := by
  unfold changeAccess
  rw [← bind_assoc, perform_bind]
  obtain ⟨error, after, hlearns, hrun⟩ | ⟨live, opened, hlearns, hid, hknown, hlive, hrun⟩ :=
    check_openRoster_cases hsound.keyed hcheck policyId
  · have hunopened : ((check >>= fun _ => openRoster policyId).perform site).1 ≠ .ok () := by
      rw [hrun]
      exact nofun
    rw [hrun]
    exact .refused hlearns hunopened
  have hreached : ((check >>= fun _ => openRoster policyId).perform site).1 = .ok () := by
    rw [hrun]
  have hmiddle := congrArg Prod.snd hrun
  rw [hrun]
  dsimp only
  -- the roster is open; asking for the rights of the grantor is still only reading
  have hbackedUp : Site.Passes False 0 site _ :=
    hlearns.passes.trans (.single (.rosterBackedUp hlive))
  have hkeyed := (hbackedUp.sound hsound (Store.hasRoom_zero _)).1.keyed
  have hasked := (reads_effectiveAccess hkeyed policyId grantor).learns
  rcases hrun : (effectiveAccess policyId grantor).perform _ with ⟨answer, after⟩
  rw [hrun] at hasked
  obtain ⟨roster, hroster, hwithin⟩ := hasked.live Std.ExtTreeMap.getElem?_insert_self
  have hopened : site.Opened _ policyId grantor answer live roster after :=
    ⟨hreached, hid, hknown, hroster, hwithin, opened, _, hlearns, hlive, rfl, hasked, hrun,
      hmiddle⟩
  rw [perform_bind, perform_outcome]
  dsimp only
  rw [perform_bind]
  rw [hrun]
  -- the question may fail, be answered to satisfaction, or not
  cases answer with
  | error failure =>
    dsimp only
    rw [perform_settle_error hroster]
    exact .rolledBack hopened nofun
  | ok held =>
    dsimp only
    split
    · rename_i hallowed
      rw [perform_editRoster hroster, perform_settle_ok]
      exact .changed hopened hallowed (hbounded held hallowed)
    · rename_i hdenied
      rw [perform_throw, perform_settle_error hroster]
      refine .rolledBack hopened ?_
      intro other hother
      cases hother
      exact hdenied

/-- A grant is a change that the grantor may make who has what is granted. -/
theorem grantAccess_ends (hsound : site.Sound) (policyId : UInt64) (grantor grantee : Actor)
    (rights : Rights) :
    site.ChangeEnds (checkGrantee grantee >>= fun _ => openRoster policyId) policyId grantor
      (fun held => held.satisfies (requiredToGrant rights)) ⟨.set, grantee.normalize, rights⟩
      ((grantAccess policyId grantor grantee rights).perform site) := by
  rw [grantAccess_eq]
  refine changeAccess_ends hsound (reads_checkGrantee hsound.keyed grantee) policyId grantor ?_ _
  exact fun _ => Rights.subset_of_satisfies_requiredToGrant

/-- A revocation is a change for those who may manage the access. -/
theorem revokeAccess_ends (hsound : site.Sound) (policyId : UInt64) (grantor grantee : Actor) :
    site.ChangeEnds (checkRevoked grantee >>= fun _ => openRoster policyId) policyId grantor
      (fun held => held.satisfies .manageAccess) ⟨.unset, grantee.normalize, ∅⟩
      ((revokeAccess policyId grantor grantee).perform site) := by
  rw [revokeAccess_eq]
  refine changeAccess_ends hsound (reads_checkRevoked grantee) policyId grantor ?_ _
  exact fun _ _ => Rights.empty_subset _

theorem grantAccess_passes (hsound : site.Sound) (policyId : UInt64) (grantor grantee : Actor)
    (rights : Rights) : (grantAccess policyId grantor grantee rights).Passes licence most count site :=
  passes_of_zero ((grantAccess_ends hsound policyId grantor grantee rights).passes hsound)

theorem revokeAccess_passes (hsound : site.Sound) (policyId : UInt64) (grantor grantee : Actor) :
    (revokeAccess policyId grantor grantee).Passes licence most count site :=
  passes_of_zero ((revokeAccess_ends hsound policyId grantor grantee).passes hsound)

end Site

end AccessRights
