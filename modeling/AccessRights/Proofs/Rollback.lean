/-
AccessRights/Proofs/Rollback.lean

What a refused change of rights leaves behind.

A refused grant or revocation is meant to leave no trace.  It does so as long
as nothing waits to be stored, and also when it is refused before the roster is
opened.  Otherwise it does not: rolling back undoes all pending changes, and
those of earlier calls, which were accepted, are among them.

Main results: `refused_alike_iff` (when a refused call leaves the roster alone)
and `not_forall_refused_alike` (it does not always).
-/
import AccessRights.Proofs.Reachable

namespace AccessRights

/-! ### Rosters that look alike -/

namespace Roster

variable {roster other third : Roster}

/-- The other roster looks the same to everybody. -/
structure Alike (roster other : Roster) : Prop where
  everyone : other.everyone = roster.everyone
  cells : other.cells = roster.cells
  lookup (actor : Actor) : (other.lookup actor).1 = (roster.lookup actor).1
  pending : other.pending = roster.pending

theorem Alike.trans (h : roster.Alike other) (h' : other.Alike third) : roster.Alike third where
  everyone := h'.everyone.trans h.everyone
  cells := h'.cells.trans h.cells
  lookup actor := (h'.lookup actor).trans (h.lookup actor)
  pending := h'.pending.trans h.pending

/-- Consistent rosters look alike if they have the same registry and the same pending
changes. -/
theorem alike_of_registry (h : roster.Consistent) (h' : other.Consistent)
    (hregistry : other.registry = roster.registry) (hpending : other.pending = roster.pending) :
    roster.Alike other where
  everyone := congrArg Registry.everyone hregistry
  cells := congrArg Registry.cells hregistry
  lookup actor := by rw [h'.lookup_fst, h.lookup_fst, hregistry]
  pending := hpending

@[simp] theorem pending_rollBack (roster : Roster) : roster.rollBack.pending = [] := by
  unfold rollBack
  split <;> rfl

/-- Answers that were learned make no difference to what is rolled back. -/
theorem Within.registry_rollBack (h : roster.Within other) :
    other.rollBack.registry = roster.rollBack.registry := by
  unfold rollBack
  rw [h.backup]
  split
  · rfl
  · exact h.registry

/-- Rolling back changes nothing exactly if nothing is pending. -/
theorem alike_rollBack_iff (h : roster.Consistent) :
    roster.Alike roster.rollBack ↔ roster.pending = [] := by
  have hpending := roster.pending_rollBack
  refine ⟨fun halike => halike.pending.symm.trans hpending, fun hclean => ?_⟩
  refine alike_of_registry h h.rollBack ?_ (hpending.trans hclean.symm)
  unfold rollBack
  split
  · rename_i backup hbackup
    -- the pending changes lead from the backup to the registry, and there are none
    have hreplay := (h.backup hbackup).2
    rw [hclean] at hreplay
    exact hreplay.symm
  · rfl

end Roster

/-- The request is to change what others may do with the policy. -/
def Request.ChangesRights (policyId : UInt64) : Request → Prop
  | .grantAccess id .. | .revokeAccess id .. => id = policyId
  | _ => False

/-- What the request does before it asks for the rights of the grantor. -/
def Request.opening : Request → Call Unit
  | .grantAccess policyId _ grantee _ => do
    Site.checkGrantee grantee
    Site.openRoster policyId
  | .revokeAccess policyId _ grantee => do
    Site.checkRevoked grantee
    Site.openRoster policyId
  | _ => pure ()

/-- The request gets as far as the roster: the grantee is acceptable, and the policy is found
with its roster. -/
def Request.Opens (site : Site) (request : Request) : Prop :=
  (request.opening.perform site).1 = .ok ()

namespace Site

variable {site after : Site} {opening : Call Unit} {policyId : UInt64} {grantor : Actor}
  {allowed : Rights → Prop} {change : Change}

/-! ### Refused calls -/

/-- A roster that has only learned looks the same. -/
theorem Learns.alike (hkeyed : site.Keyed) (h : site.Learns after) {roster : Roster}
    (hroster : site.roster? policyId = some roster) :
    ∃ later, after.roster? policyId = some later ∧ roster.Alike later := by
  obtain ⟨later, hlater, hwithin⟩ := h.roster?_within hroster
  have hconsistent' := (h.keyed hkeyed).consistent hlater
  exact ⟨later, hlater, Roster.alike_of_registry (hkeyed.consistent hroster) hconsistent'
    hwithin.registry hwithin.pending⟩

/-- The roster that was opened is the one that was found, with some more answers. -/
theorem Opened.within_live {answer : Except AccessError Rights} {live roster before : Roster}
    (h : site.Opened opening policyId grantor answer live roster after)
    (hbefore : site.roster? policyId = some before) : before.Within live := by
  obtain ⟨opened, asked, hfound, hlive, -⟩ := h.learned
  obtain ⟨found, hfound, hwithin⟩ := hfound.roster?_within hbefore
  rw [roster?_of_live hlive, if_neg h.nonzero] at hfound
  cases hfound
  exact hwithin

/-- A refused call leaves a roster that looks as before, or, if it got as far as the roster, one
that looks like the old one rolled back. -/
theorem ChangeEnds.refused_cases (hsound : site.Sound) {error : AccessError}
    (h : site.ChangeEnds opening policyId grantor allowed change (.error error, after)) {roster : Roster}
    (hroster : site.roster? policyId = some roster) :
    ∃ later, after.roster? policyId = some later ∧
      ((opening.perform site).1 ≠ .ok () ∧ roster.Alike later ∨
        (opening.perform site).1 = .ok () ∧ roster.rollBack.Alike later) := by
  generalize hresult : (Except.error error, after) = result at h
  cases h with
  | refused learns unopened =>
    cases hresult
    obtain ⟨later, hlater, halike⟩ := learns.alike hsound.keyed hroster
    exact ⟨later, hlater, .inl ⟨unopened, halike⟩⟩
  | changed => cases hresult
  | @rolledBack _ answer live rolled middle opened denied =>
    cases hresult
    have hlater := roster?_insert middle policyId rolled.rollBack policyId
    rw [if_pos ⟨rfl, opened.nonzero⟩] at hlater
    refine ⟨rolled.rollBack, hlater, .inr ⟨opened.reached, ?_⟩⟩
    -- neither before nor after it was opened has the roster done more than learn
    rw [Roster.rollBack_of_within_backUp opened.within]
    have hwithin := opened.within_live hroster
    have hconsistent := hsound.keyed.consistent hroster
    have hlive : live.Consistent := by
      obtain ⟨first, asked, hfound, hlive, -⟩ := opened.learned
      exact ((hfound.keyed hsound.keyed).roster hlive).2
    exact Roster.alike_of_registry hconsistent.rollBack hlive.rollBack hwithin.registry_rollBack
      (by rw [Roster.pending_rollBack, Roster.pending_rollBack])

/-- Where no roster was found, none is found after a refused call. -/
theorem ChangeEnds.refused_none {error : AccessError}
    (h : site.ChangeEnds opening policyId grantor allowed change (.error error, after))
    (hroster : site.roster? policyId = none) : after.roster? policyId = none := by
  generalize hresult : (Except.error error, after) = result at h
  cases h with
  | refused learns =>
    cases hresult
    exact learns.roster?_eq_none hroster
  | changed => cases hresult
  | @rolledBack _ answer live rolled middle opened denied =>
    obtain ⟨first, asked, hfound, hlive, -⟩ := opened.learned
    have hnone := hfound.roster?_eq_none hroster
    rw [roster?_of_live hlive, if_neg opened.nonzero] at hnone
    cases hnone

/-- A request to change rights that is refused is a change of rights that is refused. -/
theorem changeEnds_of_answer (hsound : site.Sound) {request : Request}
    (hrequest : request.ChangesRights policyId) {now : Timestamp} {error : AccessError}
    (hrefused : (answer now request).perform site = (.error error, after)) :
    ∃ grantor allowed change,
      site.ChangeEnds request.opening policyId grantor allowed change (.error error, after) := by
  -- an answer is refused exactly as the call behind it
  have hcall (call : Call Unit)
      (h : (call >>= fun _ => pure Reply.done).perform site = (.error error, after)) :
      call.perform site = (.error error, after) := by
    rw [Call.perform_bind] at h
    rcases hrun : call.perform site with ⟨failure | _, last⟩ <;> rw [hrun] at h <;> cases h
    rfl
  cases request with
  | grantAccess id grantor grantee rights =>
    obtain rfl : id = policyId := hrequest
    have hends := grantAccess_ends hsound id grantor grantee rights
    rw [hcall _ hrefused] at hends
    exact ⟨_, _, _, hends⟩
  | revokeAccess id grantor grantee =>
    obtain rfl : id = policyId := hrequest
    have hends := revokeAccess_ends hsound id grantor grantee
    rw [hcall _ hrefused] at hends
    exact ⟨_, _, _, hends⟩
  | _ => exact hrequest.elim

end Site

/-! ### When a refused call leaves no trace -/

namespace Cluster

/-- In any reachable state, a refused request to change rights leaves the roster of the policy
as it was exactly if nothing was pending or the call did not get as far as the roster.
Otherwise the roster is rolled back, with the changes of earlier calls. -/
theorem refused_alike_iff {cluster : Cluster} (hreachable : cluster.Reachable) {number : Nat}
    {node : Node} (hnode : cluster.nodes[number]? = some node) {policyId : UInt64}
    {request : Request} (hrequest : request.ChangesRights policyId) {now : Timestamp}
    {error : AccessError} {after : Site}
    (hrefused : (Site.answer now request).perform ⟨node, cluster.backend⟩ =
      (.error error, after)) :
    (Site.roster? ⟨node, cluster.backend⟩ policyId = none → after.roster? policyId = none) ∧
      ∀ roster, Site.roster? ⟨node, cluster.backend⟩ policyId = some roster →
        ∃ later, after.roster? policyId = some later ∧
          (roster.Alike later ↔
            roster.pending = [] ∨ ¬ request.Opens ⟨node, cluster.backend⟩) ∧
          (¬ roster.Alike later → roster.rollBack.Alike later) := by
  have hsound := hreachable.site_sound hnode
  obtain ⟨grantor, allowed, change, hends⟩ := Site.changeEnds_of_answer hsound hrequest hrefused
  refine ⟨hends.refused_none, fun roster hroster => ?_⟩
  obtain ⟨later, hlater, ⟨hunopened, halike⟩ | ⟨hopens, hrolled⟩⟩ :=
    hends.refused_cases hsound hroster
  · exact ⟨later, hlater, ⟨fun _ => .inr hunopened, fun _ => halike⟩, fun h => absurd halike h⟩
  · -- rolled back to the last commit, which is where it was only if nothing was pending
    refine ⟨later, hlater, ⟨fun halike => .inl ?_, ?_⟩, fun _ => hrolled⟩
    · rw [← halike.pending, hrolled.pending, Roster.pending_rollBack]
    · intro h
      obtain hclean | hunopened := h
      · have hconsistent := hsound.keyed.consistent hroster
        exact ((Roster.alike_rollBack_iff hconsistent).2 hclean).trans hrolled
      · exact absurd hopens hunopened

/-! ### A refusal that undoes a grant -/

/-- A node that knows one policy, on which only its owner has rights. -/
def owned : Cluster :=
  (Cluster.openNode {} {}).2.after [(0, default, .createPolicy (some "doc") 1 0 none .empty)]

/-- The owner has granted rights that are not stored yet. -/
def draft : Cluster :=
  owned.after [(0, default, .grantAccess 1 (.user 1) (.user 5) .view)]

theorem reachable_owned : owned.Reachable := by
  refine (Reachable.opened .empty {}).after ⟨?_, ?_⟩ <;> decide +kernel

theorem reachable_draft : draft.Reachable := by
  refine reachable_owned.after ⟨?_, ?_⟩ <;> decide +kernel

/-- Somebody without any rights tries to hand some on. -/
def intrusion (site : Site) : Except AccessError Reply × Site :=
  (Site.answer default (.grantAccess 1 (.user 7) (.user 6) .view)).perform site

theorem isOk_intrusion :
    (intrusion (owned.siteOf 0)).1.isOk = false ∧ (intrusion (draft.siteOf 0)).1.isOk = false := by
  decide +kernel

theorem pending_before :
    ((owned.siteOf 0).roster? 1).map Roster.pending = some [] ∧
      ((draft.siteOf 0).roster? 1).map Roster.pending = some [⟨.set, .user 5, .view⟩] := by
  decide +kernel

theorem pending_after : ((intrusion (draft.siteOf 0)).2.roster? 1).map Roster.pending = some [] := by
  decide +kernel

/-- Where nothing is pending, the intruder leaves no trace. -/
theorem refused_alike_owned : ∃ error after roster later,
    intrusion (owned.siteOf 0) = (.error error, after) ∧
      (owned.siteOf 0).roster? 1 = some roster ∧
        after.roster? 1 = some later ∧ roster.Alike later := by
  rcases hrun : intrusion (owned.siteOf 0) with ⟨error | reply, after⟩
  · obtain ⟨roster, hroster, hclean⟩ := Option.map_eq_some_iff.1 pending_before.1
    have hnode := nodes_siteOf (show 0 < owned.nodes.size by decide +kernel)
    have hrequest : Request.ChangesRights 1 (.grantAccess 1 (.user 7) (.user 6) .view) := rfl
    obtain ⟨later, hlater, hiff, -⟩ :=
      (refused_alike_iff reachable_owned hnode hrequest hrun).2 roster hroster
    exact ⟨error, after, roster, later, rfl, hroster, hlater, hiff.2 (.inl hclean)⟩
  · have hrefused := isOk_intrusion.1
    rw [hrun] at hrefused
    cases hrefused

/-- A refused call does not always leave the roster alone: the intruder undoes what the owner has
granted. -/
theorem not_forall_refused_alike :
    ¬ ∀ (cluster : Cluster), cluster.Reachable → ∀ (number : Nat) (node : Node),
      cluster.nodes[number]? = some node → ∀ (policyId : UInt64) (request : Request),
      request.ChangesRights policyId → ∀ (now : Timestamp) (error : AccessError) (after : Site),
      (Site.answer now request).perform ⟨node, cluster.backend⟩ = (.error error, after) →
      ∀ roster, Site.roster? ⟨node, cluster.backend⟩ policyId = some roster →
        ∃ later, after.roster? policyId = some later ∧ roster.Alike later := by
  intro h
  rcases hrun : intrusion (draft.siteOf 0) with ⟨error | reply, after⟩
  · obtain ⟨roster, hroster, hpending⟩ := Option.map_eq_some_iff.1 pending_before.2
    have hnode := nodes_siteOf (show 0 < draft.nodes.size by decide +kernel)
    obtain ⟨later, hlater, halike⟩ := h draft reachable_draft 0 _ hnode 1
      (.grantAccess 1 (.user 7) (.user 6) .view) rfl default error after hrun roster hroster
    have hclean := pending_after
    rw [hrun] at hclean
    obtain ⟨rolled, hrolled, hclean⟩ := Option.map_eq_some_iff.1 hclean
    obtain rfl := Option.some.inj (hlater.symm.trans hrolled)
    have hsame := halike.pending
    rw [hclean, hpending] at hsame
    cases hsame
  · have hrefused := isOk_intrusion.2
    rw [hrun] at hrefused
    cases hrefused

end Cluster

end AccessRights
