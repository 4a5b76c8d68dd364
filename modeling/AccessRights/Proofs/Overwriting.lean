/-
AccessRights/Proofs/Overwriting.lean

What becomes of a stored entry while several nodes store the policy.

A policy is stored with the whole record of the live roster, whatever was queued in
it.  So besides its own changes a node hands over every other entry as it was when
the node read the roster or stored it last.  As long as all live rosters would be
rolled back to the stored entry of an actor, that entry changes only when a change
that was queued for the actor is settled.  One live roster that was left behind is
enough to lose it, though: its node need only store the policy, with nothing
queued.

Main results: `PersistEnds.hands_over`, `Abreast.move` (a move), `Abreast.run` (a run),
`persisted_stays_iff` and `not_forall_persisted_stays`.
-/
import AccessRights.Proofs.Batch
import AccessRights.Proofs.Moves
import AccessRights.Proofs.Spread

namespace AccessRights

/-! ### Entries -/

/-- The entry of an actor in the stored roster of a policy, if there is such a roster. -/
def Store.entry? (store : Store) (policyId : UInt64) (actor : Actor) : Option (Option Rights) :=
  (store.policies.roster? policyId).map fun record => (Registry.ofRecord record).rightsOf? actor

namespace Roster

variable {roster other : Roster}

/-- What an actor had when the changes to the roster were settled last. -/
def settledRights? (roster : Roster) (actor : Actor) : Option Rights :=
  roster.rollBack.registry.rightsOf? actor

/-- Whoever works on a roster settles nothing, unless it commits. -/
theorem settledRights?_perform (roster : Roster) (step : RosterStep) (hstep : step ≠ .commit)
    (actor : Actor) : (roster.perform step).2.settledRights? actor = roster.settledRights? actor :=
  congrArg (·.rightsOf? actor) (registry_eq_of_record (roster.rollBack_record_perform hstep))

theorem Within.settledRights? (h : roster.Within other) (actor : Actor) :
    other.settledRights? actor = roster.settledRights? actor :=
  congrArg (·.rightsOf? actor) h.registry_rollBack

/-- An actor for whom nothing is queued has what it had. -/
theorem Consistent.rightsOf?_eq_settled (h : roster.Consistent) {actor : Actor}
    (hspared : ∀ change ∈ roster.pending, change.actor.normalize ≠ actor.normalize) :
    roster.registry.rightsOf? actor = roster.settledRights? actor := by
  have hreplay : (roster.rollBack.registry.replay roster.pending).rightsOf? actor =
      roster.rollBack.registry.rightsOf? actor := Registry.rightsOf?_replay_of_normalize_ne hspared
  rwa [h.replay_rollBack] at hreplay

end Roster

/-- The live roster of the policy, if the node has one, had the entry for the actor when its changes
were settled last. -/
def Node.UpToDate (node : Node) (policyId : UInt64) (actor : Actor) (entry : Option Rights) :
    Prop :=
  ∀ roster, node.rosters[policyId]? = some roster → roster.settledRights? actor = entry

theorem Node.upToDate_blank (config : Config) (policyId : UInt64) (actor : Actor)
    (entry : Option Rights) : (Node.blank config).UpToDate policyId actor entry :=
  fun _ hlive => by simp [Node.blank] at hlive

namespace Site

open Call

variable {site after : Site} {licence : Licence} {n : Nat} {policyId id : UInt64} {actor : Actor}
  {entry : Option Rights} {roster : Roster}

/-! ### Sites that are abreast of an entry -/

/-- The store has the entry for the actor, and the node is up to date with it. -/
structure Abreast (site : Site) (policyId : UInt64) (actor : Actor) (entry : Option Rights) :
    Prop where
  stored : site.backend.store.entry? policyId actor = some entry
  live : site.node.UpToDate policyId actor entry

/-- So has any roster that is found for the policy. -/
theorem Abreast.roster? (h : site.Abreast policyId actor entry)
    (hroster : site.roster? policyId = some roster) : roster.settledRights? actor = entry := by
  unfold Site.roster? at hroster
  split at hroster
  · cases hroster
  · split at hroster
    · rename_i live hlive
      cases hroster
      exact h.live _ hlive
    · obtain ⟨record, hrecord, rfl⟩ := Option.map_eq_some_iff.1 hroster
      have hentry := h.stored
      rw [Store.entry?, (Option.filter_eq_some_iff.1 hrecord).1] at hentry
      exact Option.some.inj hentry

/-- Another roster may take the place of a live one, if it has the entry. -/
theorem Abreast.insert (h : site.Abreast policyId actor entry)
    (hroster : id = policyId → roster.settledRights? actor = entry) :
    Abreast { site with node := { site.node with rosters := site.node.rosters.insert id roster } }
      policyId actor entry := by
  refine ⟨h.stored, fun found hfound => ?_⟩
  obtain ⟨hid, rfl⟩ | ⟨-, hold⟩ := of_lookup_insert hfound
  · exact hroster hid
  · exact h.live _ hold

theorem Learn.abreast (h : site.Learn after) (habreast : site.Abreast policyId actor entry) :
    after.Abreast policyId actor entry := by
  cases h with
  | fault | policy | group | cache => exact ⟨habreast.stored, habreast.live⟩
  | @roster id record unknown stored own =>
    refine habreast.insert ?_
    rintro rfl
    have hentry := habreast.stored
    rw [Store.entry?, stored] at hentry
    exact Option.some.inj hentry
  | answers live within =>
    refine habreast.insert ?_
    rintro rfl
    rw [within.settledRights?, habreast.live _ live]

theorem Learns.abreast (h : site.Learns after) (habreast : site.Abreast policyId actor entry) :
    after.Abreast policyId actor entry := by
  induction h with
  | refl => exact habreast
  | step first _ ih => exact ih (first.abreast habreast)

/-- No event but storing or removing the policy lets a site fall behind. -/
theorem Event.abreast (h : site.Event licence n after) (hsound : site.Sound)
    (hroom : site.backend.store.HasRoom n) (hstores : ¬ licence.stores policyId)
    (hremoves : ¬ licence.removes policyId) (habreast : site.Abreast policyId actor entry) :
    after.Abreast policyId actor entry := by
  obtain ⟨record, hrecord, hentry⟩ := Option.map_eq_some_iff.1 habreast.stored
  cases h with
  | learn learn => exact learn.abreast habreast
  | policyStored new created =>
    have hkept := (hsound.store.policies.create_keeps hroom.policies created).2 _ _ hrecord
    exact ⟨Option.map_eq_some_iff.2 ⟨record, hkept, hentry⟩, habreast.live⟩
  | @policyUpdated policy current update policies before roster _ _ _ updated _ _ _ _ _ _ allowed =>
    -- it is another policy, so its rows are other rows
    have hne : policy.id ≠ policyId := fun hid => hstores (hid ▸ allowed)
    obtain ⟨-, -, rfl⟩ := PolicyTables.update_eq_ok updated
    refine ⟨Option.map_eq_some_iff.2 ⟨record, ?_, hentry⟩, ?_⟩
    · exact (PolicyTables.rosters_put _ _ _ _).trans ((if_neg hne).trans hrecord)
    · exact (habreast.insert fun hid => absurd hid hne).live
  | @policyDeleted id policies deleted allowed =>
    have hne : id ≠ policyId := fun hid => hremoves (hid ▸ allowed)
    obtain ⟨-, rfl⟩ := PolicyTables.delete_eq_ok deleted
    refine ⟨Option.map_eq_some_iff.2 ⟨record, ?_, hentry⟩, fun found hfound => ?_⟩
    · exact (lookup_erase _ _ _).trans ((if_neg hne).trans hrecord)
    · rw [lookup_erase, if_neg hne] at hfound
      exact habreast.live _ hfound
  | @rosterBackedUp id roster live =>
    refine habreast.insert ?_
    rintro rfl
    rw [← habreast.live _ live]
    exact roster.settledRights?_perform .backUp (by decide) actor
  | @rosterChanged id before roster live _ _ edit =>
    refine ⟨habreast.stored, (habreast.insert ?_).live⟩
    rintro rfl
    rw [← habreast.live _ live]
    obtain rfl | ⟨change, rfl, -⟩ := edit
    · exact before.settledRights?_perform .rollBack (by decide) actor
    · exact before.settledRights?_perform (.change change) (fun heq => by cases heq) actor
  | groupSlippedIn | groupStored | relationDropped | groupDeleted | related | unrelated | loaded
  | linked | regrouped => exact ⟨habreast.stored, habreast.live⟩

/-! ### Storing the policy -/

/-- What is stored is the roster that was found, entry by entry, whatever was queued in it. -/
theorem PersistEnds.hands_over {policy : Policy}
    (h : site.PersistEnds policyId (.ok policy, after)) (hsound : site.Sound) (htidy : site.Tidy) :
    after.backend.store.policies.byId? policyId = some policy ∧
      ∃ roster, site.roster? policyId = some roster ∧
        ∀ actor, after.Abreast policyId actor (roster.registry.rightsOf? actor) := by
  generalize hresult : (Except.ok policy, after) = result at h
  cases h with
  | refused | rolledBack => cases hresult
  | @stored policy _ middle before last _ learns own indexed key object live updated edit =>
    cases hresult
    subst own
    obtain ⟨⟨row, hrow⟩, -, rfl⟩ := PolicyTables.update_eq_ok updated
    obtain ⟨-, hid, -⟩ := (learns.sound hsound).store.policies.policy hrow
    have hfound : middle.roster? policy.id = some before := by rw [roster?_of_live live, if_neg hid]
    obtain ⟨roster, hroster⟩ := (learns.exists_roster?_iff policy.id).1 ⟨before, hfound⟩
    obtain ⟨later, hlater, hwithin⟩ := learns.roster?_within hroster
    cases hlater.symm.trans hfound
    have hregistry : before.registry.Tidy := hwithin.registry ▸ htidy.roster? hroster
    refine ⟨(PolicyTables.policies_put _ _ _ _).trans (if_pos rfl), roster, hroster,
      fun actor => ⟨?_, fun found hlast => ?_⟩⟩
    · -- the record unfolds to the registry that it was made from
      refine Option.map_eq_some_iff.2 ⟨{ before.record with policyId := policy.id },
        (PolicyTables.rosters_put _ _ _ _).trans (if_pos rfl), ?_⟩
      have hunfolded : Registry.ofRecord { before.record with policyId := policy.id } =
          before.registry := Registry.Tidy.ofRecord_eq hregistry
      rw [hunfolded, hwithin.registry]
    · rw [lookup_insert, if_pos rfl] at hlast
      cases hlast
      rw [← hwithin.registry]
      obtain rfl | rfl := edit <;> rfl

/-- So nobody falls behind by storing a policy without a queued change for the actor. -/
theorem PersistEnds.abreast {result : Except AccessError Policy × Site}
    (h : site.PersistEnds policyId result) (hsound : site.Sound) (htidy : site.Tidy)
    (hspared : ∀ policy roster, result.1 = .ok policy → site.roster? policyId = some roster →
      ∀ change ∈ roster.pending, change.actor.normalize ≠ actor.normalize)
    (habreast : site.Abreast policyId actor entry) : result.2.Abreast policyId actor entry := by
  rcases result with ⟨error | policy, after⟩
  · generalize hresult : (Except.error error, after) = result at h
    cases h with
    | refused learns =>
      cases hresult
      exact learns.abreast habreast
    | @rolledBack _ middle roster learns live =>
      cases hresult
      have hmiddle := learns.abreast habreast
      refine ⟨hmiddle.stored, (hmiddle.insert fun _ => ?_).live⟩
      rw [← hmiddle.live _ live]
      exact roster.settledRights?_perform .rollBack (by decide) actor
    | stored => cases hresult
  · -- no pending change is about the actor, so what is handed over is what was stored
    obtain ⟨-, roster, hroster, hhanded⟩ := h.hands_over hsound htidy
    rw [← habreast.roster? hroster,
      ← (hsound.keyed.consistent hroster).rightsOf?_eq_settled (hspared policy roster rfl hroster)]
    exact hhanded actor

/-! ### Requests and steps -/

/-- The request is granted and settles what the actor has: it deletes the policy, or stores it with
a change that was queued for the actor. -/
def Settles (site : Site) (policyId : UInt64) (actor : Actor) (now : Timestamp)
    (request : Request) : Prop :=
  (∃ reply, ((answer now request).perform site).1 = .ok reply) ∧
    (request = .deletePolicy policyId ∨ request.Stores policyId ∧
      ∃ roster, site.roster? policyId = some roster ∧
        ∃ change ∈ roster.pending, change.actor.normalize = actor.normalize)

/-- A request to store a policy ends as the call behind it does. -/
theorem persistEnds_of_stores (hsound : site.Sound) {request : Request}
    (hstores : request.Stores policyId) (now : Timestamp) :
    ∃ result, site.PersistEnds policyId result ∧
      (answer now request).perform site = (result.1.map .policy, result.2) := by
  cases request with
  | updatePolicy policy =>
    obtain rfl : policy.id = policyId := hstores
    exact ⟨_, amendment_ends hsound now (.update policy), perform_bind_pure _ _ _⟩
  | movePolicy id parentId =>
    obtain rfl : id = policyId := hstores
    exact ⟨_, amendment_ends hsound now (.move id parentId), perform_bind_pure _ _ _⟩
  | _ => exact hstores.elim

/-- A request that does not settle what the actor has leaves the site abreast. -/
theorem Abreast.answered (habreast : site.Abreast policyId actor entry) (hsound : site.Sound)
    (hroom : site.backend.store.HasRoom 2) (htidy : site.Tidy) {now : Timestamp} {request : Request}
    (hspared : ¬ site.Settles policyId actor now request) :
    ((answer now request).perform site).2.Abreast policyId actor entry := by
  -- the policy is stored anew, or deleted, or neither
  by_cases hstores : request.Stores policyId
  · obtain ⟨result, hends, hrun⟩ := persistEnds_of_stores hsound hstores now
    unfold Settles at hspared
    rw [hrun] at hspared ⊢
    refine hends.abreast hsound htidy
      (fun policy roster hdone hroster change hmem hsame => ?_) habreast
    exact hspared ⟨⟨.policy policy, by rw [hdone]; rfl⟩,
      .inr ⟨hstores, roster, hroster, change, hmem, hsame⟩⟩
  by_cases hdelete : request = .deletePolicy policyId
  · subst hdelete
    have hreply : (answer now (.deletePolicy policyId)).perform site =
        (((deletePolicy policyId).perform site).1.map fun _ => Reply.done,
          ((deletePolicy policyId).perform site).2) := perform_bind_pure _ _ _
    unfold Settles at hspared
    rw [hreply] at hspared ⊢
    obtain ⟨error, after, hlearns, hrun⟩ | ⟨after, policies, -, -, hrun⟩ :=
      deletePolicy_cases hsound.keyed policyId <;> rw [hrun] at hspared ⊢
    · exact hlearns.abreast habreast
    · exact absurd ⟨⟨.done, rfl⟩, .inl rfl⟩ hspared
  · obtain ⟨n, hn, -, hpasses⟩ := answer_passes hsound hroom now request
    exact hpasses.keeps hsound (hroom.mono hn)
      (fun hevent hsound hroom => hevent.abreast hsound hroom hstores hdelete) habreast

/-- So does work on live rosters, unless the one of the policy is committed past the store. -/
theorem Abreast.stepped (habreast : site.Abreast policyId actor entry) (hsound : site.Sound)
    {step : RosterStep} (hstep : ¬ (id = policyId ∧ step = .commit)) :
    ((rosterStep id step).perform site).2.Abreast policyId actor entry := by
  refine rosterStep_keeps hsound id step
    (fun hevent hsound hroom => hevent.abreast hsound hroom not_false not_false)
    (fun {site roster} _ hlive habreast => habreast.insert ?_) habreast
  rintro rfl
  rw [roster.settledRights?_perform step fun hcommit => hstep ⟨rfl, hcommit⟩]
  exact habreast.live _ hlive

/-! ### Storing a policy with a given roster -/

/-- A step on a live roster takes place there. -/
theorem perform_rosterStep_of_live (hsound : site.Sound) (hid : policyId ≠ 0)
    (hlive : site.node.rosters[policyId]? = some roster) (step : RosterStep) :
    (rosterStep policyId step).perform site = (.ok (roster.perform step).1,
      { site with node := { site.node with
        rosters := site.node.rosters.insert policyId (roster.perform step).2 } }) := by
  have hrun : (rosterOf policyId).perform site = (.ok roster, site) := by
    unfold rosterOf
    rw [if_neg hid]
    dsimp only
    rw [perform_bind, perform_currentNode]
    dsimp only
    rw [hlive]
    rfl
  have hown := (roster.policyId_perform step).trans (hsound.node.roster hlive).1
  unfold rosterStep
  rw [perform_bind, hrun, ← hown]
  rfl

/-- Where the store does not fail, it takes a version of a stored policy that keeps the
designators. -/
theorem fst_persist_of_stored (hsound : site.Sound) (hcalm : site.backend.faults = [])
    (policy : Policy) {current : Policy}
    (hstored : site.backend.store.policies.byId? policy.id = some current)
    (hkey : policy.key = current.key) (hobject : policy.object = current.object) (roster : Roster) :
    ((persist policy roster).perform site).1 = .ok () := by
  have hupdate := hsound.store.policies.update_of_stored hstored hkey hobject roster.update
  unfold persist Backend.updatePolicy
  rw [perform_bind, perform_outcome, perform_ask,
    Backend.run_onPolicies_of_calm .updatePolicy hcalm hupdate]
  rfl

/-- Where the store does not fail, a stored policy can be detached from its parent. -/
theorem succeeds_movePolicy_root (hsound : site.Sound) (hcalm : site.backend.faults = [])
    {policy : Policy} (hstored : site.backend.store.policies.byId? policyId = some policy)
    (hroster : site.roster? policyId = some roster) (now : Timestamp) :
    Succeeds (movePolicy now policyId 0) site := by
  have hkeyed := hsound.keyed
  obtain ⟨-, hid, -⟩ := hsound.store.policies.policy hstored
  have hview : ∃ known, site.view.policy? policyId = some known := by
    show ∃ known, (if policyId = 0 then none else (site.node.policies.policy? policyId).or
      (site.backend.store.policies.byId? policyId)) = some known
    rw [if_neg hid, hstored]
    cases site.node.policies.policy? policyId with
    | none => exact ⟨policy, rfl⟩
    | some known => exact ⟨known, rfl⟩
  obtain ⟨known, hknown⟩ := hview
  unfold movePolicy
  refine (succeeds_policyById hcalm hknown).bind (reads_policyById hkeyed policyId) hkeyed ?_
  rintro current first hlearns hkeyed' ⟨hcurrent, -⟩
  obtain ⟨opened, hopened, -⟩ := hlearns.roster?_within hroster
  have hrest : Succeeds (do
      let roster ← rosterOf policyId
      persist { current with
        flags := current.flags.detached, parentId := 0, updatedAt := now } roster
      editRoster policyId Roster.forgetCalculated
      pure { current with
        flags := current.flags.detached, parentId := 0, updatedAt := now }) first := by
    refine (succeeds_rosterOf (hlearns.still.calm hcalm) hopened).bind
      (reads_rosterOf hkeyed' policyId) hkeyed' ?_
    intro live last hlearns' _ _
    -- the version that the node knows has the designators of the stored one
    have hlearned := hlearns.trans hlearns'
    have hindexed := policy_indexed_of_recalled ((hlearns'.recalled_le hkeyed').policy hcurrent)
    rw [← hlearned.still.store] at hstored
    obtain ⟨hkey, hobject, -⟩ := (hlearned.sound hsound).node.designators hindexed hstored
    obtain ⟨rfl, -⟩ := (hlearned.sound hsound).node.policy hindexed
    exact Succeeds.bind_of_forall ⟨(), fst_persist_of_stored (hlearned.sound hsound)
      (hlearned.still.calm hcalm) { current with
        flags := current.flags.detached, parentId := 0, updatedAt := now } hstored
      hkey.symm hobject.symm live⟩ fun _ _ => ⟨_, rfl⟩
  exact hrest

/-- So the store gets the roster that is found for the policy. -/
theorem entry?_movePolicy_root (hsound : site.Sound) (htidy : site.Tidy)
    (hcalm : site.backend.faults = []) {policy : Policy}
    (hstored : site.backend.store.policies.byId? policyId = some policy)
    (hroster : site.roster? policyId = some roster) (now : Timestamp) (actor : Actor) :
    ((answer now (.movePolicy policyId 0)).perform site).2.backend.store.entry? policyId actor =
      some (roster.registry.rightsOf? actor) := by
  obtain ⟨moved, hmoved⟩ := succeeds_movePolicy_root hsound hcalm hstored hroster now
  have hends : site.PersistEnds policyId ((movePolicy now policyId 0).perform site) :=
    amendment_ends hsound now (.move policyId 0)
  have hreply : (answer now (.movePolicy policyId 0)).perform site =
      (((movePolicy now policyId 0).perform site).1.map .policy,
        ((movePolicy now policyId 0).perform site).2) := perform_bind_pure _ _ _
  rw [hreply]
  rcases hrun : (movePolicy now policyId 0).perform site with ⟨error | moved, last⟩ <;>
    rw [hrun] at hmoved hends
  · cases hmoved
  · obtain ⟨-, found, hfound, hhanded⟩ := hends.hands_over hsound htidy
    cases hfound.symm.trans hroster
    exact (hhanded actor).stored

end Site

namespace Cluster

variable {cluster : Cluster} {policyId : UInt64} {actor : Actor} {entry : Option Rights}
  {number : Nat} {site : Site}

/-! ### Clusters that are abreast of an entry -/

/-- The store has the entry for the actor, and every node is up to date with it. -/
structure Abreast (cluster : Cluster) (policyId : UInt64) (actor : Actor) (entry : Option Rights) :
    Prop where
  stored : cluster.backend.store.entry? policyId actor = some entry
  live {number : Nat} {node : Node} : cluster.nodes[number]? = some node →
    node.UpToDate policyId actor entry

/-- As long as the entry stays, the other nodes need not do anything to keep abreast. -/
theorem Abreast.withSite (h : cluster.Abreast policyId actor entry)
    (hsite : site.Abreast policyId actor entry) :
    (cluster.withSite number site).Abreast policyId actor entry := by
  refine ⟨hsite.stored, fun {other node} hnode => ?_⟩
  obtain ⟨-, rfl⟩ | ⟨-, hother⟩ := nodes_withSite hnode
  · exact hsite.live
  · exact h.live hother

/-- A node that is opened has read no roster yet. -/
theorem Abreast.openNode (h : cluster.Abreast policyId actor entry) (config : Config) :
    (cluster.openNode config).2.Abreast policyId actor entry := by
  have hblank : Site.Abreast ⟨.blank config, cluster.backend⟩ policyId actor entry :=
    ⟨h.stored, Node.upToDate_blank config policyId actor entry⟩
  unfold Cluster.openNode
  obtain ⟨error, last, hlearns, hrun⟩ | ⟨last, hlearns, hrun⟩ :=
    Site.load_cases ⟨.blank config, cluster.backend⟩ <;> rw [hrun]
  · exact ⟨(hlearns.abreast hblank).stored, h.live⟩
  · exact ⟨(hlearns.abreast hblank).stored,
      node_of_push (·.UpToDate policyId actor entry) h.live (hlearns.abreast hblank).live⟩

/-- The move settles what the actor has: a request does, or the roster of the policy is committed
past the store. -/
def Settles (cluster : Cluster) (policyId : UInt64) (actor : Actor) : Move → Prop
  | .answer number now request => ∃ node, cluster.nodes[number]? = some node ∧
      Site.Settles ⟨node, cluster.backend⟩ policyId actor now request
  | .work _ id step => id = policyId ∧ step = .commit
  | _ => False

/-- No move of the run settles what the actor has. -/
def Spares (policyId : UInt64) (actor : Actor) : Cluster → List Move → Prop
  | _, [] => True
  | cluster, move :: moves =>
    ¬ cluster.Settles policyId actor move ∧ Spares policyId actor (cluster.move move) moves

/-- A move that does not settle what the actor has leaves every node abreast. -/
theorem Abreast.move (h : cluster.Abreast policyId actor entry) (hreachable : cluster.Reachable)
    (hroom : cluster.backend.store.HasRoom 2) {move : Move}
    (hspared : ¬ cluster.Settles policyId actor move) :
    (cluster.move move).Abreast policyId actor entry := by
  cases move with
  | answer number now request =>
    refine afterCall_of_forall (·.Abreast policyId actor entry) h fun node hnode => ?_
    have hsite : Site.Abreast ⟨node, cluster.backend⟩ policyId actor entry :=
      ⟨h.stored, h.live hnode⟩
    exact h.withSite (hsite.answered (hreachable.site_sound hnode) hroom (hreachable.tidy hnode)
      fun hsettles => hspared ⟨node, hnode, hsettles⟩)
  | work number id step =>
    refine afterCall_of_forall (·.Abreast policyId actor entry) h fun node hnode => ?_
    have hsite : Site.Abreast ⟨node, cluster.backend⟩ policyId actor entry :=
      ⟨h.stored, h.live hnode⟩
    exact h.withSite (hsite.stepped (hreachable.site_sound hnode) hspared)
  | launch config => exact h.openNode config
  | join config =>
    exact ⟨h.stored, node_of_push (·.UpToDate policyId actor entry) h.live
      (Node.upToDate_blank config policyId actor entry)⟩
  | plan method fault times => exact ⟨h.stored, h.live⟩

/-- Nor does a run of such moves leave anybody behind. -/
theorem Abreast.run (h : cluster.Abreast policyId actor entry) (hreachable : cluster.Reachable)
    {moves : List Move} (hroom : cluster.backend.store.HasRoom (2 * moves.length))
    (hspared : cluster.Spares policyId actor moves) :
    (cluster.run moves).Abreast policyId actor entry := by
  induction moves generalizing cluster with
  | nil => exact h
  | cons move moves ih =>
    obtain ⟨hmove, hmoves⟩ := hspared
    have hroom : cluster.backend.store.HasRoom (2 + 2 * moves.length) :=
      hroom.mono (by rw [List.length_cons]; omega)
    have hfirst := hroom.mono (Nat.le_add_right _ _)
    exact ih (h.move hreachable hfirst hmove) (hreachable.move move (hfirst.mono move.needs_le))
      (hreachable.hasRoom_move hroom move) hmoves

/-! ### Nodes that have fallen behind -/

/-- A node can always store what its live roster had when its changes were settled last, and queue
nothing for that. -/
theorem exists_overwriting (hreachable : cluster.Reachable) (hcalm : cluster.backend.faults = [])
    (hroom : cluster.backend.store.HasRoom 2) {policy : Policy}
    (hstored : cluster.backend.store.policies.byId? policyId = some policy) {node : Node}
    (hnode : cluster.nodes[number]? = some node) {roster : Roster}
    (hlive : node.rosters[policyId]? = some roster) (actor : Actor) :
    ∃ moves : List Move, moves.length = 2 ∧ cluster.Spares policyId actor moves ∧
      (cluster.run moves).backend.store.entry? policyId actor =
        some (roster.settledRights? actor) := by
  have hsound := hreachable.site_sound hnode
  obtain ⟨-, hid, -⟩ := hsound.store.policies.policy hstored
  -- first the roster is rolled back
  obtain ⟨rolled, hrolled⟩ : ∃ rolled : Node, rolled = { node with
      rosters := node.rosters.insert policyId roster.rollBack } := ⟨_, rfl⟩
  have hfirst : cluster.move (.work number policyId .rollBack) =
      cluster.withSite number ⟨rolled, cluster.backend⟩ := by
    show cluster.afterCall number _ = _
    rw [afterCall_of_node hnode, Site.perform_rosterStep_of_live hsound hid hlive, hrolled]
    rfl
  have hreachable' := hreachable.move (.work number policyId .rollBack) (hroom.mono (Nat.zero_le 2))
  rw [hfirst] at hreachable'
  have hnode' : (cluster.withSite number ⟨rolled, cluster.backend⟩).nodes[number]? = some rolled :=
    Array.getElem?_setIfInBounds_self_of_lt (Array.getElem?_eq_some_iff.1 hnode).1
  have hroster : Site.roster? ⟨rolled, cluster.backend⟩ policyId = some roster.rollBack := by
    have hlive' : rolled.rosters[policyId]? = some roster.rollBack := by
      rw [hrolled, lookup_insert, if_pos rfl]
    rw [Site.roster?_of_live hlive', if_neg hid]
  refine ⟨[.work number policyId .rollBack, .answer number default (.movePolicy policyId 0)], rfl,
    ⟨?_, ?_, trivial⟩, ?_⟩
  · rintro ⟨-, hcommit⟩
    cases hcommit
  · -- then the policy is stored with nothing queued
    rw [hfirst]
    rintro ⟨found, hfound, -, hdelete | ⟨-, opened, hopened, change, hmem, -⟩⟩
    · cases hdelete
    · cases hfound.symm.trans hnode'
      cases hopened.symm.trans hroster
      rw [Roster.pending_rollBack] at hmem
      cases hmem
  · have hrun : cluster.run [.work number policyId .rollBack,
        .answer number default (.movePolicy policyId 0)] =
          afterCall number (Site.answer default (.movePolicy policyId 0))
            (cluster.withSite number ⟨rolled, cluster.backend⟩) := by
      rw [← hfirst]
      rfl
    rw [hrun, afterCall_of_node hnode']
    have hsound' : Site.Sound ⟨rolled, cluster.backend⟩ := hreachable'.site_sound hnode'
    have htidy' : Site.Tidy ⟨rolled, cluster.backend⟩ := hreachable'.tidy hnode'
    exact Site.entry?_movePolicy_root hsound' htidy' hcalm hstored hroster default actor

/-- What a node stores with a policy stays as stored for an actor, until a change that was queued
for the actor is settled, exactly if no other node holds a live roster of the policy that had
another entry for the actor when its changes were settled last. -/
theorem persisted_stays_iff {after : Cluster} (hreachable : cluster.Reachable)
    (hcalm : cluster.backend.faults = []) (hroom : cluster.backend.store.HasRoom 6)
    {now : Timestamp} {request : Request} (hstores : request.Stores policyId) {reply : Reply}
    (hdone : cluster.onNode? number (Site.answer now request) = some (.ok reply, after))
    (actor : Actor) :
    ∃ node roster, cluster.nodes[number]? = some node ∧
      Site.roster? ⟨node, cluster.backend⟩ policyId = some roster ∧
      after.backend.store.entry? policyId actor = some (roster.registry.rightsOf? actor) ∧
      ((∀ moves, after.backend.store.HasRoom (2 * moves.length) →
        after.Spares policyId actor moves →
          (after.run moves).backend.store.entry? policyId actor =
            after.backend.store.entry? policyId actor) ↔
        ∀ other node, other ≠ number → after.nodes[other]? = some node →
          node.UpToDate policyId actor (roster.registry.rightsOf? actor)) := by
  have hreachable' : after.Reachable := .answered hreachable (hroom.mono (by omega)) hdone
  obtain ⟨node, hnode, hreply, rfl⟩ := onNode?_eq_some_iff.1 hdone
  have hsound := hreachable.site_sound hnode
  obtain ⟨n, hn, -, hpasses⟩ := Site.answer_passes hsound (hroom.mono (by omega)) now request
  have hcalm' := hpasses.calm hcalm
  have hroom' : Store.HasRoom (Site.backend _).store 4 := hpasses.hasRoom (hroom.mono (by omega))
  obtain ⟨⟨error | policy, last⟩, hends, hrun⟩ := Site.persistEnds_of_stores hsound hstores now <;>
    rw [hrun] at hreply hreachable' hcalm' hroom' ⊢
  · cases hreply
  obtain ⟨hstored, roster, hroster, hhanded⟩ := hends.hands_over hsound (hreachable.tidy hnode)
  have hentry : (cluster.withSite number last).backend.store.entry? policyId actor =
      some (roster.registry.rightsOf? actor) := (hhanded actor).stored
  refine ⟨node, roster, hnode, hroster, hentry, fun hstays other found hne hfound held hlive => ?_,
    fun hupToDate moves hmoves hspared => ?_⟩
  · -- whoever is behind could store what it has
    obtain ⟨moves, htwo, hspared, hlost⟩ := exists_overwriting hreachable' hcalm'
      (hroom'.mono (by omega)) hstored hfound hlive actor
    have hkept := hstays moves (hroom'.mono (by omega)) hspared
    exact Option.some.inj (hlost.symm.trans (hkept.trans hentry))
  · have habreast : (cluster.withSite number last).Abreast policyId actor
        (roster.registry.rightsOf? actor) := by
      refine ⟨hentry, fun {other found} hfound => ?_⟩
      obtain ⟨-, rfl⟩ | ⟨hne, -⟩ := nodes_withSite hfound
      · exact (hhanded actor).live
      · exact hupToDate other found hne hfound
    exact (habreast.run hreachable' hmoves hspared).stored.trans hentry.symm

/-- On the first of two nodes the owner of a policy has granted rights.  Only that node has read the
roster. -/
def granted : Cluster :=
  run {} [.launch {}, .launch {},
    .answer 0 default (.createPolicy (some "doc") 1 0 none .empty),
    .answer 0 default (.grantAccess 1 (.user 1) (.user 5) .view)]

/-- The second node has read the roster before the grant. -/
def preread : Cluster :=
  run {} [.launch {}, .launch {},
    .answer 0 default (.createPolicy (some "doc") 1 0 none .empty),
    .answer 1 default (.rosterOf 1),
    .answer 0 default (.grantAccess 1 (.user 1) (.user 5) .view)]

/-- The policy is stored on one of the nodes. -/
def persistOn (number : Nat) (cluster : Cluster) : Cluster :=
  cluster.afterCall number (Site.answer default (.movePolicy 1 0))

theorem reachable_granted : granted.Reachable :=
  Reachable.empty.run ⟨by decide +kernel, by decide +kernel⟩

theorem reachable_preread : preread.Reachable :=
  Reachable.empty.run ⟨by decide +kernel, by decide +kernel⟩

/-- What the first node has granted stays, whatever the second one does, as long as it queues
nothing for the same user. -/
theorem persisted_stays_granted :
    (granted.persistOn 0).backend.store.entry? 1 (.user 5) = some (some .view) ∧
      ∀ moves, (granted.persistOn 0).backend.store.HasRoom (2 * moves.length) →
        (granted.persistOn 0).Spares 1 (.user 5) moves →
          ((granted.persistOn 0).run moves).backend.store.entry? 1 (.user 5) =
            some (some .view) := by
  have hnode := nodes_siteOf (show 0 < granted.nodes.size by decide +kernel)
  obtain ⟨reply, hdone⟩ : ∃ reply, granted.onNode? 0 (Site.answer default (.movePolicy 1 0)) =
      some (.ok reply, granted.persistOn 0) := onNode?_of_isOk hnode (by decide +kernel)
  have hentry : (granted.persistOn 0).backend.store.entry? 1 (.user 5) = some (some .view) := by
    decide +kernel
  have hstores : Request.Stores (.movePolicy 1 0) 1 := rfl
  obtain ⟨-, roster, -, -, -, hiff⟩ := persisted_stays_iff reachable_granted (by decide +kernel)
    ⟨by decide +kernel, by decide +kernel⟩ hstores hdone (.user 5)
  refine ⟨hentry, fun moves hroom hspared => (hiff.2 ?_ moves hroom hspared).trans hentry⟩
  -- the second node has no live roster
  intro other node hne hother held hlive
  have hsize : (granted.persistOn 0).nodes.size = 2 := by decide +kernel
  have hunread : (((granted.persistOn 0).siteOf 1).node.rosters[(1 : UInt64)]?).isNone = true := by
    decide +kernel
  obtain ⟨hlt, -⟩ := Array.getElem?_eq_some_iff.1 hother
  obtain rfl : other = 1 := by omega
  cases hother.symm.trans (nodes_siteOf hlt)
  rw [hlive] at hunread
  cases hunread

/-- A node that has not queued anything can take back what was granted on another one. -/
theorem not_forall_persisted_stays :
    ¬ ∀ (cluster after : Cluster), cluster.Reachable → cluster.backend.faults = [] →
      ∀ (number : Nat) (now : Timestamp) (request : Request) (policyId : UInt64) (reply : Reply),
      request.Stores policyId →
      cluster.onNode? number (Site.answer now request) = some (.ok reply, after) →
      ∀ (actor : Actor) (moves : List Move), after.backend.store.HasRoom (2 * moves.length) →
      after.Spares policyId actor moves →
        (after.run moves).backend.store.entry? policyId actor =
          after.backend.store.entry? policyId actor := by
  intro h
  have hnode := nodes_siteOf (show 0 < preread.nodes.size by decide +kernel)
  have hnode' := nodes_siteOf (show 1 < (preread.persistOn 0).nodes.size by decide +kernel)
  have hclean : (((preread.persistOn 0).siteOf 1).roster? 1).map Roster.pending = some [] := by
    decide +kernel
  obtain ⟨reply, hdone⟩ : ∃ reply, preread.onNode? 0 (Site.answer default (.movePolicy 1 0)) =
      some (.ok reply, preread.persistOn 0) := onNode?_of_isOk hnode (by decide +kernel)
  have hkept := h preread (preread.persistOn 0) reachable_preread (by decide +kernel) 0 default
    (.movePolicy 1 0) 1 reply rfl hdone (.user 5) [.answer 1 default (.movePolicy 1 0)]
    ⟨by decide +kernel, by decide +kernel⟩ ⟨?_, trivial⟩
  · exact absurd hkept (by decide +kernel)
  · rintro ⟨node, hfound, -, hdelete | ⟨-, roster, hroster, change, hmem, -⟩⟩
    · cases hdelete
    · cases hfound.symm.trans hnode'
      obtain ⟨opened, hopened, hpending⟩ := Option.map_eq_some_iff.1 hclean
      cases hopened.symm.trans hroster
      rw [hpending] at hmem
      cases hmem

end Cluster

end AccessRights
