/-
AccessRights/Proofs/Amending.lean

Changing a stored policy, or leaving it alone.

A policy is changed in two ways: it is updated, or hung below another parent.
Either way the node first reads and checks (`Amendment.ready`) and then stores
the policy together with its live roster.  Until then it only reads through:
what it did not hold it takes in from the store as it is there, and nothing else
happens (`Call.Fetches`).  After that the call is decided by the store.

So a change is made as a whole or not at all.  If it is refused, the store and
the index are as before, and the live roster is untouched or, if it was the store
that failed, rolled back.  If it is made, the store, the index and the live roster
agree on it.

Main result: `Reachable.amendment_whole_or_nothing`.
-/
import AccessRights.Proofs.Lifetime

namespace AccessRights

/-! ### Reading through -/

namespace Site

variable {site after last : Site} {id : UInt64}

/-- The indexed policy of the number is what it was, or the stored one where none was indexed. -/
def SamePolicy (site after : Site) (id : UInt64) : Prop :=
  after.node.policies.policy? id = site.node.policies.policy? id ∨
    site.node.policies.policy? id = none ∧
      after.node.policies.policy? id = site.backend.store.policies.byId? id

/-- The live roster of the policy is what it was, or made from the stored record where none was
live. -/
def SameRoster (site after : Site) (id : UInt64) : Prop :=
  after.node.rosters[id]? = site.node.rosters[id]? ∨
    site.node.rosters[id]? = none ∧ after.node.rosters[id]? = site.roster? id

/-- What the node did not hold it has read from the store, and nothing else has happened to
policies and rosters. -/
structure ReadThrough (site after : Site) : Prop where
  store : after.backend.store = site.backend.store
  policy (id : UInt64) : site.SamePolicy after id
  roster (id : UInt64) : site.SameRoster after id

/-- Where the store and the memory of policies and rosters stand, nothing is read through. -/
theorem readThrough_of_eq (hstore : after.backend.store = site.backend.store)
    (hpolicies : after.node.policies = site.node.policies)
    (hrosters : after.node.rosters = site.node.rosters) : site.ReadThrough after where
  store := hstore
  policy _ := .inl (by rw [hpolicies])
  roster _ := .inl (by rw [hrosters])

theorem ReadThrough.refl (site : Site) : site.ReadThrough site :=
  readThrough_of_eq rfl rfl rfl

/-- A roster that is live nowhere is made from the record, which is the same for both. -/
theorem roster?_eq_of_store (hstore : after.backend.store = site.backend.store)
    (hlive : after.node.rosters[id]? = site.node.rosters[id]?) :
    after.roster? id = site.roster? id := by
  unfold roster?
  rw [hstore, hlive]

theorem ReadThrough.trans (h : site.ReadThrough after) (h' : after.ReadThrough last) :
    site.ReadThrough last where
  store := h'.store.trans h.store
  -- what was unknown is read in one of the two stretches, and then known in the other
  policy id := by
    obtain hkept | ⟨hunknown, hread⟩ := h'.policy id
    · obtain hfirst | ⟨hnone, hfirst⟩ := h.policy id
      · exact .inl (hkept.trans hfirst)
      · exact .inr ⟨hnone, hkept.trans hfirst⟩
    · rw [h.store] at hread
      obtain hfirst | ⟨hnone, -⟩ := h.policy id
      · exact .inr ⟨hfirst.symm.trans hunknown, hread⟩
      · exact .inr ⟨hnone, hread⟩
  roster id := by
    obtain hkept | ⟨hunknown, hread⟩ := h'.roster id
    · obtain hfirst | ⟨hnone, hfirst⟩ := h.roster id
      · exact .inl (hkept.trans hfirst)
      · exact .inr ⟨hnone, hkept.trans hfirst⟩
    · have hnone : site.node.rosters[id]? = none := by
        obtain hfirst | ⟨hnone, -⟩ := h.roster id
        · exact hfirst.symm.trans hunknown
        · exact hnone
      rw [roster?_eq_of_store h.store (hunknown.trans hnone.symm)] at hread
      exact .inr ⟨hnone, hread⟩

/-- The roster that is live after reading through is the one that was found before. -/
theorem ReadThrough.found (h : site.ReadThrough after) (hid : id ≠ 0) {roster : Roster}
    (hlive : after.node.rosters[id]? = some roster) : site.roster? id = some roster := by
  obtain hkept | ⟨-, hread⟩ := h.roster id
  · rw [roster?_of_live (hkept.symm.trans hlive), if_neg hid]
  · exact hread.symm.trans hlive

end Site

namespace Call

variable {α β : Type} {site : Site}

/-- At this site the call reads through and does nothing else, and what it gives satisfies `post`
afterwards. -/
structure Fetches (call : Call α) (site : Site) (post : α → Site → Prop) : Prop where
  reads : call.Reads site post
  through : site.ReadThrough (call.perform site).2

theorem Fetches.mono {call : Call α} {post post' : α → Site → Prop} (h : call.Fetches site post)
    (himp : ∀ value after, post value after → post' value after) : call.Fetches site post' :=
  ⟨h.reads.mono fun value after _ => himp value after, h.through⟩

theorem fetches_pure {value : α} {post : α → Site → Prop} (h : post value site) :
    (pure value : Call α).Fetches site post :=
  ⟨reads_pure h, .refl site⟩

theorem fetches_throw (error : AccessError) (post : α → Site → Prop) :
    (throw error : Call α).Fetches site post :=
  ⟨reads_throw error post, .refl site⟩

theorem fetches_throw_bind (error : AccessError) (next : α → Call β) {post : β → Site → Prop} :
    ((throw error : Call α) >>= next).Fetches site post :=
  ⟨reads_throw_bind error next, .refl site⟩

theorem fetches_liftExcept (result : Except AccessError α) :
    (liftExcept result : Call α).Fetches site fun value after => result = .ok value ∧ after = site := by
  refine ⟨reads_liftExcept result, ?_⟩
  rw [perform_liftExcept]
  exact .refl site

theorem Fetches.bind {call : Call α} {next : α → Call β} {mid : α → Site → Prop}
    {post : β → Site → Prop} (h : call.Fetches site mid) (hkeyed : site.Keyed)
    (hnext : ∀ value after, site.Learns after → after.Keyed → mid value after →
      (next value).Fetches after post) : (call >>= next).Fetches site post := by
  refine ⟨h.reads.bind hkeyed fun value after hlearns hkeyed' hmid =>
    (hnext value after hlearns hkeyed' hmid).reads, ?_⟩
  rw [perform_bind]
  have hthrough := h.through
  obtain ⟨error, after, -, hrun⟩ | ⟨value, after, hlearns, hmid, hrun⟩ := h.reads.cases <;>
    rw [hrun] at hthrough ⊢
  · exact hthrough
  · exact hthrough.trans (hnext value after hlearns (hlearns.keyed hkeyed) hmid).through

theorem fetches_ask {request : StoreCall α} {backed : Store → α → Prop} {found : Store → α}
    (h : Backend.Looks request backed found) (wrap : StoreError → AccessError) (site : Site) :
    (ask wrap request).Fetches site fun value after =>
      backed site.backend.store value ∧ after.node = site.node := by
  refine ⟨reads_ask h wrap site, ?_⟩
  rw [perform_ask]
  exact Site.readThrough_of_eq (h.store _) rfl rfl

theorem fetches_currentNode {next : Node → Call β} {post : β → Site → Prop}
    (h : (next site.node).Fetches site post) : (Site.currentNode >>= next).Fetches site post :=
  ⟨reads_currentNode h.reads, h.through⟩

end Call

namespace Site

open Call

variable {site : Site}

/-! ### What is read through -/

/-- Taking in a policy that is stored, where none was indexed, is reading through. -/
theorem fetches_insert (hkeyed : site.Keyed) {id : UInt64} {policy : Policy}
    (hunknown : site.node.policies.policy? id = none)
    (hstored : site.backend.store.policies.byId? id = some policy) :
    (editPolicies (·.insert policy)).Fetches site fun _ _ => True := by
  refine ⟨(reads_editNode (.single (.policy hunknown hstored))).mono fun _ _ _ _ => trivial,
    ⟨rfl, fun other => ?_, fun _ => .inl rfl⟩⟩
  show PolicyIndex.policy? (site.node.policies.insert policy) other = _ ∨ _ ∧
    PolicyIndex.policy? (site.node.policies.insert policy) other = _
  rw [PolicyIndex.policy?_insert, hkeyed.policy hstored]
  split
  · rename_i heq
    rw [← heq]
    exact .inr ⟨hunknown, hstored.symm⟩
  · exact .inl rfl

/-- Bringing a stored roster to life, where none was live, is reading through. -/
theorem fetches_putRoster {record : RosterRecord} (hid : record.policyId ≠ 0)
    (hunknown : site.node.rosters[record.policyId]? = none)
    (hstored : site.backend.store.policies.roster? record.policyId = some record) :
    (putRoster (.ofRecord record)).Fetches site fun _ _ => True := by
  refine ⟨(reads_editNode (.single (.roster hunknown hstored rfl))).mono fun _ _ _ _ => trivial,
    ⟨rfl, fun _ => .inl rfl, fun other => ?_⟩⟩
  show (site.node.rosters.insert record.policyId (.ofRecord record))[other]? = _ ∨ _ ∧
    (site.node.rosters.insert record.policyId (.ofRecord record))[other]? = _
  rw [lookup_insert]
  split
  · rename_i heq
    rw [← heq, roster?_of_stored hunknown hstored rfl, if_neg hid]
    exact .inr ⟨hunknown, rfl⟩
  · exact .inl rfl

/-- A policy that is not known yet is taken in as it is stored. -/
theorem fetches_policyById (hkeyed : site.Keyed) (id : UInt64) :
    (policyById id).Fetches site fun _ _ => True := by
  unfold policyById
  split
  · exact fetches_throw _ _
  unfold readPolicy
  apply fetches_currentNode
  dsimp only
  cases hknown : site.node.policies.policy? id with
  | some policy => exact fetches_pure trivial
  | none =>
    have hlooks : Backend.Looks (Backend.policyById id) _ _ :=
      Backend.looks_find .policyById fun store => store.policies.byId? id
    apply (fetches_ask hlooks _ site).bind hkeyed
    rintro found after hlearns hkeyed' ⟨hbacked, hnode⟩
    cases found with
    | none => exact fetches_throw _ _
    | some policy =>
      -- taken in as it is stored, and it was not known before
      have hstored : after.backend.store.policies.byId? id = some policy := by
        rw [hlearns.still.store]
        exact hbacked policy rfl
      have hunknown : after.node.policies.policy? id = none := by rw [hnode, hknown]
      exact (fetches_insert hkeyed' hunknown hstored).bind hkeyed' fun _ _ _ _ _ =>
        fetches_pure trivial

/-- A roster that is not live yet is made from the record that is stored. -/
theorem fetches_rosterOf (hkeyed : site.Keyed) (policyId : UInt64) :
    (rosterOf policyId).Fetches site fun _ _ => True := by
  unfold rosterOf
  split
  · exact fetches_throw _ _
  rename_i hid
  apply fetches_currentNode
  cases hlive : site.node.rosters[policyId]? with
  | some roster => exact fetches_pure trivial
  | none =>
    apply (fetches_ask (Backend.looks_rosterOfPolicy policyId) _ site).bind hkeyed
    rintro found after hlearns hkeyed' ⟨hbacked, hnode⟩
    cases found with
    | none => exact fetches_throw _ _
    | some record =>
      dsimp only
      split
      · -- a record of another policy is refused
        exact fetches_throw_bind _ _
      rename_i hown
      obtain rfl : record.policyId = policyId := Classical.not_not.1 hown
      have hstored : after.backend.store.policies.roster? record.policyId = some record := by
        rw [hlearns.still.store]
        exact hbacked record rfl rfl
      have hunknown : after.node.rosters[record.policyId]? = none := by rw [hnode, hlive]
      exact (fetches_putRoster hid hunknown hstored).bind hkeyed' fun _ _ _ _ _ =>
        fetches_pure trivial

end Site

namespace Call

variable {α : Type} {site : Site}

/-! ### Composed calls -/

/-- Parts of calls that do nothing to policies and rosters but read them through. -/
def Fetching (α : Type) (call : Call α) (site : Site) : Prop :=
  site.Keyed → call.Fetches site fun _ _ => True

/-- Calls whose parts read through read through. -/
theorem Composed.fetches {call : Call α} (h : Composed Fetching call site) (hkeyed : site.Keyed) :
    call.Fetches site fun _ _ => True := by
  induction h with
  | part whole => exact whole hkeyed
  | value => exact fetches_pure trivial
  | refusal error => exact fetches_throw error _
  | lifted result => exact (fetches_liftExcept result).mono fun _ _ _ => trivial
  | @bind _ _ call next site _ _ ih ihnext =>
    have hfirst : call.Fetches site fun value after => call.perform site = (.ok value, after) :=
      ⟨⟨(ih hkeyed).reads.learns, fun value hvalue => Prod.ext hvalue rfl⟩, (ih hkeyed).through⟩
    exact hfirst.bind hkeyed fun value after _ hkeyed' hrun => ihnext value after hrun hkeyed'
  | outcome _ ih => exact ⟨(ih hkeyed).reads.outcome.mono fun _ _ _ _ => trivial, (ih hkeyed).through⟩
  | look _ _ ih => exact fetches_currentNode (ih hkeyed)

end Call

namespace Amendment

open Site Call

variable {site : Site}

/-- Before it stores anything an amendment reads through. -/
theorem through_ready (hkeyed : site.Keyed) (now : Timestamp) (amendment : Amendment) :
    site.ReadThrough ((amendment.ready now).perform site).2 := by
  have hfind (wrap : StoreError → AccessError) (method : StoreMethod)
      (look : Store → Option Policy) (site : Site) :
      Fetching _ (ask wrap (Backend.find method look)) site :=
    fun _ => (fetches_ask (Backend.looks_find method look) wrap site).mono fun _ _ _ => trivial
  have hpolicy (id : UInt64) (site : Site) : Composed Fetching (policyById id) site :=
    .part fun hkeyed => fetches_policyById hkeyed id
  have hroster (policyId : UInt64) (site : Site) : Composed Fetching (rosterOf policyId) site :=
    .part fun hkeyed => fetches_rosterOf hkeyed policyId
  exact ((composed_ready hfind hpolicy hroster now amendment site).fetches hkeyed).through

end Amendment

/-! ### As a whole or not at all -/

/-- The roster is the other one rolled back: nothing is pending, no backup is held, and the rights are
those that the other had when its changes were settled last, or when it came to life, whatever steps
it has taken since it did. -/
structure Roster.RolledBack (roster rolled : Roster) : Prop where
  pending : rolled.pending = []
  backup : rolled.backup = none
  lived : roster.Lived
  registry {record : RosterRecord} {steps : List RosterStep} : roster = (ofRecord record).run steps →
    rolled.registry = ((ofRecord record).run (RosterStep.settled steps)).registry

theorem Roster.Lived.rolledBack {roster : Roster} (h : roster.Lived) :
    roster.RolledBack roster.rollBack where
  pending := roster.pending_rollBack
  backup := roster.backup_rollBack
  lived := h
  registry hsteps := by
    rw [hsteps]
    exact (since_run rfl rfl (consistent_ofRecord _) _).registry_rollBack

/-- A call that gives back a policy has changed it: the store and the index have it like that, and
the stored record is the one of the live roster, on which nothing is pending. -/
structure Site.Made (policyId : UInt64) (policy : Policy) (after : Site) : Prop where
  stored : after.backend.store.policies.byId? policyId = some policy
  indexed : after.node.policies.policy? policyId = some policy
  live : ∃ roster, after.node.rosters[policyId]? = some roster ∧
    after.backend.store.policies.roster? policyId = some roster.record ∧
      roster.pending = [] ∧ roster.backup = none

namespace Amendment

open Site Call

variable {site : Site}

/-- A refused amendment has not changed the store, and what the node holds it has read from there or
held before.  Only if it was the store that refused, the live roster of the policy has been rolled
back. -/
structure Refused (now : Timestamp) (amendment : Amendment) (site : Site) (error : AccessError)
    (after : Site) : Prop where
  store : after.backend.store = site.backend.store
  policy (id : UInt64) : site.SamePolicy after id
  others (id : UInt64) : id ≠ amendment.policyId → site.SameRoster after id
  own : ((amendment.ready now).perform site).1 = .error error ∧
      site.SameRoster after amendment.policyId ∨
    (∃ failure, error = .store ("policy " ++ toString amendment.policyId) failure) ∧
      (∃ amended, ((amendment.ready now).perform site).1 = .ok amended) ∧
        ∃ roster rolled, site.roster? amendment.policyId = some roster ∧
          after.node.rosters[amendment.policyId]? = some rolled ∧ roster.RolledBack rolled

/-- The only refusal that storing ends with is that of the store. -/
theorem error_of_persist {policy : Policy} {roster : Roster} {error : AccessError}
    (h : ((persist policy roster).perform site).1 = .error error) :
    ∃ failure, error = .store ("policy " ++ toString policy.id) failure := by
  unfold persist at h
  rw [perform_bind, perform_outcome, perform_ask] at h
  dsimp only at h
  rcases hwritten : ((Backend.updatePolicy policy roster.update).run.run site.backend).1 with
    failure | _ <;> rw [hwritten] at h <;> cases h
  exact ⟨failure, rfl⟩

/-- Either the store fails and the roster is rolled back, or both are stored. -/
theorem store_cases {policyId : UInt64} {amended : Amended} (hpolicy : amended.policy.id = policyId)
    (hroster : amended.roster.policyId = policyId) (site : Site) :
    ∃ faults : FaultPlan,
      (∃ failure, (store policyId amended).perform site =
        (.error (.store ("policy " ++ toString policyId) failure),
          { node := { site.node with
              rosters := site.node.rosters.insert policyId amended.roster.rollBack
              changes := site.node.changes + 1 }
            backend := { site.backend with faults } })) ∨
      ∃ roster policies,
        (roster = amended.roster.commit ∨ roster = amended.roster.commit.forgetCalculated) ∧
          PolicyTables.update amended.policy amended.roster.update site.backend.store.policies =
            .ok ((), policies) ∧
          (store policyId amended).perform site = (.ok amended.policy,
            { node := { site.node with
                policies := site.node.policies.insert amended.policy
                rosters := site.node.rosters.insert policyId roster
                changes := site.node.changes + 1 }
              backend := ⟨{ site.backend.store with policies }, faults⟩ }) := by
  obtain ⟨faults, -, ⟨error, hrun⟩ | ⟨policies, hupdate, hrun⟩⟩ :=
    persist_cases amended.policy amended.roster site
  all_goals
    rw [hroster] at hrun
    refine ⟨faults, ?_⟩
    unfold store
    rw [perform_bind]
  -- rolled back where the store has failed, and committed where it has not
  · obtain ⟨failure, rfl⟩ := error_of_persist (congrArg Prod.fst hrun)
    rw [hrun, hpolicy]
    exact .inl ⟨failure, rfl⟩
  · rw [hrun]
    dsimp only
    split
    · refine .inr ⟨amended.roster.commit.forgetCalculated, policies, .inr rfl, hupdate, ?_⟩
      rw [← Table.modify_insert site.node.rosters policyId amended.roster.commit]
      rfl
    · exact .inr ⟨amended.roster.commit, policies, .inl rfl, hupdate, rfl⟩

/-- Either the call ends before it stores anything, or it stores the live roster of the policy. -/
theorem call_cases (hsound : site.Sound) (now : Timestamp) (amendment : Amendment) :
    (∃ error after, (amendment.ready now).perform site = (.error error, after) ∧
      site.ReadThrough after ∧ (amendment.call now).perform site = (.error error, after)) ∨
    ∃ amended middle, (amendment.ready now).perform site = (.ok amended, middle) ∧
      site.ReadThrough middle ∧ amended.policy.id = amendment.policyId ∧
        amended.roster.policyId = amendment.policyId ∧ amendment.policyId ≠ 0 ∧
          middle.node.rosters[amendment.policyId]? = some amended.roster ∧
            (amendment.call now).perform site = (store amendment.policyId amended).perform middle := by
  have hthrough := through_ready hsound.keyed now amendment
  rw [call_eq, perform_bind]
  obtain ⟨error, middle, -, hrun⟩ | ⟨amended, middle, hlearns, ⟨hown, -, hid, hlive⟩, hrun⟩ :=
    (reads_ready hsound now amendment).cases <;> rw [hrun] at hthrough ⊢
  · exact .inl ⟨error, middle, rfl, hthrough, rfl⟩
  · have hroster := (hlearns.sound hsound).keyed.roster hlive
    exact .inr ⟨amended, middle, rfl, hthrough, hown, hroster.1, hid, hlive, rfl⟩

/-- A refused amendment leaves no trace but for what was pending. -/
theorem refused_of_error (hsound : site.Sound) (hlived : site.node.Lived) {now : Timestamp}
    {amendment : Amendment} {error : AccessError} {after : Site}
    (hdone : (amendment.call now).perform site = (.error error, after)) :
    amendment.Refused now site error after := by
  obtain ⟨error', after', hready, hthrough, hcall⟩ |
    ⟨amended, middle, hready, hthrough, hpolicy, hroster, hid, hlive, hcall⟩ :=
      call_cases hsound now amendment <;> rw [hcall] at hdone
  · cases hdone
    exact ⟨hthrough.store, hthrough.policy, fun id _ => hthrough.roster id,
      .inl ⟨congrArg Prod.fst hready, hthrough.roster _⟩⟩
  · obtain ⟨faults, ⟨failure, hstore⟩ | ⟨roster, policies, -, -, hstore⟩⟩ :=
      store_cases hpolicy hroster middle <;> rw [hstore] at hdone <;> cases hdone
    have hfound := hthrough.found hid hlive
    refine ⟨hthrough.store, hthrough.policy, fun id hother => ?_, .inr ⟨⟨failure, rfl⟩, ?_, ?_⟩⟩
    · have hkept := hthrough.roster id
      unfold SameRoster at hkept ⊢
      rwa [lookup_insert, if_neg hother.symm]
    · exact ⟨amended, congrArg Prod.fst hready⟩
    · exact ⟨amended.roster, amended.roster.rollBack, hfound, Std.ExtTreeMap.getElem?_insert_self,
        (lived_of_roster? hlived hfound).rolledBack⟩

/-- An amendment that is not refused is made as a whole. -/
theorem made_of_ok (hsound : site.Sound) {now : Timestamp} {amendment : Amendment} {policy : Policy}
    {after : Site} (hdone : (amendment.call now).perform site = (.ok policy, after)) :
    Site.Made amendment.policyId policy after := by
  obtain ⟨error', after', -, -, hcall⟩ | ⟨amended, middle, -, -, hpolicy, hroster, -, -, hcall⟩ :=
    call_cases hsound now amendment <;> rw [hcall] at hdone
  · cases hdone
  obtain ⟨faults, ⟨failure, hstore⟩ | ⟨roster, policies, hedit, hupdate, hstore⟩⟩ :=
    store_cases hpolicy hroster middle <;> rw [hstore] at hdone <;> cases hdone
  obtain ⟨-, -, rfl⟩ := PolicyTables.update_eq_ok hupdate
  -- the record is stored under the number of the policy, which is that of the roster
  have hrecord : (⟨amended.policy.id, amended.roster.everyone, amended.roster.cells⟩ : RosterRecord) =
      amended.roster.record := by
    rw [hpolicy, ← hroster]
    rfl
  have hedited : roster.record = amended.roster.record ∧
      roster.pending = [] ∧ roster.backup = none := by
    obtain rfl | rfl := hedit <;> exact ⟨rfl, rfl, rfl⟩
  refine ⟨?_, ?_, roster, Std.ExtTreeMap.getElem?_insert_self, ?_, hedited.2⟩
  · exact (PolicyTables.policies_put ..).trans (if_pos hpolicy)
  · exact (PolicyIndex.policy?_insert ..).trans (if_pos hpolicy)
  · rw [hedited.1, ← hrecord]
    exact (PolicyTables.rosters_put ..).trans (if_pos hpolicy)

end Amendment

namespace Cluster

variable {cluster : Cluster} {number : Nat} {node : Node}

/-- At every node of a reachable cluster, whatever faults are planned, a change to a stored policy is
made as a whole or refused without a trace but for what was pending. -/
theorem Reachable.amendment_whole_or_nothing (h : cluster.Reachable)
    (hnode : cluster.nodes[number]? = some node) (now : Timestamp) (amendment : Amendment) :
    (∀ error after, (amendment.call now).perform ⟨node, cluster.backend⟩ = (.error error, after) →
      amendment.Refused now ⟨node, cluster.backend⟩ error after) ∧
    ∀ policy after, (amendment.call now).perform ⟨node, cluster.backend⟩ = (.ok policy, after) →
      Site.Made amendment.policyId policy after :=
  ⟨fun _ _ hdone => Amendment.refused_of_error (h.site_sound hnode) (h.lived hnode) hdone,
    fun _ _ hdone => Amendment.made_of_ok (h.site_sound hnode) hdone⟩

/-! ### A store that fails -/

/-- A grant waits to be stored, and the store will fail to do so. -/
def jammed : Cluster :=
  draft.schedule .updatePolicy (.failure (.backend "disk full")) 1

theorem ready_jammed :
    (((Amendment.move 1 0).ready default).perform (jammed.siteOf 0)).1.isOk = true ∧
      (((Amendment.move 1 0).call default).perform (jammed.siteOf 0)).1.isOk = false ∧
        ((jammed.siteOf 0).roster? 1).map Roster.pending = some [⟨.set, .user 5, .view⟩] := by
  decide +kernel

/-- The grant that was pending is gone after the failure, with its backup, and the store is as it
was. -/
theorem amendment_whole_or_nothing_jammed : ∃ error after roster rolled,
    ((Amendment.move 1 0).call default).perform (jammed.siteOf 0) = (.error error, after) ∧
      after.backend.store = jammed.backend.store ∧ (jammed.siteOf 0).roster? 1 = some roster ∧
        roster.pending = [⟨.set, .user 5, .view⟩] ∧ after.node.rosters[(1 : UInt64)]? = some rolled ∧
          rolled.pending = [] ∧ rolled.backup = none := by
  obtain ⟨hready, hcall, hpending⟩ := ready_jammed
  have hnode : jammed.nodes[0]? = some (jammed.siteOf 0).node :=
    nodes_siteOf (show 0 < jammed.nodes.size by decide +kernel)
  have hreachable : jammed.Reachable := .scheduled reachable_draft ..
  rcases hrun : ((Amendment.move 1 0).call default).perform (jammed.siteOf 0) with
    ⟨error | _, after⟩ <;>
    rw [hrun] at hcall
  · have hrefused :=
      (hreachable.amendment_whole_or_nothing hnode default (.move 1 0)).1 error after hrun
    obtain ⟨herror, -⟩ | ⟨-, -, roster, rolled, hfound, hlive, hrolled⟩ := hrefused.own
    · have herror : (((Amendment.move 1 0).ready default).perform (jammed.siteOf 0)).1 = .error error :=
        herror
      rw [herror] at hready
      cases hready
    · have hfound : (jammed.siteOf 0).roster? 1 = some roster := hfound
      rw [hfound] at hpending
      exact ⟨error, after, roster, rolled, rfl, hrefused.store, hfound, Option.some.inj hpending, hlive,
        hrolled.pending, hrolled.backup⟩
  · cases hcall

end Cluster

end AccessRights
