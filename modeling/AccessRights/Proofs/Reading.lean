/-
AccessRights/Proofs/Reading.lean

Calls that only read.

A reading call does nothing but learn, whether it succeeds or fails
(`Call.Reads`), and what it gives on success holds of what is recalled
afterwards.  The rules for parts of calls come first; then the calls of the
library, in the order in which they use each other.

Main results: `reads_resolve` (a resolution gives the rights that the rules
derive from what is recalled then) and `reads_effectiveAccess`.
-/
import AccessRights.Proofs.Composed
import AccessRights.Proofs.Learning

namespace AccessRights

namespace Call

variable {α β : Type} {site : Site}

/-! ### Rules -/

/-- At this site the call only learns, and what it gives satisfies `post` afterwards. -/
structure Reads (call : Call α) (site : Site) (post : α → Site → Prop) : Prop where
  learns : site.Learns (call.perform site).2
  post (value : α) : (call.perform site).1 = .ok value → post value (call.perform site).2

/-- What a call has read may be said less exactly. -/
theorem Reads.mono {call : Call α} {post post' : α → Site → Prop} (h : call.Reads site post)
    (himp : ∀ value after, site.Learns after → post value after → post' value after) :
    call.Reads site post' :=
  ⟨h.learns, fun value hvalue => himp value _ h.learns (h.post value hvalue)⟩

theorem reads_pure {value : α} {post : α → Site → Prop} (h : post value site) :
    (pure value : Call α).Reads site post := by
  refine ⟨.refl site, fun other hother => ?_⟩
  cases hother
  exact h

theorem reads_throw (error : AccessError) (post : α → Site → Prop) :
    (throw error : Call α).Reads site post := by
  refine ⟨.refl site, fun value hvalue => ?_⟩
  cases hvalue

/-- What would come after a refusal does not matter. -/
theorem reads_throw_bind (error : AccessError) (next : α → Call β) {post : β → Site → Prop} :
    ((throw error : Call α) >>= next).Reads site post := by
  refine ⟨.refl site, fun value hvalue => ?_⟩
  cases hvalue

theorem reads_liftExcept (result : Except AccessError α) :
    (liftExcept result : Call α).Reads site fun value after =>
      result = .ok value ∧ after = site := by
  refine ⟨?_, fun value hvalue => ?_⟩ <;> rw [perform_liftExcept] at *
  · exact .refl site
  · exact ⟨hvalue, rfl⟩

/-- A sequence reads if both of its calls do, and the second one may rely on what the
first one has read. -/
theorem Reads.andThen {call : Call α} {next : α → Call β} {mid : α → Site → Prop}
    {post : β → Site → Prop} (h : call.Reads site mid)
    (hnext : ∀ value after, site.Learns after → mid value after → (next value).Reads after post) :
    (call >>= next).Reads site post := by
  obtain ⟨hlearns, hmid⟩ := h
  have hbind := perform_bind call next site
  rcases hcall : call.perform site with ⟨error | value, after⟩ <;> rw [hcall] at hbind hlearns hmid
  · constructor
    · rw [hbind]
      exact hlearns
    · intro value hvalue
      rw [hbind] at hvalue
      cases hvalue
  · obtain ⟨hlearns', hpost⟩ := hnext value after hlearns (hmid value rfl)
    constructor
    · rw [hbind]
      exact hlearns.trans hlearns'
    · intro value hvalue
      rw [hbind] at hvalue ⊢
      exact hpost value hvalue

/-- The second call starts at a site that has only learned, so it is keyed as well. -/
theorem Reads.bind {call : Call α} {next : α → Call β} {mid : α → Site → Prop}
    {post : β → Site → Prop} (h : call.Reads site mid) (hkeyed : site.Keyed)
    (hnext : ∀ value after, site.Learns after → after.Keyed → mid value after →
      (next value).Reads after post) : (call >>= next).Reads site post :=
  h.andThen fun value after hlearns hmid => hnext value after hlearns (hlearns.keyed hkeyed) hmid

/-- How a reading call ends. -/
theorem Reads.cases {call : Call α} {post : α → Site → Prop} (h : call.Reads site post) :
    (∃ error after, site.Learns after ∧ call.perform site = (.error error, after)) ∨
      ∃ value after, site.Learns after ∧ post value after ∧
        call.perform site = (.ok value, after) := by
  obtain ⟨hlearns, hpost⟩ := h
  rcases hcall : call.perform site with ⟨error | value, after⟩ <;> rw [hcall] at hlearns hpost
  · exact .inl ⟨error, after, hlearns, rfl⟩
  · exact .inr ⟨value, after, hlearns, hpost value rfl, rfl⟩

/-- Looking at the failure of a call is reading what the call reads. -/
theorem Reads.outcome {call : Call α} {post : α → Site → Prop} (h : call.Reads site post) :
    call.outcome.Reads site fun result after => ∀ value, result = .ok value → post value after := by
  refine ⟨h.learns, fun result hresult value hvalue => h.post value ?_⟩
  cases hresult
  exact hvalue

/-- A call of the store that only looks something up is reading. -/
theorem reads_ask {request : StoreCall α} {backed : Store → α → Prop} {found : Store → α}
    (h : Backend.Looks request backed found) (wrap : StoreError → AccessError) (site : Site) :
    (ask wrap request).Reads site fun value after =>
      backed site.backend.store value ∧ after.node = site.node := by
  have hperform := perform_ask wrap request site
  -- all that a look can change in the backend is the plan of faults
  have hsite : (request.run.run site.backend).2 =
      { site.backend with faults := (request.run.run site.backend).2.faults } := by
    show Backend.mk (request.run.run site.backend).2.store _ = Backend.mk site.backend.store _
    rw [h.store]
  constructor
  · rw [hperform, hsite]
    exact .single (.fault _ (h.calm site.backend))
  · intro value hvalue
    rw [hperform] at hvalue ⊢
    refine ⟨h.backed site.backend value ?_, rfl⟩
    cases hrun : (request.run.run site.backend).1 with
    | error failure =>
      rw [hrun] at hvalue
      cases hvalue
    | ok found =>
      rw [hrun] at hvalue
      cases hvalue
      rfl

/-- Looking into the memory of the node is reading nothing. -/
theorem reads_currentNode {next : Node → Call β} {post : β → Site → Prop}
    (h : (next site.node).Reads site post) : (Site.currentNode >>= next).Reads site post := by
  have hbind : (Site.currentNode >>= next).perform site = (next site.node).perform site := by
    rw [perform_bind, Site.perform_currentNode]
  exact ⟨hbind ▸ h.learns, fun value => hbind ▸ h.post value⟩

/-- Changing the memory of the node is reading if it is learning. -/
theorem reads_editNode {edit : Node → Node}
    (h : site.Learns { site with node := edit site.node }) :
    (Site.editNode edit).Reads site fun _ after =>
      after = { site with node := edit site.node } :=
  ⟨h, fun _ _ => rfl⟩

/-- Parts of calls that do nothing but learn. -/
def Learning (α : Type) (call : Call α) (site : Site) : Prop :=
  site.Keyed → site.Learns (call.perform site).2

/-- A search in the store uses up a fault at most, which is learning. -/
theorem learning_find (wrap : StoreError → AccessError) (method : StoreMethod)
    (look : Store → Option α) (site : Site) :
    Learning _ (ask wrap (Backend.find method look)) site :=
  fun _ => (reads_ask (Backend.looks_find method look) wrap site).learns

/-- A call whose parts do nothing but learn is reading, though nothing is known of what it gives. -/
theorem Composed.reads {call : Call α} (h : Composed Learning call site) (hkeyed : site.Keyed) :
    call.Reads site fun _ _ => True := by
  induction h with
  | part whole => exact ⟨whole hkeyed, fun _ _ => trivial⟩
  | value => exact reads_pure trivial
  | refusal error => exact reads_throw error _
  | lifted result => exact (reads_liftExcept result).mono fun _ _ _ _ => trivial
  | @bind _ _ call next site _ _ ih ihnext =>
    -- where the first call ends is all that the second one has to know
    have hfirst : call.Reads site fun value after => call.perform site = (.ok value, after) :=
      ⟨(ih hkeyed).learns, fun value hvalue => Prod.ext hvalue rfl⟩
    exact hfirst.bind hkeyed fun value after _ hkeyed' hrun => ihnext value after hrun hkeyed'
  | outcome _ ih => exact (ih hkeyed).outcome.mono fun _ _ _ _ => trivial
  | look _ _ ih => exact reads_currentNode (ih hkeyed)

end Call

namespace Site

open Call

variable {site : Site}

/-! ### Finding policies, groups and rosters -/

/-- What a policy designates is found in the index, or fetched and taken in under its own
number. -/
theorem reads_readPolicy (indexed : PolicyIndex → Option Policy) {fetch : StoreCall (Option Policy)}
    {look : Store → Option Policy} (hkeyed : site.Keyed)
    (hfetch : Backend.Looks fetch (Backend.Backs look) look)
    (hstored : ∀ policy, look site.backend.store = some policy →
      ∃ id, site.backend.store.policies.byId? id = some policy)
    (hnew : indexed site.node.policies = none → ∀ policy, look site.backend.store = some policy →
      site.node.policies.policy? policy.id = none)
    (context designation : String) :
    (readPolicy indexed context fetch designation).Reads site fun policy after =>
      indexed site.node.policies = some policy ∧ after.node = site.node ∨
      look site.backend.store = some policy ∧ after.node =
        { site.node with policies := site.node.policies.insert policy } := by
  unfold readPolicy
  apply reads_currentNode
  cases hknown : indexed site.node.policies with
  | some policy => exact reads_pure (.inl ⟨rfl, rfl⟩)
  | none =>
    apply (reads_ask hfetch _ site).bind hkeyed
    rintro found after hlearns hkeyed' ⟨hbacked, hnode⟩
    cases found with
    | none => exact reads_throw _ _
    | some policy =>
      -- what the designator led to is stored under its own number, which was unknown
      have hlook := hbacked policy rfl
      obtain ⟨id, hid⟩ := hstored policy hlook
      have hpolicyId := hkeyed.policy hid
      have hunknown := hnew hknown policy hlook
      refine (reads_editNode (.single (@Learn.policy _ id _ ?_ ?_))).bind hkeyed'
        ?_
      · rw [hnode, ← hpolicyId, hunknown]
      · rw [hlearns.still.store, hid]
      · intro _ last _ _ hlast
        refine reads_pure (.inr ⟨hlook, ?_⟩)
        rw [hlast, hnode]

/-- A policy that was looked up is recalled from then on. -/
theorem reads_policyById (hkeyed : site.Keyed) (id : UInt64) :
    (policyById id).Reads site fun policy after =>
      after.node.recalled.policy? id = some policy ∧ after.node.rosters = site.node.rosters := by
  unfold policyById
  split
  · exact reads_throw _ _
  · rename_i hid
    have hread := reads_readPolicy (·.policy? id) hkeyed
      (Backend.looks_find .policyById fun store => store.policies.byId? id)
      (fun policy hpolicy => ⟨id, hpolicy⟩)
      (fun hunknown policy hpolicy => by rw [hkeyed.policy hpolicy, hunknown])
      ("policy " ++ toString id) (toString id)
    apply hread.mono
    intro policy after _ hpost
    show (if id = 0 then none else after.node.policies.policy? id) = some policy ∧ _
    rw [if_neg hid]
    obtain ⟨hknown, hnode⟩ | ⟨hstored, hnode⟩ := hpost
    · rw [hnode]
      exact ⟨hknown, rfl⟩
    · rw [hnode, PolicyIndex.policy?_insert, if_pos (hkeyed.policy hstored)]
      exact ⟨rfl, rfl⟩

/-- What a group designates is found in the index, or fetched and taken in under its own
number. -/
theorem reads_readGroup (indexed : GroupIndex → Option Group) {fetch : StoreCall (Option Group)}
    {look : Store → Option Group} (hkeyed : site.Keyed)
    (hfetch : Backend.Looks fetch (Backend.Backs look) look)
    (hstored : ∀ group, look site.backend.store = some group →
      ∃ id, site.backend.store.groups.byId? id = some group)
    (hnew : indexed site.node.groups = none → ∀ group, look site.backend.store = some group →
      site.node.groups.group? group.id = none)
    (context designation : String) :
    (readGroup indexed context fetch designation).Reads site fun group after =>
      indexed site.node.groups = some group ∧ after.node = site.node ∨
      look site.backend.store = some group ∧ after.node =
        { site.node with groups := site.node.groups.insert group } := by
  unfold readGroup
  apply reads_currentNode
  cases hknown : indexed site.node.groups with
  | some group => exact reads_pure (.inl ⟨rfl, rfl⟩)
  | none =>
    apply (reads_ask hfetch _ site).bind hkeyed
    rintro found after hlearns hkeyed' ⟨hbacked, hnode⟩
    cases found with
    | none => exact reads_throw _ _
    | some group =>
      -- as for policies: the group is stored under its own number
      have hlook := hbacked group rfl
      obtain ⟨id, hid⟩ := hstored group hlook
      have hgroupId := hkeyed.group hid
      have hunknown := hnew hknown group hlook
      refine (reads_editNode (.single (@Learn.group _ id _ ?_ ?_))).bind hkeyed'
        ?_
      · rw [hnode, ← hgroupId, hunknown]
      · rw [hlearns.still.store, hid]
      · intro _ last _ _ hlast
        refine reads_pure (.inr ⟨hlook, ?_⟩)
        rw [hlast, hnode]

/-- A group that was looked up is recalled from then on. -/
theorem reads_groupById (hkeyed : site.Keyed) (id : UInt64) :
    (groupById id).Reads site fun group after =>
      after.node.recalled.group? id = some group ∧ after.node.rosters = site.node.rosters := by
  unfold groupById
  split
  · exact reads_throw _ _
  · rename_i hid
    have hread := reads_readGroup (·.group? id) hkeyed
      (Backend.looks_find .groupById fun store => store.groups.byId? id)
      (fun group hgroup => ⟨id, hgroup⟩)
      (fun hunknown group hgroup => by rw [hkeyed.group hgroup, hunknown])
      ("group " ++ toString id) (toString id)
    apply hread.mono
    intro group after _ hpost
    show (if id = 0 then none else after.node.groups.group? id) = some group ∧ _
    rw [if_neg hid]
    obtain ⟨hknown, hnode⟩ | ⟨hstored, hnode⟩ := hpost
    · rw [hnode]
      exact ⟨hknown, rfl⟩
    · rw [hnode, GroupIndex.group?_insert, if_pos (hkeyed.group hstored)]
      exact ⟨rfl, rfl⟩

theorem learning_groupById (id : UInt64) (site : Site) :
    Composed Learning (groupById id) site :=
  .part fun hkeyed => (reads_groupById hkeyed id).learns

/-- A roster that was looked up is live from then on. -/
theorem reads_rosterOf (hkeyed : site.Keyed) (policyId : UInt64) :
    (rosterOf policyId).Reads site fun roster after =>
      policyId ≠ 0 ∧ after.node.rosters[policyId]? = some roster := by
  unfold rosterOf
  split
  · exact reads_throw_bind _ _
  rename_i hid
  dsimp only
  apply reads_currentNode
  cases hlive : site.node.rosters[policyId]? with
  | some roster => exact reads_pure ⟨hid, hlive⟩
  | none =>
    apply (reads_ask (Backend.looks_rosterOfPolicy policyId) _ site).bind hkeyed
    rintro found after hlearns hkeyed' ⟨hbacked, hnode⟩
    cases found with
    | none => exact reads_throw _ _
    | some record =>
      dsimp only
      split
      · exact reads_throw_bind _ _
      · rename_i hown
        have hown : record.policyId = policyId := by simpa using hown
        have hstored := hbacked record rfl hown
        -- the record is of the policy that was asked for, so its roster may come to life
        have hput : after.Learns { after with node := { after.node with
            rosters := after.node.rosters.insert record.policyId (.ofRecord record) } } := by
          refine .single (.roster ?_ ?_ rfl)
          · rw [hown, hnode, hlive]
          · rw [hown, hlearns.still.store, hstored]
        apply (reads_editNode hput).bind hkeyed'
        intro _ last _ _ hlast
        refine reads_pure ⟨hid, ?_⟩
        rw [hlast, ← hown]
        exact Std.ExtTreeMap.getElem?_insert_self

/-! ### The rights of groups -/

/-- A walk up the groups recalls the whole lineage. -/
theorem reads_ancestryFrom (hkeyed : site.Keyed) (trail : Trail) (groupId : UInt64) :
    (ancestryFrom trail groupId).Reads site fun groups after =>
      after.node.recalled.Lineage groupId groups ∧ after.node.rosters = site.node.rosters := by
  induction trail, groupId using ancestryFrom.induct generalizing site with
  | case1 trail =>
    rw [ancestryFrom, if_pos rfl]
    exact reads_pure ⟨.root, rfl⟩
  | case2 trail groupId nonzero fresh ih =>
    rw [ancestryFrom, if_neg nonzero, dif_pos fresh]
    apply (reads_groupById hkeyed groupId).bind hkeyed
    rintro group after _ hkeyed' ⟨hgroup, hrosters⟩
    apply (ih group hkeyed').bind hkeyed'
    rintro ancestors last hlearns _ ⟨hancestors, hrosters'⟩
    -- the group is still recalled when its ancestors have been read
    have hgroup' := (hlearns.recalled_le hkeyed').group hgroup
    exact reads_pure ⟨.child nonzero hgroup' hancestors, hrosters'.trans hrosters⟩
  | case3 trail groupId nonzero stale =>
    rw [ancestryFrom, if_neg nonzero, dif_neg stale]
    exact reads_throw _ _

theorem reads_ancestry (hkeyed : site.Keyed) (groupId : UInt64) :
    (ancestry groupId).Reads site fun groups after =>
      after.node.recalled.Lineage groupId groups ∧ after.node.rosters = site.node.rosters :=
  reads_ancestryFrom hkeyed _ groupId

/-- What a roster recalls is recalled by the node where it is live. -/
theorem recalled_cell? {node : Node} {policyId : UInt64} {roster : Roster} (hid : policyId ≠ 0)
    (hlive : node.rosters[policyId]? = some roster) (actor : Actor) :
    node.recalled.cell? policyId actor = roster.recalled? actor := by
  show (if policyId = 0 then none else _) = _
  rw [if_neg hid, hlive, Option.bind_some]

/-- The rights of everyone are recalled from a live roster. -/
theorem recalled_everyone? {node : Node} {policyId : UInt64} {roster : Roster}
    (hid : policyId ≠ 0) (hlive : node.rosters[policyId]? = some roster) :
    node.recalled.everyone? policyId = some roster.everyone := by
  show (if policyId = 0 then none else _) = _
  rw [if_neg hid, hlive, Option.map_some]

/-- The live roster of a policy is put back with the answers it has learned. -/
theorem reads_putRoster {policyId : UInt64} {roster other : Roster} (hkeyed : site.Keyed)
    (hlive : site.node.rosters[policyId]? = some roster) (hwithin : roster.Within other)
    (hconsistent : other.Consistent) :
    (putRoster other).Reads site fun _ after => after.node.rosters[policyId]? = some other := by
  have hother : other.policyId = policyId := hwithin.policyId.trans (hkeyed.roster hlive).1
  unfold putRoster
  rw [hother]
  apply (reads_editNode (.single (.answers hlive hwithin hconsistent))).mono
  intro _ after _ hafter
  rw [hafter]
  exact Std.ExtTreeMap.getElem?_insert_self

/-- What was found for a group is recalled by the roster that comes back. -/
theorem reads_groupRightsIn {policyId : UInt64} {roster : Roster} (hkeyed : site.Keyed)
    (hid : policyId ≠ 0) (hlive : site.node.rosters[policyId]? = some roster) (groupId : UInt64) :
    (groupRightsIn roster groupId).Reads site fun found after =>
      after.node.rosters[policyId]? = some found.2 ∧
        after.node.recalled.OfGroup policyId groupId found.1 := by
  unfold groupRightsIn
  apply (reads_ancestry hkeyed groupId).bind hkeyed
  rintro groups after _ hkeyed' ⟨hgroups, hrosters⟩
  have hlive' : after.node.rosters[policyId]? = some roster := by rw [hrosters, hlive]
  have hconsistent := (hkeyed'.roster hlive').2.lookupFirst (groups.map Group.actor)
  have hwithin := roster.within_lookupFirst (groups.map Group.actor)
  have hcell := (hkeyed'.roster hlive').2.firstCell_lookupFirst (groups.map Group.actor)
  -- all that matters of the search are the three facts above
  generalize roster.lookupFirst (groups.map Group.actor) = answer at hconsistent hwithin hcell ⊢
  obtain ⟨found, other⟩ := answer
  apply (reads_putRoster hkeyed' hlive' hwithin hconsistent).bind hkeyed'
  intro _ last hlearns hkeyed'' hother
  refine reads_pure ⟨hother, .intro (hgroups.mono (hlearns.recalled_le hkeyed')) ?_⟩
  rw [View.holder_eq_actor]
  apply hcell.mono
  intro actor cell hactor
  rw [recalled_cell? hid hother, hactor]

theorem reads_groupsRightsIn {policyId : UInt64} {roster : Roster} (hkeyed : site.Keyed)
    (hid : policyId ≠ 0) (hlive : site.node.rosters[policyId]? = some roster)
    (groupIds : List UInt64) :
    (groupsRightsIn roster groupIds).Reads site fun found after =>
      after.node.rosters[policyId]? = some found.2 ∧
        after.node.recalled.OfGroups policyId groupIds found.1 := by
  induction groupIds generalizing site roster with
  | nil => exact reads_pure ⟨hlive, .nil⟩
  | cons groupId groupIds ih =>
    unfold groupsRightsIn
    apply (reads_groupRightsIn hkeyed hid hlive groupId).bind hkeyed
    rintro first after _ hkeyed' ⟨hlive', hfirst⟩
    apply (ih hkeyed' hlive').bind hkeyed'
    rintro others last hlearns _ ⟨hlive'', hothers⟩
    exact reads_pure ⟨hlive'', .cons (hfirst.mono (hlearns.recalled_le hkeyed')) hothers⟩

/-! ### The rights of an actor -/

/-- What a policy gives by itself is recalled when it has been put together. -/
theorem reads_ownRights (hkeyed : site.Keyed) (policy : Policy) (actor : Actor) :
    (ownRights policy actor).Reads site fun rights after =>
      after.node.recalled.Own policy actor rights := by
  unfold ownRights
  apply (reads_rosterOf hkeyed policy.id).bind hkeyed
  rintro roster after _ hkeyed' ⟨hid, hlive⟩
  have heveryone := recalled_everyone? hid hlive
  -- roles and groups take the same branch
  have hgroup (kind : actor.kind = .role ∨ actor.kind = .group) :
      (do let found ← groupRightsIn roster actor.id
          pure (found.2.everyone ∪ found.1) : Call Rights).Reads after fun rights last =>
        last.node.recalled.Own policy actor rights := by
    apply (reads_groupRightsIn hkeyed' hid hlive actor.id).bind hkeyed'
    rintro found last _ _ ⟨hlive', hfound⟩
    exact reads_pure (.group kind (recalled_everyone? hid hlive') hfound)
  cases hkind : actor.kind with
  | everyone => exact reads_pure (.everyone hkind heveryone)
  | role => exact hgroup (.inl hkind)
  | group => exact hgroup (.inr hkind)
  | user =>
    apply reads_currentNode
    apply (reads_groupsRightsIn hkeyed' hid hlive _).bind hkeyed'
    rintro found middle hlearns hkeyed'' ⟨hlive', hgroups⟩
    -- the cell of the user is looked up last, in the roster that the groups have left
    have hwithin := found.2.within_lookup actor
    have hconsistent := (hkeyed''.roster hlive').2.lookup actor
    have hrecall := found.2.recalled?_lookup actor
    rcases found with ⟨ofGroups, roster'⟩
    dsimp only at hwithin hconsistent hrecall hlive' hgroups ⊢
    generalize roster'.lookup actor = answer at hwithin hconsistent hrecall ⊢
    obtain ⟨ofCell, other⟩ := answer
    apply (reads_putRoster hkeyed'' hlive' hwithin hconsistent).bind hkeyed''
    intro _ last hlearns' _ hother
    -- the memberships were read first, and learning makes nobody a member
    have hle := (hlearns.trans hlearns').recalled_le hkeyed'
    dsimp only
    rw [← View.ofOwner_eq]
    refine reads_pure (.user hkind (recalled_everyone? hid hother) ?_ ?_)
    · have hgroups' := hgroups.mono (hlearns'.recalled_le hkeyed'')
      rw [← GroupIndex.joined_eq] at hgroups'
      rwa [← hle.groupsOf]
    · rw [recalled_cell? hid hother, hrecall]

/-- A walk up the policies is recalled as a whole. -/
theorem reads_contributorsFrom (hkeyed : site.Keyed) (trail : Trail) (policyId : UInt64) :
    (contributorsFrom trail policyId).Reads site fun policies after =>
      ∃ path, after.node.recalled.Walk policyId path policies := by
  induction trail, policyId using contributorsFrom.induct generalizing site with
  | case1 trail policyId fresh ih =>
    rw [contributorsFrom, dif_pos fresh]
    apply (reads_policyById hkeyed policyId).bind hkeyed
    rintro policy after _ hkeyed' ⟨hpolicy, _⟩
    cases hinherited : policy.isInherited with
    | true =>
      rw [if_pos rfl]
      apply (ih policy hkeyed').mono
      rintro policies last hlearns ⟨path, hwalk⟩
      -- the policy is recalled still when those above it have been read
      have hpolicy' := (hlearns.recalled_le hkeyed').policy hpolicy
      exact ⟨_, .inherited hpolicy' hinherited hwalk⟩
    | false =>
      rw [if_neg (by simp)]
      cases hextended : policy.isExtended with
      | true =>
        rw [if_pos rfl]
        apply (ih policy hkeyed').bind hkeyed'
        rintro policies last hlearns _ ⟨path, hwalk⟩
        have hpolicy' := (hlearns.recalled_le hkeyed').policy hpolicy
        exact reads_pure ⟨_, .extended hpolicy' hinherited hextended hwalk⟩
      | false =>
        rw [if_neg (by simp)]
        exact reads_pure ⟨_, .alone hpolicy hinherited hextended⟩
  | case2 trail policyId stale =>
    rw [contributorsFrom, dif_neg stale]
    exact reads_throw _ _

/-- Every contribution is recalled still when the last one has been found. -/
theorem reads_contributedRights (hkeyed : site.Keyed) (actor : Actor) (policies : List Policy) :
    (contributedRights actor policies).Reads site fun rights after =>
      after.node.recalled.Contributed actor policies rights := by
  induction policies generalizing site with
  | nil => exact reads_pure .nil
  | cons policy policies ih =>
    unfold contributedRights
    apply (reads_ownRights hkeyed policy actor).bind hkeyed
    intro own after _ hkeyed' hown
    apply (ih hkeyed').bind hkeyed'
    intro others last hlearns _ hothers
    exact reads_pure (.cons (hown.mono (hlearns.recalled_le hkeyed')) hothers)

/-- A resolution gives the rights that the rules derive from what is recalled then. -/
theorem reads_resolve (hkeyed : site.Keyed) (policyId : UInt64) (actor : Actor) :
    (resolve policyId actor).Reads site fun rights after =>
      after.node.recalled.Effective actor policyId rights := by
  unfold resolve
  apply (reads_contributorsFrom hkeyed .empty policyId).bind hkeyed
  rintro policies after _ hkeyed' ⟨path, hwalk⟩
  apply (reads_contributedRights hkeyed' actor policies).mono
  intro rights last hlearns hrights
  exact View.effective_iff_walk.2
    ⟨path, policies, hwalk.mono (hlearns.recalled_le hkeyed'), hrights⟩

theorem reads_summarizedUserAccess (hkeyed : site.Keyed) (policyId userId : UInt64) :
    (summarizedUserAccess policyId userId).Reads site fun rights after =>
      ∃ policy, after.node.recalled.policy? policyId = some policy ∧
        after.node.recalled.Own policy (.user userId) rights := by
  unfold summarizedUserAccess
  apply (reads_policyById hkeyed policyId).bind hkeyed
  rintro policy after _ hkeyed' ⟨hpolicy, _⟩
  apply (reads_ownRights hkeyed' policy _).mono
  intro rights last hlearns hrights
  exact ⟨policy, (hlearns.recalled_le hkeyed').policy hpolicy, hrights⟩

theorem reads_groupAccess (hkeyed : site.Keyed) (policyId groupId : UInt64) :
    (groupAccess policyId groupId).Reads site fun rights after =>
      after.node.recalled.OfGroup policyId groupId rights := by
  unfold groupAccess
  apply (reads_policyById hkeyed policyId).bind hkeyed
  intro _ after _ hkeyed' _
  apply (reads_rosterOf hkeyed' policyId).bind hkeyed'
  rintro roster middle _ hkeyed'' ⟨hid, hlive⟩
  apply (reads_groupRightsIn hkeyed'' hid hlive groupId).bind hkeyed''
  rintro found last _ _ ⟨_, hfound⟩
  exact reads_pure hfound

/-! ### Cached answers -/

/-- What is served from the cache is in the cache, and a cache that can be trusted serves what the
node recalls. -/
theorem reads_cached? (site : Site) (question : RightsQuestion) :
    (cached? question).Reads site fun found after => ∀ rights, found = some rights →
      after.node.Holds question rights ∧ (site.node.Trusted →
        after.node.recalled.Effective question.actor question.policyId rights) := by
  unfold cached?
  apply reads_currentNode
  cases hcache : site.node.cache with
  | none => exact reads_pure nofun
  | some cache =>
    dsimp only
    -- what is served is current, so a faithful cache has it from the node's memory
    have hget (h : site.node.Faithful) := h.get hcache question
    have hserved (h : site.node.Trusted) {rights : Rights}
        (hrights : (cache.get site.node.generation question).1 = some rights) :
        site.node.recalled.Effective question.actor question.policyId rights :=
      h.faithful.current h.exact hcache (RightsCache.entry_of_get hrights) rfl
    have hkept {rights : Rights}
        (hrights : (cache.get site.node.generation question).1 = some rights) :
        (cache.get site.node.generation question).2.entries[question]? =
          some ⟨rights, site.node.generation⟩ := by
      rw [RightsCache.entries_get_of_some hrights, RightsCache.entry_of_get hrights]
    have hold {other : RightsQuestion} {entry : CachedRights}
        (hentry : (cache.get site.node.generation question).2.entries[other]? = some entry) :
        site.node.Holds other entry.rights :=
      .cached hcache (RightsCache.entry_of_entries_get hentry)
    generalize cache.get site.node.generation question = answer at hget hserved hkept hold ⊢
    obtain ⟨found, cache'⟩ := answer
    refine ⟨.single (.cache (some cache') hget ?_), ?_⟩
    · rintro _ other entry ⟨⟩ hentry
      exact hold hentry
    · rintro _ ⟨⟩ rights hrights
      exact ⟨.cached rfl (hkept hrights), fun htrusted => hserved htrusted hrights⟩

/-- Putting an answer into the cache changes nothing that is recalled. -/
theorem reads_remember {question : RightsQuestion} {rights : Rights}
    (hrights : site.node.recalled.Effective question.actor question.policyId rights)
    (stamp : Generation) :
    (remember question rights stamp).Reads site fun _ after =>
      after.node.recalled = site.node.recalled := by
  refine ⟨.single (.cache _ (fun h => h.put hrights stamp) ?_), ?_⟩
  · intro answered other entry hcache hentry
    obtain ⟨before, hbefore, rfl⟩ := Option.map_eq_some_iff.1 hcache
    obtain ⟨rfl, rfl, -⟩ | hold := RightsCache.entry_of_entries_put hentry
    · exact .recalled hrights
    · exact .cached hbefore hold
  · rintro _ ⟨⟩
    rfl

/-- A node has the rights that it gives, and with a cache to be trusted the rules derive them from
what is recalled then, whether it resolves them or not. -/
theorem reads_effectiveAccess (hkeyed : site.Keyed) (policyId : UInt64) (actor : Actor) :
    (effectiveAccess policyId actor).Reads site fun rights after =>
      after.node.Holds ⟨policyId, actor.normalize⟩ rights ∧ (site.node.Trusted →
        after.node.recalled.Effective actor.normalize policyId rights) := by
  unfold effectiveAccess
  apply (reads_cached? site ⟨policyId, actor.normalize⟩).bind hkeyed
  intro found after _ hkeyed' hfound
  cases found with
  | some rights => exact reads_pure (hfound rights rfl)
  | none =>
    apply reads_currentNode
    apply (reads_resolve hkeyed' policyId actor.normalize).bind hkeyed'
    intro rights middle _ hkeyed'' hrights
    apply (reads_remember hrights _).bind hkeyed''
    intro _ last _ _ hsame
    rw [← hsame] at hrights
    exact reads_pure ⟨.recalled hrights, fun _ => hrights⟩

/-- Whoever is said to have rights has them, if the cache can be trusted. -/
theorem reads_hasRights (hkeyed : site.Keyed) (policyId : UInt64) (actor : Actor)
    (rights : Rights) :
    (hasRights policyId actor rights).Reads site fun answer after => site.node.Trusted →
      ∃ held, after.node.recalled.Effective actor.normalize policyId held ∧
        answer = held.satisfies rights := by
  unfold hasRights
  apply (reads_effectiveAccess hkeyed policyId actor).bind hkeyed
  intro held after _ _ hheld
  exact reads_pure fun htrusted => ⟨held, hheld.2 htrusted, rfl⟩

theorem reads_checkAccess (hkeyed : site.Keyed) (policyId : UInt64) (actor : Actor)
    (rights : Rights) :
    (checkAccess policyId actor rights).Reads site fun _ after => site.node.Trusted →
      ∃ held, after.node.recalled.Effective actor.normalize policyId held ∧
        held.satisfies rights = true := by
  unfold checkAccess
  apply (reads_effectiveAccess hkeyed policyId actor).bind hkeyed
  intro held after _ _ hheld
  cases hsatisfies : held.satisfies rights with
  | false => exact reads_throw _ _
  | true => exact reads_pure fun htrusted => ⟨held, hheld.2 htrusted, hsatisfies⟩

end Site

end AccessRights
