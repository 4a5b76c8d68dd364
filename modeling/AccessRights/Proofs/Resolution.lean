/-
AccessRights/Proofs/Resolution.lean

A resolution computes the recursive rules.

`reads_resolve` says that what a resolution gives is right.  Here is the
converse, twice over.  What the rules derive from memory a resolution gives
without learning anything, whatever the store does (`perform_resolve`).  What
they derive from the view it gives as long as the store does not fail
(`Succeeds`).  In both cases the point is that the trail of a walk never gets
in the way: whatever has been passed is further from the end than what comes
next, so a walk that ends meets no number twice.

Main results: `effectiveAccess_eq_ok_iff` (rights that are not served from the
cache are those of the recursive rules) and `perform_resolve`.
-/
import AccessRights.Proofs.Reading

namespace AccessRights

namespace View

variable {view : View}

/-! ### Trails of walks that end -/

/-- Every group on the trail is further from its root than the given ones reach. -/
def Past (view : View) (trail : Trail) (groups : List Group) : Prop :=
  ∀ id ∈ trail, ∀ longer, view.Lineage id longer → groups.length < longer.length

/-- A walk that has only begun is past nothing. -/
theorem past_empty (view : View) (groups : List Group) : view.Past .empty groups :=
  fun id hmem => absurd hmem (Trail.not_mem_empty id)

/-- A walk along a lineage does not come back to where it has been. -/
theorem Past.fresh {trail : Trail} {groupId : UInt64} {groups : List Group}
    (h : view.Past trail groups) (hlineage : view.Lineage groupId groups) : groupId ∉ trail :=
  fun hmem => Nat.lt_irrefl _ (h groupId hmem groups hlineage)

/-- One step up the walk is past one group more. -/
theorem Past.add {trail : Trail} {groupId : UInt64} {group : Group} {ancestors : List Group}
    (h : view.Past trail (group :: ancestors))
    (hlineage : view.Lineage groupId (group :: ancestors)) (fresh : groupId ∉ trail) :
    view.Past (trail.add groupId fresh) ancestors := by
  intro id hmem longer hlonger
  obtain rfl | hmem := Trail.mem_add.1 hmem
  · rw [hlonger.unique hlineage, List.length_cons]
    exact Nat.lt_succ_self _
  · exact Nat.lt_of_succ_lt (h id hmem longer hlonger)

/-- Every policy on the trail is further from the end of its walk than the given path. -/
def PastPath (view : View) (trail : Trail) (path : List UInt64) : Prop :=
  ∀ id ∈ trail, ∀ longer policies, view.Walk id longer policies → path.length < longer.length

theorem pastPath_empty (view : View) (path : List UInt64) : view.PastPath .empty path :=
  fun id hmem => absurd hmem (Trail.not_mem_empty id)

/-- Nor does a walk along policies. -/
theorem PastPath.fresh {trail : Trail} {id : UInt64} {path : List UInt64}
    {policies : List Policy} (h : view.PastPath trail path) (hwalk : view.Walk id path policies) :
    id ∉ trail :=
  fun hmem => Nat.lt_irrefl _ (h id hmem path policies hwalk)

theorem PastPath.add {trail : Trail} {id next : UInt64} {path : List UInt64}
    {policies : List Policy} (h : view.PastPath trail (next :: path))
    (hwalk : view.Walk id (next :: path) policies) (fresh : id ∉ trail) :
    view.PastPath (trail.add id fresh) path := by
  intro other hmem longer others hlonger
  obtain rfl | hmem := Trail.mem_add.1 hmem
  · rw [(hlonger.unique hwalk).1, List.length_cons]
    exact Nat.lt_succ_self _
  · exact Nat.lt_of_succ_lt (h other hmem longer others hlonger)

end View

/-- The answer that a node would serve from its cache. -/
def Node.served? (node : Node) (question : RightsQuestion) : Option Rights :=
  node.cache.bind fun cache => (cache.get node.generation question).1

namespace Site

open Call

variable {site : Site}

/-! ### Resolving from memory -/

/-- A policy that is recalled is given at once. -/
theorem perform_policyById {id : UInt64} {policy : Policy}
    (h : site.node.recalled.policy? id = some policy) :
    (policyById id).perform site = (.ok policy, site) := by
  have h : (if id = 0 then none else site.node.policies.policy? id) = some policy := h
  split at h
  · cases h
  · rename_i hid
    unfold policyById readPolicy
    rw [if_neg hid, perform_bind, perform_currentNode]
    dsimp only
    rw [h]
    rfl

theorem perform_groupById {id : UInt64} {group : Group}
    (h : site.node.recalled.group? id = some group) :
    (groupById id).perform site = (.ok group, site) := by
  have h : (if id = 0 then none else site.node.groups.group? id) = some group := h
  split at h
  · cases h
  · rename_i hid
    unfold groupById readGroup
    rw [if_neg hid, perform_bind, perform_currentNode]
    dsimp only
    rw [h]
    rfl

/-- A live roster is given at once. -/
theorem perform_rosterOf {policyId : UInt64} {roster : Roster} (hid : policyId ≠ 0)
    (hlive : site.node.rosters[policyId]? = some roster) :
    (rosterOf policyId).perform site = (.ok roster, site) := by
  unfold rosterOf
  rw [if_neg hid]
  dsimp only
  rw [perform_bind, perform_currentNode]
  dsimp only
  rw [hlive]
  rfl

/-- A lineage that is recalled is walked up without a look into the store. -/
theorem perform_ancestryFrom {groupId : UInt64} {groups : List Group}
    (h : site.node.recalled.Lineage groupId groups) {trail : Trail}
    (hpast : site.node.recalled.Past trail groups) :
    (ancestryFrom trail groupId).perform site = (.ok groups, site) := by
  induction h generalizing trail with
  | root =>
    rw [ancestryFrom, if_pos rfl]
    rfl
  | child nonzero found above ih =>
    have hlineage := View.Lineage.child nonzero found above
    have fresh := hpast.fresh hlineage
    rw [ancestryFrom, if_neg nonzero, dif_pos fresh, perform_bind, perform_groupById found]
    dsimp only
    rw [perform_bind, ih (hpast.add hlineage fresh)]
    rfl

/-- Putting a roster where it is live already changes nothing. -/
theorem perform_putRoster (hkeyed : site.Keyed) {policyId : UInt64} {roster : Roster}
    (hlive : site.node.rosters[policyId]? = some roster) :
    (putRoster roster).perform site = (.ok (), site) := by
  unfold putRoster
  rw [perform_editNode, (hkeyed.roster hlive).1, Table.insert_eq_self hlive]

/-- The rights of a group are those of the nearest cell, and looking for it teaches the
roster nothing that it did not recall. -/
theorem perform_groupRightsIn (hkeyed : site.Keyed) {policyId groupId : UInt64}
    {roster : Roster} {rights : Rights} (hid : policyId ≠ 0)
    (hlive : site.node.rosters[policyId]? = some roster)
    (h : site.node.recalled.OfGroup policyId groupId rights) :
    (groupRightsIn roster groupId).perform site = (.ok (rights, roster), site) := by
  obtain ⟨hlineage, hnearest⟩ := h
  have hcell := hnearest.mono fun {actor cell} hactor =>
    (recalled_cell? hid hlive actor).symm.trans hactor
  rw [View.holder_eq_actor] at hcell
  unfold groupRightsIn ancestry
  rw [perform_bind, perform_ancestryFrom hlineage (View.past_empty _ _)]
  dsimp only
  rw [Roster.lookupFirst_eq_of_firstCell hcell]
  dsimp only
  rw [perform_bind, perform_putRoster hkeyed hlive]
  rfl

theorem perform_groupsRightsIn (hkeyed : site.Keyed) {policyId : UInt64} {roster : Roster}
    {groupIds : List UInt64} {rights : Rights} (hid : policyId ≠ 0)
    (hlive : site.node.rosters[policyId]? = some roster)
    (h : site.node.recalled.OfGroups policyId groupIds rights) :
    (groupsRightsIn roster groupIds).perform site = (.ok (rights, roster), site) := by
  induction h with
  | nil => rfl
  | cons first _ ih =>
    unfold groupsRightsIn
    rw [perform_bind, perform_groupRightsIn hkeyed hid hlive first]
    dsimp only
    rw [perform_bind, ih]
    rfl

/-- A roster whose everyone is recalled is live. -/
theorem exists_live_of_everyone? {policyId : UInt64} {rights : Rights}
    (h : site.node.recalled.everyone? policyId = some rights) :
    policyId ≠ 0 ∧ ∃ roster, site.node.rosters[policyId]? = some roster ∧
      roster.everyone = rights := by
  have h : (if policyId = 0 then none else site.node.rosters[policyId]?.map Roster.everyone) =
    some rights := h
  split at h
  · cases h
  · rename_i hid
    exact ⟨hid, Option.map_eq_some_iff.1 h⟩

/-- What a recalled policy gives by itself is put together from memory. -/
theorem perform_ownRights (hkeyed : site.Keyed) {policy : Policy} {actor : Actor}
    {rights : Rights} (h : site.node.recalled.Own policy actor rights) :
    (ownRights policy actor).perform site = (.ok rights, site) := by
  unfold ownRights
  cases h with
  | everyone kind everyone =>
    obtain ⟨hid, roster, hlive, rfl⟩ := exists_live_of_everyone? everyone
    rw [perform_bind, perform_rosterOf hid hlive]
    dsimp only
    rw [kind]
    rfl
  | user kind everyone groups cell =>
    -- everyone's rights, those of the groups, the own cell, and ownership, in this order
    obtain ⟨hid, roster, hlive, rfl⟩ := exists_live_of_everyone? everyone
    rw [recalled_cell? hid hlive] at cell
    have hgroups := perform_groupsRightsIn hkeyed hid hlive groups
    have hjoined : site.node.recalled.groupsOf actor =
        (site.node.groups.groupsByAsset .anyKind actor).map Group.id := GroupIndex.joined_eq _ _
    rw [hjoined] at hgroups
    rw [perform_bind, perform_rosterOf hid hlive]
    dsimp only
    rw [kind]
    dsimp only
    rw [perform_bind, perform_currentNode]
    dsimp only
    rw [perform_bind, hgroups]
    dsimp only
    rw [Roster.lookup_eq_of_recalled? cell]
    dsimp only
    rw [perform_bind, perform_putRoster hkeyed hlive, View.ofOwner_eq]
    rfl
  | group kind everyone group =>
    obtain ⟨hid, roster, hlive, rfl⟩ := exists_live_of_everyone? everyone
    rw [perform_bind, perform_rosterOf hid hlive]
    dsimp only
    rcases kind with kind | kind <;> rw [kind] <;> dsimp only <;>
      rw [perform_bind, perform_groupRightsIn hkeyed hid hlive group] <;> rfl

/-- The policies that contribute are found from memory. -/
theorem perform_contributorsFrom {policyId : UInt64} {path : List UInt64}
    {policies : List Policy} (h : site.node.recalled.Walk policyId path policies) {trail : Trail}
    (hpast : site.node.recalled.PastPath trail path) :
    (contributorsFrom trail policyId).perform site = (.ok policies, site) := by
  induction h generalizing trail with
  | inherited found hinherited parent ih =>
    have hwalk := View.Walk.inherited found hinherited parent
    have fresh := hpast.fresh hwalk
    rw [contributorsFrom, dif_pos fresh, perform_bind, perform_policyById found]
    dsimp only
    rw [if_pos hinherited, ih (hpast.add hwalk fresh)]
  | extended found hinherited hextended parent ih =>
    have hwalk := View.Walk.extended found hinherited hextended parent
    have fresh := hpast.fresh hwalk
    rw [contributorsFrom, dif_pos fresh, perform_bind, perform_policyById found]
    dsimp only
    rw [if_neg (by simp [hinherited]), if_pos hextended, perform_bind, ih (hpast.add hwalk fresh)]
    rfl
  | alone found hinherited hextended =>
    have fresh := hpast.fresh (View.Walk.alone found hinherited hextended)
    rw [contributorsFrom, dif_pos fresh, perform_bind, perform_policyById found]
    dsimp only
    rw [if_neg (by simp [hinherited]), if_neg (by simp [hextended])]
    rfl

/-- So is what they contribute. -/
theorem perform_contributedRights (hkeyed : site.Keyed) {actor : Actor} {policies : List Policy}
    {rights : Rights} (h : site.node.recalled.Contributed actor policies rights) :
    (contributedRights actor policies).perform site = (.ok rights, site) := by
  induction h with
  | nil => rfl
  | cons first _ ih =>
    unfold contributedRights
    rw [perform_bind, perform_ownRights hkeyed first]
    dsimp only
    rw [perform_bind, ih]
    rfl

/-- Rights that the rules derive from memory are resolved from memory: nothing is learned
and the store is not asked. -/
theorem perform_resolve (hkeyed : site.Keyed) {policyId : UInt64} {actor : Actor}
    {rights : Rights} (h : site.node.recalled.Effective actor policyId rights) :
    (resolve policyId actor).perform site = (.ok rights, site) := by
  obtain ⟨path, policies, hwalk, hrights⟩ := View.effective_iff_walk.1 h
  unfold resolve contributors
  rw [perform_bind, perform_contributorsFrom hwalk (View.pastPath_empty _ _)]
  exact perform_contributedRights hkeyed hrights

/-! ### Resolving with the help of the store -/

/-- The call gives a value at the site. -/
def Succeeds {α : Type} (call : Call α) (site : Site) : Prop :=
  ∃ value, (call.perform site).1 = .ok value

theorem succeeds_pure {α : Type} (value : α) (site : Site) : Succeeds (pure value) site :=
  ⟨value, rfl⟩

/-- A reading call in front is known by what it reads. -/
theorem Succeeds.bind {α β : Type} {call : Call α} {next : α → Call β}
    {mid : α → Site → Prop} (h : Succeeds call site) (hreads : call.Reads site mid)
    (hkeyed : site.Keyed)
    (hnext : ∀ value after, site.Learns after → after.Keyed → mid value after →
      Succeeds (next value) after) : Succeeds (call >>= next) site := by
  obtain ⟨value, hvalue⟩ := h
  have hlearns := hreads.learns
  obtain ⟨result, hresult⟩ := hnext value _ hlearns (hlearns.keyed hkeyed) (hreads.post value hvalue)
  refine ⟨result, ?_⟩
  rw [perform_bind]
  rcases hcall : call.perform site with ⟨failure | found, after⟩ <;> rw [hcall] at hvalue hresult
  · cases hvalue
  · cases hvalue
    exact hresult

/-- Nothing stands in the way of what always gives a value. -/
theorem Succeeds.bind_of_forall {α β : Type} {call : Call α} {next : α → Call β}
    (h : Succeeds call site) (hnext : ∀ value after, Succeeds (next value) after) :
    Succeeds (call >>= next) site := by
  obtain ⟨value, hvalue⟩ := h
  unfold Succeeds
  rw [perform_bind]
  rcases hcall : call.perform site with ⟨failure | found, after⟩ <;> rw [hcall] at hvalue
  · cases hvalue
  · exact hnext found after

theorem succeeds_currentNode {α : Type} {next : Node → Call α} (h : Succeeds (next site.node) site) :
    Succeeds (currentNode >>= next) site := by
  obtain ⟨value, hvalue⟩ := h
  refine ⟨value, ?_⟩
  rw [perform_bind, perform_currentNode]
  exact hvalue

/-- What was recalled after some learning the view has shown all along. -/
theorem Learns.view_of_recalled {after : Site} (h : site.Learns after) (hkeyed : site.Keyed) :
    after.node.recalled.Le site.view := by
  rw [← h.view_eq hkeyed]
  exact (h.keyed hkeyed).recalled_le

/-- A store that does not fail answers, and is as it was after it was asked. -/
theorem perform_ask_of_calm {α : Type} {request : StoreCall α} {backed : Store → α → Prop}
    {found : Store → α} (h : Backend.Looks request backed found)
    (wrap : StoreError → AccessError) (hcalm : site.backend.faults = []) :
    (ask wrap request).perform site = (.ok (found site.backend.store), site) := by
  have hbackend : (request.run.run site.backend).2 = site.backend :=
    congrArg₂ Backend.mk (h.store site.backend) ((h.calm site.backend hcalm).trans hcalm.symm)
  rw [perform_ask, h.found site.backend hcalm, hbackend]
  rfl

/-- A policy is given if it is found. -/
theorem policyById_of_calm (hcalm : site.backend.faults = []) (id : UInt64) :
    ((policyById id).perform site).1 =
      if id = 0 then .error .zeroPolicyId
      else (site.view.policy? id).elim (.error (.policyNotFound (toString id))) .ok := by
  unfold policyById readPolicy
  split
  · rfl
  rename_i hid
  have hview : site.view.policy? id =
      (site.node.policies.policy? id).or (site.backend.store.policies.byId? id) := if_neg hid
  rw [hview, perform_bind, perform_currentNode]
  dsimp only
  cases site.node.policies.policy? id with
  | some known => rfl
  | none =>
    have hask := perform_ask_of_calm (Backend.looks_find .policyById fun store => store.policies.byId? id)
      (.store ("policy " ++ toString id)) hcalm
    dsimp only
    rw [perform_bind, show (ask _ (Backend.policyById id)).perform site = _ from hask, Option.none_or]
    cases site.backend.store.policies.byId? id <;> rfl

/-- A group is given if it is found. -/
theorem groupById_of_calm (hcalm : site.backend.faults = []) (id : UInt64) :
    ((groupById id).perform site).1 =
      (site.view.group? id).elim (.error (.groupNotFound (toString id))) .ok := by
  unfold groupById readGroup
  split
  · rename_i hid
    subst hid
    rfl
  rename_i hid
  have hview : site.view.group? id =
      (site.node.groups.group? id).or (site.backend.store.groups.byId? id) := if_neg hid
  rw [hview, perform_bind, perform_currentNode]
  dsimp only
  cases site.node.groups.group? id with
  | some known => rfl
  | none =>
    have hask := perform_ask_of_calm (Backend.looks_find .groupById fun store => store.groups.byId? id)
      (.store ("group " ++ toString id)) hcalm
    dsimp only
    rw [perform_bind, show (ask _ (Backend.groupById id)).perform site = _ from hask, Option.none_or]
    cases site.backend.store.groups.byId? id <;> rfl

/-- A policy that the view shows is found. -/
theorem succeeds_policyById (hcalm : site.backend.faults = []) {id : UInt64} {policy : Policy}
    (h : site.view.policy? id = some policy) : Succeeds (policyById id) site := by
  have hid : id ≠ 0 := by
    rintro rfl
    cases h
  exact ⟨policy, by rw [policyById_of_calm hcalm, if_neg hid, h, Option.elim_some]⟩

theorem succeeds_groupById (hcalm : site.backend.faults = []) {id : UInt64} {group : Group}
    (h : site.view.group? id = some group) : Succeeds (groupById id) site :=
  ⟨group, by rw [groupById_of_calm hcalm, h, Option.elim_some]⟩

/-- A roster that the site has is found, live or stored. -/
theorem succeeds_rosterOf (hcalm : site.backend.faults = []) {policyId : UInt64}
    {roster : Roster} (h : site.roster? policyId = some roster) :
    Succeeds (rosterOf policyId) site := by
  unfold roster? at h
  split at h
  · cases h
  rename_i hid
  unfold rosterOf
  rw [if_neg hid, Succeeds]
  dsimp only
  rw [perform_bind, perform_currentNode]
  dsimp only
  cases hlive : site.node.rosters[policyId]? with
  | some live => exact ⟨live, rfl⟩
  | none =>
    -- not live, so it is stored, and is the record of this policy
    rw [hlive] at h
    obtain ⟨record, hrecord, rfl⟩ := Option.map_eq_some_iff.1 h
    obtain ⟨hstored, hown⟩ := Option.filter_eq_some_iff.1 hrecord
    have hask := perform_ask_of_calm (Backend.looks_rosterOfPolicy policyId)
      (.store ("roster of policy " ++ toString policyId)) hcalm
    rw [hstored] at hask
    dsimp only
    rw [perform_bind, hask]
    dsimp only
    rw [if_neg (by simpa using hown)]
    exact ⟨_, rfl⟩

/-- A lineage that the view shows can be walked up to its end. -/
theorem succeeds_ancestryFrom {groupId : UInt64} {groups : List Group} {view : View}
    (h : view.Lineage groupId groups) (hview : site.view = view) (hkeyed : site.Keyed)
    (hcalm : site.backend.faults = []) {trail : Trail} (hpast : view.Past trail groups) :
    Succeeds (ancestryFrom trail groupId) site := by
  induction h generalizing site trail with
  | root =>
    rw [ancestryFrom, if_pos rfl]
    exact succeeds_pure _ _
  | child nonzero found above ih =>
    have hlineage := View.Lineage.child nonzero found above
    have fresh := hpast.fresh hlineage
    rw [ancestryFrom, if_neg nonzero, dif_pos fresh]
    apply (succeeds_groupById hcalm (hview ▸ found)).bind (reads_groupById hkeyed _) hkeyed
    rintro group after hlearns hkeyed' ⟨hgroup, _⟩
    -- the group that was read is the one of the lineage
    have hfound := (hlearns.view_of_recalled hkeyed).group hgroup
    rw [hview] at hfound
    obtain rfl := Option.some.inj (found.symm.trans hfound)
    have hview' := (hlearns.view_eq hkeyed).trans hview
    have hcalm' := hlearns.still.calm hcalm
    refine (ih hview' hkeyed' hcalm' (hpast.add hlineage fresh)).bind
      (reads_ancestryFrom hkeyed' _ _) hkeyed' fun _ _ _ _ _ => succeeds_pure _ _

/-- The rights of a group are found if it can be followed to a root. -/
theorem succeeds_groupRightsIn (hkeyed : site.Keyed) (hcalm : site.backend.faults = [])
    {policyId groupId : UInt64} {roster : Roster}
    (hlive : site.node.rosters[policyId]? = some roster)
    (hends : ∃ groups, site.view.Lineage groupId groups) :
    Succeeds (groupRightsIn roster groupId) site := by
  obtain ⟨groups, hlineage⟩ := hends
  have hancestry := succeeds_ancestryFrom hlineage rfl hkeyed hcalm (View.past_empty _ _)
  unfold groupRightsIn
  apply Succeeds.bind hancestry (reads_ancestry hkeyed groupId) hkeyed
  rintro found after _ hkeyed' ⟨_, hrosters⟩
  have hlive' : after.node.rosters[policyId]? = some roster := by rw [hrosters, hlive]
  exact ⟨_, rfl⟩

theorem succeeds_groupsRightsIn (hkeyed : site.Keyed) (hcalm : site.backend.faults = [])
    {policyId : UInt64} {roster : Roster} (hid : policyId ≠ 0)
    (hlive : site.node.rosters[policyId]? = some roster) {groupIds : List UInt64}
    (hends : ∀ groupId ∈ groupIds, ∃ groups, site.view.Lineage groupId groups) :
    Succeeds (groupsRightsIn roster groupIds) site := by
  induction groupIds generalizing site roster with
  | nil => exact succeeds_pure _ _
  | cons groupId groupIds ih =>
    have hfirst := hends groupId List.mem_cons_self
    unfold groupsRightsIn
    apply (succeeds_groupRightsIn hkeyed hcalm hlive hfirst).bind
      (reads_groupRightsIn hkeyed hid hlive groupId) hkeyed
    rintro first after hlearns hkeyed' ⟨hlive', _⟩
    -- the view has not changed, so the other lineages end as before
    have hrest : Succeeds (groupsRightsIn first.2 groupIds) after := by
      apply ih hkeyed' (hlearns.still.calm hcalm) hlive'
      intro other hmem
      rw [hlearns.view_eq hkeyed]
      exact hends other (List.mem_cons_of_mem _ hmem)
    exact hrest.bind (reads_groupsRightsIn hkeyed' hid hlive' groupIds) hkeyed'
      fun _ _ _ _ _ => succeeds_pure _ _

/-- What a policy gives by itself is found if its roster is, and if all groups that count
can be followed to a root. -/
theorem succeeds_ownRights (hkeyed : site.Keyed) (hcalm : site.backend.faults = [])
    {policy : Policy} {actor : Actor} {rights : Rights}
    (heveryone : site.view.everyone? policy.id = some rights)
    (hends : ∀ groupId ∈ site.view.groupsConcerning actor,
      ∃ groups, site.view.Lineage groupId groups) :
    Succeeds (ownRights policy actor) site := by
  obtain ⟨roster, hroster, -⟩ := Option.map_eq_some_iff.1 heveryone
  unfold ownRights
  apply (succeeds_rosterOf hcalm hroster).bind (reads_rosterOf hkeyed policy.id) hkeyed
  rintro live after hlearns hkeyed' ⟨hid, hlive⟩
  have hcalm' := hlearns.still.calm hcalm
  rw [← hlearns.view_eq hkeyed] at hends
  unfold View.groupsConcerning at hends
  cases hkind : actor.kind with
  | everyone => exact succeeds_pure _ _
  | user =>
    rw [hkind] at hends
    dsimp only at hends ⊢
    have hgroups := succeeds_groupsRightsIn hkeyed' hcalm' hid hlive hends
    apply succeeds_currentNode
    rw [← GroupIndex.joined_eq]
    exact hgroups.bind (reads_groupsRightsIn hkeyed' hid hlive _) hkeyed' fun _ _ _ _ _ => ⟨_, rfl⟩
  | role | group =>
    rw [hkind] at hends
    exact (succeeds_groupRightsIn hkeyed' hcalm' hlive (hends _ List.mem_cons_self)).bind
      (reads_groupRightsIn hkeyed' hid hlive _) hkeyed' fun _ _ _ _ _ => succeeds_pure _ _

/-- A walk that the view shows can be made. -/
theorem succeeds_contributorsFrom {policyId : UInt64} {path : List UInt64}
    {policies : List Policy} {view : View} (h : view.Walk policyId path policies)
    (hview : site.view = view) (hkeyed : site.Keyed) (hcalm : site.backend.faults = [])
    {trail : Trail} (hpast : view.PastPath trail path) :
    Succeeds (contributorsFrom trail policyId) site := by
  -- the policy that is found is the one of the walk, so the walk goes on as it did there
  have hstep {id : UInt64} {policy : Policy} {trail : Trail} {site : Site}
      (found : view.policy? id = some policy) (hview : site.view = view) (hkeyed : site.Keyed)
      (hcalm : site.backend.faults = []) (fresh : id ∉ trail)
      (hnext : ∀ after, after.view = view → after.Keyed → after.backend.faults = [] →
        Succeeds (if policy.isInherited then
            contributorsFrom (trail.add id fresh) policy.parentId
          else if policy.isExtended then do
            let others ← contributorsFrom (trail.add id fresh) policy.parentId
            pure (policy :: others)
          else pure [policy]) after) :
      Succeeds (contributorsFrom trail id) site := by
    rw [contributorsFrom, dif_pos fresh]
    apply (succeeds_policyById hcalm (hview ▸ found)).bind (reads_policyById hkeyed _) hkeyed
    rintro policy' after hlearns hkeyed' ⟨hpolicy, _⟩
    have hfound := (hlearns.view_of_recalled hkeyed).policy hpolicy
    rw [hview] at hfound
    obtain rfl := Option.some.inj (found.symm.trans hfound)
    exact hnext after ((hlearns.view_eq hkeyed).trans hview) hkeyed' (hlearns.still.calm hcalm)
  induction h generalizing site trail with
  | inherited found hinherited parent ih =>
    have hwalk := View.Walk.inherited found hinherited parent
    have fresh := hpast.fresh hwalk
    apply hstep found hview hkeyed hcalm fresh
    intro after hview' hkeyed' hcalm'
    rw [if_pos hinherited]
    exact ih hview' hkeyed' hcalm' (hpast.add hwalk fresh)
  | extended found hinherited hextended parent ih =>
    have hwalk := View.Walk.extended found hinherited hextended parent
    have fresh := hpast.fresh hwalk
    apply hstep found hview hkeyed hcalm fresh
    intro after hview' hkeyed' hcalm'
    rw [if_neg (by simp [hinherited]), if_pos hextended]
    exact (ih hview' hkeyed' hcalm' (hpast.add hwalk fresh)).bind
      (reads_contributorsFrom hkeyed' _ _) hkeyed' fun _ _ _ _ _ => succeeds_pure _ _
  | alone found hinherited hextended =>
    have fresh := hpast.fresh (View.Walk.alone found hinherited hextended)
    apply hstep found hview hkeyed hcalm fresh
    intro after _ _ _
    rw [if_neg (by simp [hinherited]), if_neg (by simp [hextended])]
    exact succeeds_pure _ _

theorem succeeds_contributedRights (hkeyed : site.Keyed) (hcalm : site.backend.faults = [])
    {actor : Actor} {policies : List Policy}
    (heveryone : ∀ policy ∈ policies, ∃ rights, site.view.everyone? policy.id = some rights)
    (hends : ∀ groupId ∈ site.view.groupsConcerning actor,
      ∃ groups, site.view.Lineage groupId groups) :
    Succeeds (contributedRights actor policies) site := by
  induction policies generalizing site with
  | nil => exact succeeds_pure _ _
  | cons policy policies ih =>
    obtain ⟨rights, hrights⟩ := heveryone policy List.mem_cons_self
    unfold contributedRights
    apply (succeeds_ownRights hkeyed hcalm hrights hends).bind
      (reads_ownRights hkeyed policy actor) hkeyed
    intro own after hlearns hkeyed' _
    have hrest : Succeeds (contributedRights actor policies) after := by
      rw [← hlearns.view_eq hkeyed] at heveryone hends
      exact ih hkeyed' (hlearns.still.calm hcalm)
        (fun other hmem => heveryone other (List.mem_cons_of_mem _ hmem)) hends
    exact hrest.bind (reads_contributedRights hkeyed' actor policies) hkeyed'
      fun _ _ _ _ _ => succeeds_pure _ _

/-- Where all walks end, a resolution gives rights. -/
theorem succeeds_resolve (hkeyed : site.Keyed) (hcalm : site.backend.faults = [])
    {policyId : UInt64} {actor : Actor} (hends : site.view.Ends actor policyId) :
    Succeeds (resolve policyId actor) site := by
  obtain ⟨⟨path, policies, hwalk, heveryone⟩, hgroups⟩ := hends
  -- the policies are found, and they are those of the walk, whose rosters are known
  have hcontributors := succeeds_contributorsFrom hwalk rfl hkeyed hcalm (View.pastPath_empty _ _)
  unfold resolve
  apply Succeeds.bind hcontributors (reads_contributorsFrom hkeyed .empty policyId) hkeyed
  rintro found after hlearns hkeyed' ⟨path', hwalk'⟩
  have hsame := (hwalk'.mono (hlearns.view_of_recalled hkeyed)).unique hwalk
  rw [hsame.2]
  rw [← hlearns.view_eq hkeyed] at heveryone hgroups
  exact succeeds_contributedRights hkeyed' (hlearns.still.calm hcalm) heveryone hgroups

/-! ### The rights of an actor -/

/-- What a resolution gives is what the recursive rules say. -/
theorem effective_of_resolve (hkeyed : site.Keyed) {policyId : UInt64} {actor : Actor}
    {rights : Rights} (h : ((resolve policyId actor).perform site).1 = .ok rights) :
    site.view.Effective actor policyId rights := by
  obtain ⟨hlearns, hrights⟩ := reads_resolve hkeyed policyId actor
  exact (hrights rights h).mono (hlearns.view_of_recalled hkeyed)

/-- As long as the store does not fail, a resolution gives rights exactly where the
recursive rules do, and the same. -/
theorem resolve_eq_ok_iff (hkeyed : site.Keyed) (hcalm : site.backend.faults = [])
    {policyId : UInt64} {actor : Actor} {rights : Rights} :
    ((resolve policyId actor).perform site).1 = .ok rights ↔
      site.view.Effective actor policyId rights := by
  refine ⟨effective_of_resolve hkeyed, fun h => ?_⟩
  -- rules that apply end, so there is an answer, and it is theirs
  obtain ⟨found, hfound⟩ := succeeds_resolve hkeyed hcalm h.ends
  rw [hfound, (effective_of_resolve hkeyed hfound).unique h]

/-- The cache is asked what it serves. -/
theorem perform_cached? (question : RightsQuestion) (site : Site) :
    ((cached? question).perform site).1 = .ok (site.node.served? question) := by
  unfold cached? Node.served?
  rw [perform_bind, perform_currentNode]
  dsimp only
  cases site.node.cache <;> rfl

/-- What is not served from the cache is resolved. -/
theorem effectiveAccess_of_not_served {policyId : UInt64} {actor : Actor}
    (hcold : site.node.served? ⟨policyId, actor.normalize⟩ = none) :
    ∃ after, site.Learns after ∧ ((effectiveAccess policyId actor).perform site).1 =
      ((resolve policyId actor.normalize).perform after).1 := by
  have hcached := perform_cached? ⟨policyId, actor.normalize⟩ site
  have hlearns := (reads_cached? site ⟨policyId, actor.normalize⟩).learns
  rw [hcold] at hcached
  unfold effectiveAccess
  rw [perform_bind]
  generalize (cached? ⟨policyId, actor.normalize⟩).perform site = run at hcached hlearns ⊢
  obtain ⟨result, after⟩ := run
  obtain rfl : result = .ok none := hcached
  refine ⟨after, hlearns, ?_⟩
  dsimp only
  rw [perform_bind, perform_currentNode]
  dsimp only
  rw [perform_bind]
  rcases (resolve policyId actor.normalize).perform after with ⟨failure | rights, last⟩ <;> rfl

/-- Where the walks end and nothing is served from the cache, the rights are those of the
recursive rules: the parent's for an inherited policy, the parent's and its own for an
extended one, its own for any other. -/
theorem effectiveAccess_eq_ok_iff (hkeyed : site.Keyed) (hcalm : site.backend.faults = [])
    {policyId : UInt64} {actor : Actor}
    (hcold : site.node.served? ⟨policyId, actor.normalize⟩ = none)
    (hends : site.view.Ends actor.normalize policyId) :
    (∃ rights, site.view.Effective actor.normalize policyId rights) ∧
      ∀ rights, ((effectiveAccess policyId actor).perform site).1 = .ok rights ↔
        site.view.Effective actor.normalize policyId rights := by
  constructor
  · obtain ⟨rights, hrights⟩ := succeeds_resolve hkeyed hcalm hends
    exact ⟨rights, effective_of_resolve hkeyed hrights⟩
  · intro rights
    obtain ⟨after, hlearns, hresult⟩ := effectiveAccess_of_not_served hcold
    rw [hresult, resolve_eq_ok_iff (hlearns.keyed hkeyed) (hlearns.still.calm hcalm),
      hlearns.view_eq hkeyed]

/-- A folder owned by one user and a page that extends it.  Another user may view the
folder, and is one of the readers, who may change the page. -/
def sharedPage : Site :=
  let readers : Group := ⟨4, 0, .group, "readers", "Readers", default, default⟩
  { node := { groups := (GroupIndex.insert {} readers).link 4 (.user 5) }
    backend := { store := {
      policies := {
        lastId := 2
        policies := ((∅ : Table Policy).insert 1
          ⟨1, 0, 7, some "folder", none, .empty, default, default⟩).insert 2
          ⟨2, 1, 7, some "page", none, .extend, default, default⟩
        rosters := ((∅ : Table RosterRecord).insert 1 ⟨1, ∅, [⟨.user 5, .view⟩]⟩).insert 2
          ⟨2, ∅, [⟨.group 4, .change⟩]⟩ }
      groups := {
        lastId := 4
        groups := (∅ : Table Group).insert 4 readers
        relations := (∅ : Std.ExtTreeSet Relation).insert ⟨4, .user 5⟩ } } } }

theorem keyed_sharedPage : sharedPage.Keyed where
  policy {id policy} h := by
    have h : (((∅ : Table Policy).insert 1 _).insert 2 _)[id]? = some policy := h
    simp only [Std.ExtTreeMap.getElem?_insert] at h
    grind
  group {id group} h := by
    have h : ((∅ : Table Group).insert 4 _)[id]? = some group := h
    simp only [Std.ExtTreeMap.getElem?_insert] at h
    grind
  roster h := by
    simp [sharedPage] at h
  member {id actor} hmember hunknown := by
    have hmember : id ∈ (GroupIndex.link _ 4 (.user 5)).groupsOf actor := hmember
    obtain ⟨rfl, -⟩ | hmember := GroupIndex.mem_groupsOf_link.1 hmember
    · cases hunknown
    · rw [GroupIndex.groupsOf_insert] at hmember
      simp [GroupIndex.groupsOf] at hmember

theorem effectiveAccess_sharedPage :
    ((effectiveAccess 2 (.user 5)).perform sharedPage).1 = .ok (.change ∪ .view) := by
  -- the readers have no parent, so their own cell decides
  have hreaders (policyId : UInt64) (found : Option Rights)
      (hcell : sharedPage.view.cell? policyId (.group 4) = some found) :
      sharedPage.view.OfGroups policyId [4] (found.getD ∅ ∪ ∅) := by
    refine .cons (.intro (.child (by decide) (rfl : sharedPage.view.group? 4 = _) .root) ?_) .nil
    cases found with
    | none => exact .later hcell .none
    | some rights => exact .here hcell
  have hpage := @View.Own.user sharedPage.view
    ⟨2, 1, 7, some "page", none, .extend, default, default⟩ (.user 5) _ _ none rfl
    (rfl : _ = some ∅) (hreaders 2 (some .change) rfl) rfl
  have hfolder := @View.Own.user sharedPage.view
    ⟨1, 0, 7, some "folder", none, .empty, default, default⟩ (.user 5) _ _ (some .view) rfl
    (rfl : _ = some ∅) (hreaders 1 none rfl) rfl
  have hrights : sharedPage.view.Effective (.user 5) 2 (.change ∪ .view) :=
    .extended rfl rfl rfl hpage (.alone rfl rfl rfl hfolder)
  have hiff :=
    @effectiveAccess_eq_ok_iff sharedPage keyed_sharedPage rfl 2 (.user 5) rfl hrights.ends
  exact (hiff.2 _).2 hrights

end Site

end AccessRights
