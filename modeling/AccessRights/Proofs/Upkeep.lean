/-
AccessRights/Proofs/Upkeep.lean

How a node keeps its index of groups up with the store.

A call that changes groups or memberships makes one change in the store first
and the same change in the index next, and a call of the store that fails has
no effect on either.  So a site stays in order, whatever goes wrong.

The one exception is the removal of a group, which passes over failures to
remove its memberships.  There it is assumed that none of these failures is
planned (`Request.Spared`).

Main result: `InOrder.answer`.
-/
import AccessRights.Proofs.Idling
import AccessRights.Proofs.Resolution

namespace AccessRights

namespace Backend

variable {α : Type}

/-! ### Operations on the stored groups -/

/-- The call performs an operation on the groups, unless it meets a failure first. -/
def Performs (request : StoreCall α) (method : StoreMethod)
    (operation : GroupTables → Except StoreError (α × GroupTables)) (backend : Backend) : Prop :=
  request.run.run backend =
    match FaultPlan.next method backend.faults with
    | (.failure error, faults) => (.error error, { backend with faults })
    | (_, faults) => (onGroups operation).run.run { backend with faults }

theorem performs_onGroups (method : StoreMethod)
    (operation : GroupTables → Except StoreError (α × GroupTables)) (backend : Backend) :
    Performs (do
      let _ ← meetFault method
      onGroups operation) method operation backend := by
  unfold Performs
  rw [run_bind, run_meetFault]
  rcases FaultPlan.next method backend.faults with ⟨fault, faults⟩
  cases fault <;> rfl

/-- Without rivals, storing a group is one operation. -/
theorem performs_upsertGroup (group : Group) {backend : Backend} (halone : backend.faults.Alone) :
    Performs (upsertGroup group) .upsertGroup (GroupTables.upsert group) backend := by
  have hfault := (halone.next .upsertGroup).1
  unfold Performs upsertGroup
  rw [run_bind, run_meetFault]
  rcases hnext : FaultPlan.next .upsertGroup backend.faults with ⟨fault, faults⟩
  rw [hnext] at hfault
  cases fault with
  | rival => exact absurd rfl hfault
  | harmless | failure | absence | mismatch => rfl

end Backend

namespace Site

variable {site : Site}

/-- The site after its stored groups were replaced. -/
def storing (site : Site) (groups : GroupTables) : Site :=
  { site with backend := { site.backend with store := { site.backend.store with groups } } }

end Site

namespace Call

variable {α β : Type} {site : Site}

/-! ### Changing the stored groups -/

variable {request : StoreCall α} {method : StoreMethod}
  {operation : GroupTables → Except StoreError (α × GroupTables)}

/-- An operation fails and has no effect, or it goes through.  It fails only where that is
planned or the tables refuse it. -/
theorem ask_performs (h : Backend.Performs request method operation site.backend)
    (wrap : StoreError → AccessError) :
    (((∃ error, (FaultPlan.next method site.backend.faults).1 = .failure error) ∨
        ∃ error, operation site.backend.store.groups = .error error) ∧
      ∃ error, (ask wrap request).perform site = (.error error, site.met method)) ∨
    ∃ value groups, operation site.backend.store.groups = .ok (value, groups) ∧
      (ask wrap request).perform site = (.ok value, (site.met method).storing groups) := by
  unfold Backend.Performs at h
  rw [perform_ask, h]
  unfold Site.met
  rcases FaultPlan.next method site.backend.faults with ⟨fault, faults⟩
  cases fault with
  | failure error => exact .inl ⟨.inl ⟨error, rfl⟩, wrap error, rfl⟩
  | harmless | absence | mismatch | rival =>
    dsimp only
    rw [Backend.run_onGroups]
    dsimp only
    rcases operation site.backend.store.groups with error | ⟨value, groups⟩
    · exact .inl ⟨.inr ⟨error, rfl⟩, wrap error, rfl⟩
    · exact .inr ⟨value, groups, rfl, rfl⟩

/-- So it goes through if no failure is planned and the tables allow it. -/
theorem ask_performs_spared (h : Backend.Performs request method operation site.backend)
    (wrap : StoreError → AccessError)
    (hfault : ∀ error, (FaultPlan.next method site.backend.faults).1 ≠ .failure error)
    {value : α} {groups : GroupTables}
    (hoperation : operation site.backend.store.groups = .ok (value, groups)) :
    (ask wrap request).perform site = (.ok value, (site.met method).storing groups) := by
  obtain ⟨⟨error, hplanned⟩ | ⟨error, hrefused⟩, -⟩ | ⟨value', groups', hdone, hrun⟩ :=
    ask_performs h wrap
  · exact absurd hplanned (hfault error)
  · cases hrefused.symm.trans hoperation
  · cases hdone.symm.trans hoperation
    exact hrun

/-- A call that may fail leaves the site as the attempt does. -/
theorem perform_attempt (wrap : StoreError → AccessError) (request : StoreCall Unit) (site : Site) :
    (attempt request).perform site = (.ok (), ((ask wrap request).perform site).2) := by
  rw [perform_ask]
  rfl

/-- A call that changes the stored groups keeps a site in order if what follows a change makes
the same change in the index. -/
theorem bind_inOrder_of_performs (h : Backend.Performs request method operation site.backend)
    (horder : site.InOrder) (wrap : StoreError → AccessError) {next : α → Call β}
    (hnext : ∀ value groups, operation site.backend.store.groups = .ok (value, groups) →
      ((next value).perform ((site.met method).storing groups)).2.InOrder) :
    ((ask wrap request >>= next).perform site).2.InOrder := by
  rw [perform_bind]
  obtain ⟨-, error, hrun⟩ | ⟨value, groups, hoperation, hrun⟩ := ask_performs h wrap <;> rw [hrun]
  · exact horder.met method
  · exact hnext value groups hoperation

end Call

namespace Site

open Call

variable {site after : Site}

/-! ### Loading -/

/-- Reading everything anew puts an index in place that reflects the store, if any does. -/
theorem inOrder_reloaded {index : GroupIndex} (hstore : site.backend.store.Sound)
    (hindex : index.Reflects site.backend.store.groups) (halone : site.backend.faults.Alone) :
    site.reloaded.InOrder :=
  ⟨GroupIndex.reflects_build hstore hindex, halone⟩

/-- To read everything uses up two faults at most. -/
theorem idles_readAll (site : Site) : readAll.Idles site :=
  (idles_ask Backend.uses_allGroups nofun nofun _).bind fun _ _ _ =>
    (idles_ask Backend.uses_allRelations nofun nofun _).bind fun _ _ _ => idles_pure _

/-- Only faults are used up before the index is replaced. -/
theorem load_ends (site : Site) : ∃ last, site.Waits last ∧
    ((∃ error, load.perform site = (.error error, last)) ∨
      load.perform site = (.ok (), last.reloaded)) := by
  have hidle := idles_readAll site
  unfold Idles at hidle
  rw [load_eq, perform_bind]
  obtain ⟨error, last, -, hrun⟩ | ⟨_, last, -, rfl, hrun⟩ := (reads_readAll site).cases <;>
    rw [hrun] at hidle ⊢
  · exact ⟨last, hidle, .inl ⟨error, rfl⟩⟩
  · exact ⟨last, hidle, .inr rfl⟩

/-- Reading everything goes through where no fault is planned. -/
theorem load_of_calm (hcalm : site.backend.faults = []) : (load.perform site).1 = .ok () := by
  unfold load
  rw [perform_bind, perform_ask_of_calm Backend.looks_allGroups _ hcalm]
  dsimp only
  rw [perform_bind, perform_ask_of_calm Backend.looks_allRelations _ hcalm]
  rfl

/-- A node that could read everything over a store that some index reflects is in order. -/
theorem inOrder_of_load {index : GroupIndex} (hstore : site.backend.store.Sound)
    (hindex : index.Reflects site.backend.store.groups) (halone : site.backend.faults.Alone)
    (hdone : load.perform site = (.ok (), after)) : after.InOrder := by
  obtain ⟨last, hwaits, ⟨error, hrun⟩ | hrun⟩ := load_ends site
  · cases hrun.symm.trans hdone
  · cases hrun.symm.trans hdone
    have hsame := hwaits.store
    exact inOrder_reloaded (hsame ▸ hstore) (hsame ▸ hindex) (hwaits.alone halone)

theorem InOrder.load (h : site.InOrder) (hstore : site.backend.store.Sound) :
    (load.perform site).2.InOrder := by
  obtain ⟨last, hwaits, ⟨error, hrun⟩ | hrun⟩ := load_ends site <;> rw [hrun]
  · exact hwaits.inOrder h
  · have hlast := hwaits.inOrder h
    exact inOrder_reloaded (hwaits.store ▸ hstore) hlast.reflects hlast.alone

/-! ### Changing the forest -/

/-- A group that the store has taken is taken in. -/
theorem InOrder.storeGroup (h : site.InOrder) (hstore : site.backend.store.Sound)
    (wrap : StoreError → AccessError) (group : Group) :
    ((storeGroup wrap group).perform site).2.InOrder := by
  unfold Site.storeGroup
  refine bind_inOrder_of_performs (Backend.performs_upsertGroup group h.alone) h wrap
    fun stored groups hupsert => ?_
  exact ⟨h.reflects.upsert hstore.groups hupsert, (h.alone.next _).2⟩

/-- It makes no difference what was checked before, since checking finds nothing new. -/
theorem InOrder.bind_storeGroup (h : site.InOrder) (hstore : site.backend.store.Sound)
    {check : Call Group} (hcheck : Composed Idling check site) (wrap : StoreError → AccessError) :
    ((check >>= Site.storeGroup wrap).perform site).2.InOrder :=
  (hcheck.idles h).bind_inOrder h fun group _ _ hlast =>
    (hlast.inOrder h).storeGroup (hlast.store ▸ hstore) wrap group

theorem InOrder.createGroup (h : site.InOrder) (hstore : site.backend.store.Sound)
    (now : Timestamp) (flags : GroupFlags) (parentId : UInt64) (key displayName : String) :
    ((createGroup now flags parentId key displayName).perform site).2.InOrder := by
  rw [createGroup_eq]
  exact h.bind_storeGroup hstore (composed_groupToCreate idling_groupById idling_groupByKey now
    flags parentId displayName site) _

theorem InOrder.updateGroup (h : site.InOrder) (hstore : site.backend.store.Sound)
    (now : Timestamp) (group : Group) : ((updateGroup now group).perform site).2.InOrder := by
  rw [updateGroup_eq]
  exact h.bind_storeGroup hstore
    (composed_groupToUpdate idling_groupById idling_groupByKey now site) _

theorem InOrder.moveGroup (h : site.InOrder) (hstore : site.backend.store.Sound)
    (now : Timestamp) (groupId parentId : UInt64) :
    ((moveGroup now groupId parentId).perform site).2.InOrder := by
  rw [moveGroup_eq]
  exact h.bind_storeGroup hstore
    (composed_groupToMove idling_groupById now groupId parentId site) _

/-! ### Memberships -/

/-- The index knows every membership that the store has. -/
theorem InOrder.not_unseen (h : site.InOrder) (groupId : UInt64) (asset : Actor) :
    ¬ site.Unseen groupId asset :=
  fun hunseen => hunseen.unknown (h.reflects.member.2 hunseen.stored)

/-- To check whether there is a membership finds nothing new. -/
theorem InOrder.idles_checkNew (h : site.InOrder) (groupId : UInt64) (asset : Actor) :
    (checkNew groupId asset).Idles site :=
  (composed_checkNew idling_groupById idling_hasRelation site).idles h

theorem InOrder.idles_checkMember (h : site.InOrder) (groupId : UInt64) (asset : Actor) :
    (checkMember groupId asset).Idles site :=
  (composed_checkMember idling_hasRelation site).idles h

/-- An asset becomes a member in the store and in the index, or in neither. -/
theorem InOrder.relate (h : site.InOrder) (hkeyed : site.Keyed) (groupId : UInt64)
    (asset : Actor) : ((relate groupId asset).perform site).2.InOrder := by
  rw [relate_eq]
  refine (h.idles_checkNew groupId asset).bind_inOrder h fun stored last hrun hlast => ?_
  obtain ⟨-, hunseen, -⟩ :=
    (reads_checkNew hkeyed groupId asset).post stored (congrArg Prod.fst hrun)
  cases stored with
  | true => exact absurd (hunseen.1 rfl) (h.not_unseen groupId asset)
  | false =>
    have h := hlast.inOrder h
    refine bind_inOrder_of_performs (Backend.performs_onGroups _ _ _) h _
      fun _ groups hrelate => ?_
    obtain ⟨-, rfl⟩ := GroupTables.relate_eq_ok hrelate
    exact ⟨h.reflects.link groupId asset, (h.alone.next _).2⟩

/-- A membership ends in both as well. -/
theorem InOrder.unrelate (h : site.InOrder) (groupId : UInt64) (asset : Actor) :
    ((unrelate groupId asset).perform site).2.InOrder := by
  rw [unrelate_eq]
  refine (h.idles_checkMember groupId asset).bind_inOrder h fun _ last _ hlast => ?_
  have h := hlast.inOrder h
  refine bind_inOrder_of_performs (Backend.performs_onGroups _ _ _) h _
    fun _ groups hunrelate => ?_
  cases hunrelate
  exact ⟨h.reflects.unlink groupId asset, (h.alone.next _).2⟩

/-- So it goes with one group after the other. -/
theorem InOrder.joinAll (h : site.InOrder) (hsound : site.Sound) (asset : Actor)
    (groupIds : List UInt64) : ((joinAll asset groupIds).perform site).2.InOrder :=
  joinAll_keeps (fun site after => site.InOrder → after.InOrder) (fun _ h => h)
    (fun hfirst hrest h => hrest (hfirst h))
    (fun _ hsound groupId _ h => h.relate hsound.keyed groupId asset) hsound h

theorem InOrder.joinDefaults (h : site.InOrder) (hsound : site.Sound) (asset : Actor) :
    ((joinDefaults asset).perform site).2.InOrder := by
  unfold Site.joinDefaults
  refine (h.idles_checkAsset asset).bind_inOrder h fun _ first hrun _ => ?_
  -- to check the asset leaves everything as it is
  have hpost := (reads_checkAsset asset).post () (congrArg Prod.fst hrun)
  rw [hrun] at hpost
  obtain rfl : first = site := hpost
  rw [perform_bind, perform_currentNode]
  exact h.joinAll hsound asset _

/-! ### Removing groups -/

/-- Memberships of a group were removed from the store, and nothing else was. -/
structure Dropped (site after : Site) (groupId : UInt64) (assets : List Actor) : Prop where
  node : after.node = site.node
  alone : after.backend.faults.Alone
  spares (count : Nat) : after.backend.faults.Spares .deleteGroup count ↔
    site.backend.faults.Spares .deleteGroup count
  store : ∃ relations : Std.ExtTreeSet Relation,
    after.backend.store = { site.backend.store with
      groups := { site.backend.store.groups with relations } } ∧
    ∀ relation, relation ∈ relations ↔ relation ∈ site.backend.store.groups.relations ∧
      ¬ (relation.groupId = groupId ∧ relation.asset ∈ assets)

/-- Where no failure is planned for it, memberships are removed from the store one by one. -/
theorem dropRelations_spared (halone : site.backend.faults.Alone) (groupId : UInt64)
    {assets : List Actor} (hspares : site.backend.faults.Spares .deleteRelation assets.length) :
    ∃ after, (dropRelations groupId assets).perform site = (.ok (), after) ∧
      site.Dropped after groupId assets := by
  induction assets generalizing site with
  | nil => exact ⟨site, rfl, rfl, halone, fun _ => Iff.rfl, _, rfl, by simp⟩
  | cons asset assets ih =>
    obtain ⟨hfault, hspares⟩ := hspares
    have hfirst := ask_performs_spared (Backend.performs_onGroups .deleteRelation
      (GroupTables.unrelate groupId asset) site.backend) (.store "") hfault rfl
    -- the first membership is gone, and no failure is planned for the rest either
    obtain ⟨after, hrun, hdropped⟩ := @ih ((site.met .deleteRelation).storing _)
      (halone.next _).2 hspares
    refine ⟨after, ?_, hdropped.node, hdropped.alone, fun count => ?_, ?_⟩
    · unfold dropRelations
      rw [perform_bind, perform_attempt (.store "")]
      dsimp only
      rw [← hrun]
      exact congrArg _ (congrArg Prod.snd hfirst)
    · have hother : StoreMethod.deleteGroup ≠ .deleteRelation := by decide
      exact (hdropped.spares count).trans (FaultPlan.spares_next_iff hother)
    · obtain ⟨relations, hstore, hrelations⟩ := hdropped.store
      refine ⟨relations, hstore, ?_⟩
      rintro ⟨id, other⟩
      refine (hrelations ⟨id, other⟩).trans ?_
      show (_ ∈ site.backend.store.groups.relations.erase ⟨groupId, asset⟩) ∧ _ ↔ _
      rw [mem_erase_iff, Ne, Relation.mk.injEq, List.mem_cons]
      grind

/-- A stored group is removed together with its memberships, where no failure is planned. -/
theorem InOrder.removeWith (h : site.InOrder) {groupId : UInt64} {group : Group}
    (hstored : site.backend.store.groups.byId? groupId = some group)
    (hrelations : site.backend.faults.Spares .deleteRelation
      (site.node.groups.membersOf groupId).toList.length)
    (hgroup : site.backend.faults.Spares .deleteGroup 1) :
    ((removeWith groupId (site.node.groups.membersOf groupId).toList).perform site).2.InOrder := by
  obtain ⟨last, hrun, hdropped⟩ := dropRelations_spared h.alone groupId hrelations
  obtain ⟨relations, hstore, hleft⟩ := hdropped.store
  have hperforms : Backend.Performs (Backend.deleteGroup groupId) .deleteGroup
      (GroupTables.delete groupId) last.backend := Backend.performs_onGroups _ _ _
  have hdelete : GroupTables.delete groupId last.backend.store.groups = .ok ((),
      { site.backend.store.groups with
        groups := site.backend.store.groups.groups.erase groupId, relations }) := by
    rw [hstore]
    unfold GroupTables.delete
    rw [show GroupTables.byId? { site.backend.store.groups with relations } groupId = _ from hstored]
  unfold Site.removeWith
  rw [perform_bind, hrun]
  dsimp only
  rw [perform_bind, ask_performs_spared hperforms _ ((hdropped.spares 1).2 hgroup).1 hdelete]
  refine ⟨?_, (hdropped.alone.next _).2⟩
  show (last.node.groups.remove groupId).Reflects _
  rw [hdropped.node]
  refine h.reflects.remove hstored ?_
  rintro ⟨id, asset⟩
  refine (hleft _).trans ?_
  rw [Std.ExtTreeSet.mem_toList, h.reflects.member]
  grind

/-- The removal of a group gets as far as its memberships. -/
structure Removes (site : Site) (groupId : UInt64) : Prop where
  known : ∃ group, site.node.groups.group? groupId = some group
  stored : ((Backend.childGroups groupId).run.run site.backend).1 = .ok []
  childless : site.node.groups.hasChildren groupId = false

/-- No failure is planned for the removal of a group and its memberships. -/
structure SparesRemoval (site : Site) (groupId : UInt64) : Prop where
  relations : site.backend.faults.Spares .deleteRelation
    (site.node.groups.membersOf groupId).toList.length
  group : site.backend.faults.Spares .deleteGroup 1

theorem InOrder.idles_checkRemoval (h : site.InOrder) (groupId : UInt64) :
    (checkRemoval groupId).Idles site := by
  have hask (wrap : StoreError → AccessError) (site : Site) :
      Idling _ (ask wrap (Backend.childGroups groupId)) site :=
    fun _ => idles_ask (Backend.uses_childGroups groupId) nofun nofun wrap
  exact (composed_checkRemoval idling_groupById hask site).idles h

/-- What is known once the checks have passed. -/
theorem InOrder.removes_of_checked (h : site.InOrder) (hkeyed : site.Keyed) {groupId : UInt64}
    {members : List Actor} (hchecked : (checkRemoval groupId).perform site = (.ok members, after)) :
    site.Removes groupId ∧ members = (site.node.groups.membersOf groupId).toList := by
  unfold checkRemoval at hchecked
  rw [perform_bind] at hchecked
  have hidle := h.idles_groupById groupId
  unfold Idles at hidle
  obtain ⟨error, first, -, hrun⟩ | ⟨group, first, -, ⟨hfound, -⟩, hrun⟩ :=
    (reads_groupById hkeyed groupId).cases
  · rw [hrun] at hchecked
    cases hchecked
  -- what was found is in the index, so the store was not asked
  rw [hrun] at hidle
  rw [hidle.node] at hfound
  obtain ⟨-, hknown⟩ := indexed_of_recalled hfound
  rw [perform_groupById hfound] at hchecked
  dsimp only at hchecked
  rw [perform_bind, perform_ask, Backend.uses_childGroups] at hchecked
  cases hchildren : ((Backend.childGroups groupId).run.run site.backend).1 with
  | error error =>
    rw [hchildren] at hchecked
    cases hchecked
  | ok children =>
    rw [hchildren] at hchecked
    dsimp only [Except.mapError] at hchecked
    split at hchecked
    · cases hchecked
    rename_i hempty
    rw [perform_bind, perform_currentNode] at hchecked
    dsimp only at hchecked
    split at hchecked
    · cases hchecked
    rename_i hchildless
    cases hchecked
    have hnone : children = [] := by simpa using hempty
    exact ⟨⟨⟨group, hknown⟩, hnone ▸ hchildren, by simpa using hchildless⟩, rfl⟩

theorem InOrder.deleteGroup (h : site.InOrder) (hkeyed : site.Keyed) {groupId : UInt64}
    (hspared : site.Removes groupId → site.SparesRemoval groupId) :
    ((deleteGroup groupId).perform site).2.InOrder := by
  have hidle := h.idles_checkRemoval groupId
  unfold Idles at hidle
  rw [deleteGroup_eq, perform_bind]
  rcases hrun : (checkRemoval groupId).perform site with ⟨error | members, last⟩ <;>
    rw [hrun] at hidle
  · exact hidle.inOrder h
  obtain ⟨hremoves, rfl⟩ := h.removes_of_checked hkeyed hrun
  obtain ⟨group, hknown⟩ := hremoves.known
  have hspares := hspared hremoves
  have hlast := hidle.inOrder h
  -- the checks have left the index as it is, and the plan for removals
  have hrelations := hidle.spares (.inl rfl) hspares.relations
  rw [← hidle.node] at hknown hrelations ⊢
  have hstored := (hlast.reflects.group groupId).symm.trans hknown
  exact hlast.removeWith hstored hrelations (hidle.spares (.inr rfl) hspares.group)

end Site

namespace Request

/-! ### Requests about groups -/

/-- The request concerns groups and memberships only. -/
def OfGroups : Request → Prop
  | .createGroup .. | .updateGroup _ | .moveGroup .. | .deleteGroup _ | .groupById _
  | .groupByKey _ | .groupByName .. | .groupsByAsset .. | .relate .. | .unrelate .. | .members _
  | .isMember .. | .joinDefaults _ | .defaultGroups | .groupCount | .ancestry _ | .isCircuited _
  | .load => True
  | _ => False

/-- If the request removes a group, no failure is planned for that. -/
def Spared (site : Site) : Request → Prop
  | .deleteGroup groupId => site.Removes groupId → site.SparesRemoval groupId
  | _ => True

end Request

namespace Site

open Call

variable {site : Site}

/-- A site stays in order whatever is asked about groups, and whatever goes wrong but for the
removal of a group. -/
theorem InOrder.answer (h : site.InOrder) (hsound : site.Sound) (now : Timestamp)
    {request : Request} (hgroups : request.OfGroups) (hspared : request.Spared site) :
    ((answer now request).perform site).2.InOrder := by
  have hreply {α : Type} {call : Call α} (hcall : (call.perform site).2.InOrder)
      (reply : α → Reply) : ((call >>= fun value => pure (reply value)).perform site).2.InOrder := by
    rw [snd_perform_bind fun _ _ => rfl]
    exact hcall
  have hstore := hsound.store
  cases request with
  | createGroup flags parentId key displayName =>
    exact hreply (h.createGroup hstore now flags parentId key displayName) _
  | updateGroup group => exact hreply (h.updateGroup hstore now group) _
  | moveGroup groupId parentId => exact hreply (h.moveGroup hstore now groupId parentId) _
  | deleteGroup groupId => exact hreply (h.deleteGroup hsound.keyed hspared) _
  | groupById groupId => exact hreply ((h.idles_groupById groupId).inOrder h) _
  | groupByKey key => exact hreply ((h.idles_groupByKey key).inOrder h) _
  | groupByName turn name => exact hreply ((h.idles_groupByName turn name).inOrder h) _
  | relate groupId asset => exact hreply (h.relate hsound.keyed groupId asset) _
  | unrelate groupId asset => exact hreply (h.unrelate groupId asset) _
  | joinDefaults asset => exact hreply (h.joinDefaults hsound asset) _
  -- these only look at the index
  | groupsByAsset | members | isMember | defaultGroups | groupCount => exact h
  | ancestry groupId => exact hreply ((h.idles_ancestry groupId).inOrder h) _
  | isCircuited groupId => exact hreply ((h.idles_isCircuited groupId).inOrder h) _
  | load => exact hreply (h.load hstore) _
  | _ => exact hgroups.elim

end Site

end AccessRights
