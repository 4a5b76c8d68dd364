/-
AccessRights/Proofs/Twins.lean

A node and its like over the same store.

Calls that ask about groups use the index only for what it answers, so they
cannot tell indexes that answer alike from each other (`Call.Agrees`).  A node
that only requests about groups are made of mirrors its store at every moment,
and so does any node that has just read all of the store.  Therefore reading
everything anew, or asking a second node over the same store, makes no
difference to what is answered.

Failures are allowed everywhere but where a group is removed.

Main result: `Reached.mirrors`.
-/
import AccessRights.Proofs.Reached
import AccessRights.Proofs.Upkeep

namespace AccessRights

namespace GroupIndex.Alike

variable {index other : GroupIndex}

/-! ### What alike indexes answer -/

/-- Alike indexes find the same groups by number. -/
theorem group? (h : index.Alike other) (id : UInt64) : index.group? id = other.group? id := by
  unfold GroupIndex.group?
  rw [h.byId]

/-- Alike indexes find the same groups by key. -/
theorem groupOfKey? (h : index.Alike other) (key : String) :
    index.groupOfKey? key = other.groupOfKey? key := by
  unfold GroupIndex.groupOfKey? GroupIndex.group?
  rw [h.byKey, h.byId]

theorem isMember (h : index.Alike other) (groupId : UInt64) (asset : Actor) :
    index.isMember groupId asset = other.isMember groupId asset := by
  unfold GroupIndex.isMember
  rw [h.membersOf]

/-- Alike indexes list the same groups of an asset. -/
theorem groupsByAsset (h : index.Alike other) (mask : GroupFlags) (asset : Actor) :
    index.groupsByAsset mask asset = other.groupsByAsset mask asset := by
  unfold GroupIndex.groupsByAsset
  rw [h.groupsOf, funext h.group?]

theorem defaultGroups (h : index.Alike other) : index.defaultGroups = other.defaultGroups := by
  unfold GroupIndex.defaultGroups
  rw [h.defaults, funext h.group?]

/-- Indexes stay alike when they take in the same group. -/
theorem insert (h : index.Alike other) (group : Group) :
    (index.insert group).Alike (other.insert group) := by
  obtain ⟨hbyId, hbyKey, hdefaults, hmembersOf, hgroupsOf⟩ := h
  constructor
  · simp only [GroupIndex.insert, hbyId]
  · simp only [GroupIndex.insert, GroupIndex.group?, hbyId, hbyKey]
  · simp only [GroupIndex.insert, hdefaults]
  · exact hmembersOf
  · exact hgroupsOf

end GroupIndex.Alike

namespace Site

/-- The sites have the same store and plan of faults, and indexes of groups that answer alike. -/
structure Twins (site twin : Site) : Prop where
  groups : site.node.groups.Alike twin.node.groups
  backend : site.backend = twin.backend

end Site

namespace Call

variable {α β : Type}

/-! ### Calls that do not tell twins apart -/

/-- The call gives the same at twins, and they are twins afterwards. -/
def Agrees (call : Call α) : Prop :=
  ∀ site twin : Site, site.Twins twin → (call.perform site).1 = (call.perform twin).1 ∧
    (call.perform site).2.Twins (call.perform twin).2

theorem agrees_pure (value : α) : (pure value : Call α).Agrees := fun _ _ h => ⟨rfl, h⟩

/-- A refusal is the same everywhere. -/
theorem agrees_throw (error : AccessError) : (throw error : Call α).Agrees := fun _ _ h => ⟨rfl, h⟩

/-- Twins take the same course through a sequence, and are twins at every stage of it. -/
theorem Agrees.bind {call : Call α} {next : α → Call β} (h : call.Agrees)
    (hnext : ∀ value, (next value).Agrees) : (call >>= next).Agrees := by
  intro site twin htwins
  obtain ⟨hvalue, hafter⟩ := h site twin htwins
  rw [perform_bind, perform_bind]
  -- one cannot fail where the other goes on
  rcases hrun : call.perform site with ⟨error | value, after⟩ <;>
    rcases hrun' : call.perform twin with ⟨error' | value', after'⟩ <;>
    rw [hrun, hrun'] at hvalue hafter <;> cases hvalue
  · exact ⟨rfl, hafter⟩
  · exact hnext value after after' hafter

theorem Agrees.outcome {call : Call α} (h : call.Agrees) : call.outcome.Agrees := by
  intro site twin htwins
  obtain ⟨hvalue, hafter⟩ := h site twin htwins
  exact ⟨congrArg Except.ok hvalue, hafter⟩

/-- The store answers twins alike, for it is the same store and meets the same faults. -/
theorem agrees_ask (wrap : StoreError → AccessError) (request : StoreCall α) :
    (ask wrap request).Agrees := by
  intro site twin htwins
  rw [perform_ask, perform_ask, htwins.backend]
  exact ⟨rfl, htwins.groups, rfl⟩

/-- What is looked up in the index may be anything that alike indexes answer. -/
theorem agrees_currentNode {next : Node → Call β}
    (halike : ∀ {node other : Node}, node.groups.Alike other.groups → next node = next other)
    (hnext : ∀ node, (next node).Agrees) : (Site.currentNode >>= next).Agrees := by
  intro site twin htwins
  rw [perform_bind, perform_bind, Site.perform_currentNode, Site.perform_currentNode]
  dsimp only
  rw [halike htwins.groups]
  exact hnext _ site twin htwins

end Call

namespace Site

open Call

variable {site twin after : Site}

/-- Twins have the same group in the index, or none, and then take the same one in. -/
theorem agrees_readGroup {indexed : GroupIndex → Option Group}
    (hindexed : ∀ {index other : GroupIndex}, index.Alike other → indexed index = indexed other)
    (context : String) (fetch : StoreCall (Option Group)) (designation : String) :
    (readGroup indexed context fetch designation).Agrees := by
  refine agrees_currentNode (fun halike => ?_) fun node => ?_
  · rw [hindexed halike]
  split
  · exact agrees_pure _
  -- not indexed at either of them, so both ask the store
  refine (agrees_ask _ fetch).bind fun found => ?_
  cases found with
  | none => exact agrees_throw _
  | some group =>
    have hinsert : (editGroups (·.insert group)).Agrees := fun _ _ htwins =>
      ⟨rfl, htwins.groups.insert group, htwins.backend⟩
    exact hinsert.bind fun _ => agrees_pure group

/-- Twins find the same group by number. -/
theorem agrees_groupById (id : UInt64) : (groupById id).Agrees := by
  unfold groupById
  split
  · exact agrees_throw _
  · exact agrees_readGroup (fun h => h.group? id) _ _ _

theorem agrees_groupByKey (key : String) : (groupByKey key).Agrees :=
  agrees_readGroup (fun h => h.groupOfKey? key) _ _ _

/-- Twins walk up along the same groups. -/
theorem agrees_ancestryFrom (trail : Trail) (groupId : UInt64) :
    (ancestryFrom trail groupId).Agrees := by
  -- along the walk: at its end, one group further up, or where it would come round
  fun_induction ancestryFrom trail groupId with
  | case1 => exact agrees_pure _
  | case2 trail groupId _ _ ih =>
    exact (agrees_groupById groupId).bind fun group => (ih group).bind fun _ => agrees_pure _
  | case3 => exact agrees_throw _

/-- So they find the same circles. -/
theorem agrees_isCircuited (groupId : UInt64) : (isCircuited groupId).Agrees := by
  unfold isCircuited
  refine (agrees_ancestryFrom .empty groupId).outcome.bind fun result => ?_
  split
  · exact agrees_pure _
  · exact agrees_pure _
  · exact agrees_throw _

end Site

/-- The request asks about groups, by what identifies them or by their members. -/
def Request.AsksGroups : Request → Prop
  | .groupById _ | .groupByKey _ | .groupsByAsset .. | .members _ | .isMember .. | .defaultGroups
  | .groupCount | .ancestry _ | .isCircuited _ => True
  | _ => False

namespace Site

open Call

variable {site twin after : Site}

/-- What is asked about groups twins answer alike. -/
theorem agrees_answer (now : Timestamp) {request : Request} (hasks : request.AsksGroups) :
    (answer now request).Agrees := by
  cases request with
  | groupById groupId => exact (agrees_groupById groupId).bind fun _ => agrees_pure _
  | groupByKey key => exact (agrees_groupByKey key).bind fun _ => agrees_pure _
  | groupsByAsset mask asset =>
    exact agrees_currentNode (fun h => by rw [h.groupsByAsset]) fun _ => agrees_pure _
  | members groupId => exact agrees_currentNode (fun h => by rw [h.membersOf]) fun _ => agrees_pure _
  | isMember groupId asset =>
    exact agrees_currentNode (fun h => by rw [h.isMember]) fun _ => agrees_pure _
  | defaultGroups => exact agrees_currentNode (fun h => by rw [h.defaultGroups]) fun _ => agrees_pure _
  | groupCount => exact agrees_currentNode (fun h => by rw [h.byId]) fun _ => agrees_pure _
  | ancestry groupId => exact (agrees_ancestryFrom .empty groupId).bind fun _ => agrees_pure _
  | isCircuited groupId => exact (agrees_isCircuited groupId).bind fun _ => agrees_pure _
  | _ => exact hasks.elim

/-! ### Sites in order are twins -/

/-- The site with another plan of faults. -/
def facing (site : Site) (faults : FaultPlan) : Site :=
  { site with backend := { site.backend with faults } }

/-- Whatever is asked about groups, the sites give the same answers. -/
structure AnswersAlike (site twin : Site) : Prop where
  reply (now : Timestamp) {request : Request} : request.AsksGroups →
    ((answer now request).perform site).1 = ((answer now request).perform twin).1
  /-- The ancestors are the same groups, not only groups of the same numbers. -/
  ancestry (groupId : UInt64) :
    ((ancestry groupId).perform site).1 = ((ancestry groupId).perform twin).1

/-- Twins cannot be told apart by asking about groups. -/
theorem Twins.answersAlike (h : site.Twins twin) : site.AnswersAlike twin where
  reply now _ hasks := (agrees_answer now hasks site twin h).1
  ancestry groupId := (agrees_ancestryFrom .empty groupId site twin h).1

/-- A node that has just read all of a store answers like any other that is in order there,
if the same faults are planned for both. -/
theorem answersAlike_of_load (h : site.InOrder) (hstore : site.backend.store.Sound)
    (hsame : twin.backend.store = site.backend.store)
    (hdone : load.perform twin = (.ok (), after)) (faults : FaultPlan) :
    (after.facing faults).AnswersAlike (site.facing faults) := by
  obtain ⟨last, hwaits, ⟨error, hrun⟩ | hrun⟩ := load_ends twin
  · cases hrun.symm.trans hdone
  cases hrun.symm.trans hdone
  -- both indexes reflect the same store, so they are alike
  have hlast : last.backend.store = site.backend.store := hwaits.store.trans hsame
  have hbuilt := GroupIndex.reflects_build hstore h.reflects
  rw [← hlast] at hbuilt
  refine Twins.answersAlike ⟨hbuilt.alike ?_, ?_⟩
  · rw [hlast]
    exact h.reflects
  · exact congrArg (Backend.mk · faults) hlast

/-! ### Nodes that are asked about groups only -/

/-- Only requests about groups are made, of a store that nobody else writes to.  Anything may
fail but the removal of a group and its memberships. -/
def Rules.ofGroups : Rules :=
  ⟨fun site request => request.OfGroups ∧ request.Spared site, (· ≠ .rival), fun _ => False⟩

/-- The index reflects the store after each request about groups, whether it went through
or not. -/
theorem Reached.inOrder (h : site.Reached .ofGroups) : site.InOrder := by
  -- along what has happened to the site; a request keeps it in order by `InOrder.answer`
  induction h with
  | blank config => exact ⟨GroupIndex.reflects_empty, nofun⟩
  | @reopened site after before config done ih =>
    exact @inOrder_of_load ⟨.blank config, site.backend⟩ _ _ before.sound.store ih.reflects ih.alone
      done
  | scheduled _ method planned times ih => exact ⟨ih.reflects, ih.alone.schedule method planned times⟩
  | answered before _ now request asked ih => exact ih.answer before.sound now asked.1 asked.2
  | stepped _ _ _ taken => exact taken.elim

/-- The index of groups says what the store says, and to read it anew makes no difference. -/
structure Mirrors (site : Site) : Prop where
  groups : site.node.groups.byId = site.backend.store.groups.groups
  /-- A key leads to the stored group that has it. -/
  key {key : String} {id : UInt64} : site.node.groups.byKey[key]? = some id ↔
    ∃ group, site.backend.store.groups.byId? id = some group ∧ group.key = key
  default {id : UInt64} : id ∈ site.node.groups.defaults ↔
    ∃ group, site.backend.store.groups.byId? id = some group ∧ group.isDefault = true
  member {id : UInt64} {asset : Actor} : asset ∈ site.node.groups.membersOf id ↔
    (⟨id, asset⟩ : Relation) ∈ site.backend.store.groups.relations
  membership {id : UInt64} {asset : Actor} : id ∈ site.node.groups.groupsOf asset ↔
    (⟨id, asset⟩ : Relation) ∈ site.backend.store.groups.relations
  /-- Reading everything anew changes no answer, whatever faults the questions meet. -/
  reloaded {after : Site} (done : load.perform site = (.ok (), after)) (faults : FaultPlan) :
    (after.facing faults).AnswersAlike (site.facing faults)
  /-- A second node that is opened over the same store gives the same answers. -/
  reopened (config : Config) {plan : FaultPlan} {after : Site}
    (done : load.perform ⟨.blank config, ⟨site.backend.store, plan⟩⟩ = (.ok (), after))
    (faults : FaultPlan) : (after.facing faults).AnswersAlike (site.facing faults)
  /-- Both go through where no fault is planned. -/
  loads (config : Config) : (load.perform (site.facing [])).1 = .ok () ∧
    (load.perform ⟨.blank config, ⟨site.backend.store, []⟩⟩).1 = .ok ()

/-- A node that only requests about groups are made of mirrors its store at every moment. -/
theorem Reached.mirrors (h : site.Reached .ofGroups) : site.Mirrors := by
  have horder := h.inOrder
  have hreflects := horder.reflects
  exact
    { groups := Std.ExtTreeMap.ext_getElem? hreflects.group
      key := by
        intro key id
        rw [hreflects.key, hreflects.group]
      default := by
        intro id
        rw [hreflects.default, hreflects.group]
      member := hreflects.member
      membership := (hreflects.mirrored _ _).trans hreflects.member
      reloaded := fun done faults => answersAlike_of_load horder h.sound.store rfl done faults
      reopened := fun config _ _ done faults => by
        refine answersAlike_of_load horder h.sound.store ?_ done faults
        rfl
      loads := fun _ => ⟨load_of_calm rfl, load_of_calm rfl⟩ }

/-- Two groups with a member each. -/
def crewed : Site :=
  (live ⟨.blank {}, {}⟩ [
    (default, .createGroup ⟨5⟩ 0 "staff" "Staff"),
    (default, .createGroup .group 1 "crew" "Crew"),
    (default, .relate 1 (.user 5)),
    (default, .relate 2 (.user 6))]).2

/-- A member could not be added to the group below. -/
def refused : Site :=
  (live { crewed with backend := { crewed.backend with
      faults := crewed.backend.faults.schedule .createRelation (.failure (.backend "disk full")) 1 } } [
    (default, .relate 2 (.user 7))]).2

/-- That group was removed with the member it had. -/
def disbanded : Site :=
  ((answer default (.deleteGroup 2)).perform refused).2

/-- The groups and their members were made by requests alone. -/
theorem reached_crewed : crewed.Reached .ofGroups := by
  refine (Reached.blank {}).live (fun site => ?_) ⟨by decide +kernel, by decide +kernel⟩
  -- groups are made and members added, at whatever site
  repeat refine List.forall_mem_cons.2 ⟨⟨trivial, trivial⟩, ?_⟩
  exact List.forall_mem_nil _

/-- The store that would not take a member is no other writer. -/
theorem reached_refused : refused.Reached .ofGroups := by
  have hfault : Rules.ofGroups.plans (.failure (.backend "disk full")) := by simp [Rules.ofGroups]
  exact (Reached.scheduled reached_crewed .createRelation hfault 1).live
    (fun site => List.forall_mem_singleton.2 ⟨trivial, trivial⟩)
    ⟨by decide +kernel, by decide +kernel⟩

/-- No failure was planned any more when the group was removed. -/
theorem reached_disbanded : disbanded.Reached .ofGroups := by
  have hcalm : refused.backend.faults = [] := by decide +kernel
  refine reached_refused.answered ⟨by decide +kernel, by decide +kernel⟩ default (.deleteGroup 2)
    ⟨trivial, fun _ => ⟨?_, ?_⟩⟩ <;> rw [hcalm]
  · exact FaultPlan.spares_nil _ _
  · exact FaultPlan.spares_nil _ _

/-- The group that is left and its member are the stored ones, and reading them anew goes
through. -/
theorem mirrors_disbanded : disbanded.Mirrors ∧
    disbanded.node.groups.defaultGroups.map Group.key = ["staff"] ∧
      disbanded.backend.store.groups.allRelations = [⟨1, .user 5⟩] ∧
        (load.perform disbanded).1 = .ok () :=
  ⟨reached_disbanded.mirrors, by decide +kernel, by decide +kernel, by decide +kernel⟩

end Site

end AccessRights
