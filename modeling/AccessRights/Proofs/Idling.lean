/-
AccessRights/Proofs/Idling.lean

Calls that find nothing new.

While nobody else writes to the store, the index of groups reflects it
(`Site.InOrder`).  Calls that look groups up find nothing then that the index
lacks, so they change nothing but the plan of faults, whether they succeed or
fail (`Call.Idles`).  The parts of these calls idle, and so do the calls
(`Composed.idles`).  A site stays in order meanwhile, and what is planned for
calls that remove something stays planned (`Site.Waits`).

Main results: `Composed.idles` and `Idles.bind_inOrder`.
-/
import AccessRights.Proofs.Answering
import AccessRights.Proofs.Faults
import AccessRights.Proofs.Reflection

namespace AccessRights

namespace Backend

variable {α : Type}

/-! ### Calls of the store and their faults -/

/-- All that the call does to the backend is to use up a fault of the method. -/
def Uses (request : StoreCall α) (method : StoreMethod) : Prop :=
  ∀ backend, (request.run.run backend).2 =
    { backend with faults := (FaultPlan.next method backend.faults).2 }

/-- A call of the store uses up the fault that it meets, if what it does then is only to
answer. -/
theorem uses_meetFault (method : StoreMethod) {next : Fault → StoreCall α}
    (hnext : ∀ fault backend, ((next fault).run.run backend).2 = backend) :
    Uses (meetFault method >>= next) method := by
  intro backend
  rw [run_bind, run_meetFault]
  rcases FaultPlan.next method backend.faults with ⟨fault, faults⟩
  cases fault <;> first | rfl | exact hnext _ _

/-- A question for one thing changes nothing in the store. -/
theorem uses_find (method : StoreMethod) (look : Store → Option α) : Uses (find method look) method :=
  uses_meetFault method fun fault _ => by cases fault <;> rfl

theorem uses_childGroups (parentId : UInt64) : Uses (childGroups parentId) .childGroups :=
  uses_meetFault .childGroups fun fault _ => by cases fault <;> rfl

theorem uses_allGroups : Uses allGroups .allGroups :=
  uses_meetFault .allGroups fun _ _ => rfl

theorem uses_allRelations : Uses allRelations .allRelations :=
  uses_meetFault .allRelations fun _ _ => rfl

theorem uses_hasRelation (groupId : UInt64) (asset : Actor) :
    Uses (hasRelation groupId asset) .hasRelation :=
  uses_meetFault .hasRelation fun _ _ => rfl

end Backend

namespace Site

open Call

variable {site after last : Site}

/-! ### Meeting faults -/

/-- The site after a fault of the method has been used up. -/
def met (site : Site) (method : StoreMethod) : Site :=
  { site with backend := { site.backend with
      faults := (FaultPlan.next method site.backend.faults).2 } }

/-- Nothing has changed but that some faults were used up, none of them for removals. -/
inductive Waits : Site → Site → Prop
  | refl (site : Site) : Waits site site
  | step {site after : Site} (method : StoreMethod) (hrelation : method ≠ .deleteRelation)
      (hgroup : method ≠ .deleteGroup) (rest : Waits (site.met method) after) : Waits site after

/-- Faults that are used up one after the other are all used up. -/
theorem Waits.trans (h : site.Waits after) (h' : after.Waits last) : site.Waits last := by
  induction h with
  | refl => exact h'
  | step method hrelation hgroup _ ih => exact .step method hrelation hgroup (ih h')

/-- The node takes no notice. -/
theorem Waits.node (h : site.Waits after) : after.node = site.node := by
  induction h with
  | refl => rfl
  | step _ _ _ _ ih => exact ih

/-- Nor does the store. -/
theorem Waits.store (h : site.Waits after) : after.backend.store = site.backend.store := by
  induction h with
  | refl => rfl
  | step _ _ _ _ ih => exact ih

/-- No other writer is planned where there was none. -/
theorem Waits.alone (h : site.Waits after) (halone : site.backend.faults.Alone) :
    after.backend.faults.Alone := by
  induction h with
  | refl => exact halone
  | step method _ _ _ ih => exact ih (halone.next method).2

/-- What is planned for removals stays planned, since none of the faults was for one. -/
theorem Waits.spares (h : site.Waits after) {method : StoreMethod}
    (hmethod : method = .deleteRelation ∨ method = .deleteGroup) {count : Nat}
    (hspares : site.backend.faults.Spares method count) :
    after.backend.faults.Spares method count := by
  induction h with
  | refl => exact hspares
  | step other hrelation hgroup _ ih =>
    -- the fault is one of another call, so the count for this one stays
    refine ih ((FaultPlan.spares_next_iff ?_).2 hspares)
    obtain rfl | rfl := hmethod
    · exact hrelation.symm
    · exact hgroup.symm

/-! ### Sites in order -/

/-- The index of groups reflects the store, and no other writer is planned. -/
structure InOrder (site : Site) : Prop where
  reflects : site.node.groups.Reflects site.backend.store.groups
  alone : site.backend.faults.Alone

/-- A site stays in order while faults are used up. -/
theorem Waits.inOrder (h : site.Waits after) (horder : site.InOrder) : after.InOrder := by
  refine ⟨?_, h.alone horder.alone⟩
  rw [h.node, h.store]
  exact horder.reflects

theorem InOrder.met (h : site.InOrder) (method : StoreMethod) : (site.met method).InOrder :=
  ⟨h.reflects, (h.alone.next method).2⟩

end Site

namespace Call

variable {α β : Type} {site : Site}

/-! ### Calls that change nothing -/

/-- The call changes nothing at the site but the plan of faults. -/
def Idles (call : Call α) (site : Site) : Prop :=
  site.Waits (call.perform site).2

theorem idles_pure (value : α) : (pure value : Call α).Idles site := .refl site

theorem idles_throw (error : AccessError) : (throw error : Call α).Idles site := .refl site

theorem idles_liftExcept (result : Except AccessError α) : (liftExcept result : Call α).Idles site := by
  unfold Idles
  rw [perform_liftExcept]
  exact .refl site

/-- Calls of a sequence that change nothing leave the site as it was in the end. -/
theorem Idles.bind {call : Call α} {next : α → Call β} (h : call.Idles site)
    (hnext : ∀ value after, call.perform site = (.ok value, after) → (next value).Idles after) :
    (call >>= next).Idles site := by
  unfold Idles at *
  rw [perform_bind]
  rcases hrun : call.perform site with ⟨error | value, after⟩ <;> rw [hrun] at h
  · exact h
  · exact h.trans (hnext value after hrun)

/-- To look at the memory of the node leaves it as it is. -/
theorem idles_currentNode {next : Node → Call β} (h : (next site.node).Idles site) :
    (Site.currentNode >>= next).Idles site := by
  unfold Idles
  rw [perform_bind, Site.perform_currentNode]
  exact h

/-- To ask the store for anything but a removal uses up a fault at most. -/
theorem idles_ask {request : StoreCall α} {method : StoreMethod} (h : Backend.Uses request method)
    (hrelation : method ≠ .deleteRelation) (hgroup : method ≠ .deleteGroup)
    (wrap : StoreError → AccessError) : (ask wrap request).Idles site := by
  unfold Idles
  rw [perform_ask, h]
  exact .step method hrelation hgroup (.refl _)

/-- Where a call begins by changing nothing, all depends on the rest. -/
theorem Idles.bind_inOrder {call : Call α} {next : α → Call β} (h : call.Idles site)
    (horder : site.InOrder)
    (hnext : ∀ value after, call.perform site = (.ok value, after) → site.Waits after →
      ((next value).perform after).2.InOrder) :
    ((call >>= next).perform site).2.InOrder := by
  unfold Idles at h
  rw [perform_bind]
  rcases hrun : call.perform site with ⟨error | value, after⟩ <;> rw [hrun] at h
  · exact h.inOrder horder
  · exact hnext value after hrun h

/-- A call that changes nothing leaves a site in order. -/
theorem Idles.inOrder {call : Call α} (h : call.Idles site) (horder : site.InOrder) :
    (call.perform site).2.InOrder :=
  Site.Waits.inOrder h horder

/-- Parts of calls that find nothing new where the index reflects the store. -/
def Idling (α : Type) (call : Call α) (site : Site) : Prop :=
  site.InOrder → call.Idles site

/-- Calls whose parts find nothing new find nothing new, since the site stays in order. -/
theorem Composed.idles {call : Call α} (h : Composed Idling call site) (horder : site.InOrder) :
    call.Idles site := by
  induction h with
  | part whole => exact whole horder
  | value value => exact idles_pure value
  | refusal error => exact idles_throw error
  | lifted result => exact idles_liftExcept result
  | bind _ _ ih ihnext =>
    -- the second call starts at a site that is still in order
    refine (ih horder).bind fun value after hrun => ihnext value after hrun ?_
    have hafter := (ih horder).inOrder horder
    rwa [hrun] at hafter
  | outcome _ ih => exact ih horder
  | look _ _ ih => exact idles_currentNode (ih horder)

end Call

namespace Site

open Call

variable {site after : Site}

/-! ### Finding groups -/

/-- Where the index lacks nothing of what the store has, nothing is taken in. -/
theorem idles_readGroup {indexed : GroupIndex → Option Group} {look : Store → Option Group}
    (hknown : indexed site.node.groups = none → look site.backend.store = none)
    {method : StoreMethod} (hrelation : method ≠ .deleteRelation) (hgroup : method ≠ .deleteGroup)
    (context designation : String) :
    (readGroup indexed context (Backend.find method look) designation).Idles site := by
  unfold readGroup
  refine idles_currentNode ?_
  cases hindexed : indexed site.node.groups with
  | some group => exact idles_pure group
  | none =>
    -- the index lacks it, so the store is asked, and has nothing to add
    dsimp only
    have hask := @idles_ask _ site _ _ (Backend.uses_find method look) hrelation hgroup (.store context)
    have hbacked := (reads_ask (Backend.looks_find method look) (.store context) site).post
    unfold Idles at hask ⊢
    rw [perform_bind]
    rcases hrun : (ask (.store context) (Backend.find method look)).perform site with
      ⟨error | found, after⟩ <;> rw [hrun] at hask hbacked
    · exact hask
    · cases found with
      | none => exact hask
      | some group =>
        -- what the store gives it has, against what the index says
        have hstored := (hbacked _ rfl).1 group rfl
        rw [hknown hindexed] at hstored
        cases hstored

/-- A number that the index lacks is that of no stored group. -/
theorem InOrder.unknown_id (h : site.InOrder) {id : UInt64} (hid : site.node.groups.group? id = none) :
    site.backend.store.groups.byId? id = none := by
  rw [← h.reflects.group, hid]

/-- A key that leads nowhere in the index belongs to no stored group. -/
theorem InOrder.unknown_key (h : site.InOrder) {key : String}
    (hkey : site.node.groups.groupOfKey? key = none) :
    site.backend.store.groups.byKey? key = none := by
  cases hstored : site.backend.store.groups.byKey? key with
  | none => rfl
  | some group =>
    obtain ⟨id, hid⟩ := GroupTables.byKey?_eq_some hstored
    have hown : group.key = key := by simpa using List.find?_some hstored
    have hindexed : site.node.groups.group? id = some group := (h.reflects.group id).trans hid
    -- a stored group is indexed, and its key leads to it
    have hlead := h.reflects.key.2 ⟨group, hindexed, hown⟩
    unfold GroupIndex.groupOfKey? at hkey
    simp [hlead, hindexed] at hkey

/-- A name that the index does not have is that of no stored group either. -/
theorem InOrder.unknown_name (h : site.InOrder) {turn : Nat} {name : String}
    (hname : site.node.groups.groupOfName? turn name = none) :
    site.backend.store.groups.byName? name = none := by
  -- the namesakes in the index are those in the store
  have hrows : site.node.groups.byId = site.backend.store.groups.groups :=
    Std.ExtTreeMap.ext_getElem? h.reflects.group
  have hnone := GroupIndex.groupOfName?_eq_none_iff.1 hname
  rw [GroupIndex.namesakes, hrows, List.filter_eq_nil_iff] at hnone
  exact List.find?_eq_none.2 hnone

/-- So whatever a group is looked up by, the index has it or nobody does. -/
theorem InOrder.idles_groupById (h : site.InOrder) (id : UInt64) : (groupById id).Idles site := by
  unfold groupById
  split
  · exact idles_throw _
  · have hknown (hid : site.node.groups.group? id = none) :
        site.backend.store.groups.byId? id = none := h.unknown_id hid
    exact @idles_readGroup site (·.group? id) (fun store => store.groups.byId? id) hknown
      .groupById nofun nofun _ _

theorem InOrder.idles_groupByKey (h : site.InOrder) (key : String) :
    (groupByKey key).Idles site := by
  have hknown (hkey : site.node.groups.groupOfKey? key = none) :
      site.backend.store.groups.byKey? key = none := h.unknown_key hkey
  exact @idles_readGroup site (·.groupOfKey? key) (fun store => store.groups.byKey? key) hknown
    .groupByKey nofun nofun _ _

theorem InOrder.idles_groupByName (h : site.InOrder) (turn : Nat) (name : String) :
    (groupByName turn name).Idles site := by
  have hknown (hname : site.node.groups.groupOfName? turn name = none) :
      site.backend.store.groups.byName? name = none := h.unknown_name hname
  exact @idles_readGroup site (·.groupOfName? turn name) (fun store => store.groups.byName? name) hknown
    .groupByName nofun nofun _ _

/-! ### Composed calls -/

/-- The walks along the groups look them up by their numbers, and do nothing else. -/
theorem idling_groupById (id : UInt64) (site : Site) : Composed Idling (groupById id) site :=
  .part fun h => h.idles_groupById id

/-- Whoever asks the store for a key takes nothing in. -/
theorem idling_groupByKey {key : String} (wrap : StoreError → AccessError) (site : Site) :
    Idling _ (ask wrap (Backend.groupByKey key)) site :=
  fun _ => idles_ask (Backend.uses_find .groupByKey fun store => store.groups.byKey? key) nofun nofun
    wrap

/-- Nor does anybody who asks it for a membership. -/
theorem idling_hasRelation {groupId : UInt64} {asset : Actor} (wrap : StoreError → AccessError)
    (site : Site) : Idling _ (ask wrap (Backend.hasRelation groupId asset)) site :=
  fun _ => idles_ask (Backend.uses_hasRelation groupId asset) nofun nofun wrap

/-- The way up from a group is in the index. -/
theorem InOrder.idles_ancestry (h : site.InOrder) (groupId : UInt64) :
    (ancestry groupId).Idles site :=
  (composed_ancestry idling_groupById groupId site).idles h

theorem InOrder.idles_isCircuited (h : site.InOrder) (groupId : UInt64) :
    (isCircuited groupId).Idles site :=
  (composed_isCircuited idling_groupById groupId site).idles h

/-- To check an asset means to look up a group at most. -/
theorem InOrder.idles_checkAsset (h : site.InOrder) (asset : Actor) :
    (checkAsset asset).Idles site :=
  (composed_checkAsset asset site).idles h

end Site

end AccessRights
