/-
AccessRights/Proofs/Disbanding.lean

What the removal of a group takes away, and what it leaves behind.

A group is removed in three steps.  The checks look for groups below it, in the store
as well as in the index (`checkRemoval`).  Then its memberships are removed from the
store one by one, as far as the store allows.  Then the group itself is removed, from
the store first and from the index after (`removeWith`).

The memberships that are removed are those that the index has.  So two things can
go wrong.  If the store refuses the removal of the group itself, the memberships are
gone while the index has them still.  And a membership that only the store has is left
behind, for whoever opens the store next.  Both are described exactly here, for any
index over any store.

Main results: `deleteGroup_ends`, `refused_removal_keeps` and `removal_leaves`.
-/
import AccessRights.Proofs.Moves
import AccessRights.Proofs.Reached
import AccessRights.Proofs.Serving
import AccessRights.Proofs.Upkeep

namespace AccessRights

/-! ### What a plan of faults lets through -/

namespace FaultPlan

variable {α : Type} {plan : FaultPlan} {method other : StoreMethod}

/-- Whether the next call of a method is planned to fail. -/
def fails (plan : FaultPlan) (method : StoreMethod) : Bool :=
  match (next method plan).1 with
  | .failure _ => true
  | _ => false

theorem fails_iff : plan.fails method = true ↔ ∃ error, (next method plan).1 = .failure error := by
  unfold fails
  split
  · rename_i error hfault
    exact iff_of_true rfl ⟨error, hfault⟩
  · rename_i hfault
    refine iff_of_false Bool.false_ne_true ?_
    rintro ⟨error, herror⟩
    exact hfault error herror

/-- When one call of a method is made for each of the items, those for which it does not fail as
planned. -/
def lets (plan : FaultPlan) (method : StoreMethod) : List α → List α
  | [] => []
  | item :: items =>
    if plan.fails method then lets (next method plan).2 method items
    else item :: lets (next method plan).2 method items

@[simp] theorem lets_nil (method : StoreMethod) (items : List α) : lets [] method items = items := by
  induction items with
  | nil => rfl
  | cons item items ih => exact congrArg _ ih

theorem lets_cons (plan : FaultPlan) (method : StoreMethod) (item : α) (items : List α) :
    plan.lets method (item :: items) =
      (if plan.fails method then [] else [item]) ++ lets (next method plan).2 method items := by
  rw [lets]
  split <;> rfl

/-- What is let through for a method does not depend on calls of another one. -/
theorem lets_next_of_ne (h : method ≠ other) (items : List α) :
    lets (next other plan).2 method items = plan.lets method items := by
  induction items generalizing plan with
  | nil => rfl
  | cons item items ih =>
    have hfails : fails (next other plan).2 method = plan.fails method := by
      unfold fails
      rw [(next_comm h).1]
    unfold lets
    rw [hfails, (next_comm h).2, ih]

end FaultPlan

/-- A change of the stored groups that is planned to fail has no effect. -/
theorem Call.ask_performs_failing {α : Type} {site : Site} {request : StoreCall α}
    {method : StoreMethod} {operation : GroupTables → Except StoreError (α × GroupTables)}
    (h : Backend.Performs request method operation site.backend) (wrap : StoreError → AccessError)
    (hfails : site.backend.faults.fails method = true) :
    ∃ error, (ask wrap request).perform site = (.error error, site.met method) := by
  obtain ⟨error, hfault⟩ := FaultPlan.fails_iff.1 hfails
  refine ⟨wrap error, ?_⟩
  unfold Backend.Performs at h
  rw [perform_ask, h]
  unfold Site.met
  rcases hnext : FaultPlan.next method site.backend.faults with ⟨fault, faults⟩
  rw [hnext] at hfault
  subst hfault
  rfl

/-! ### Stores without some memberships -/

/-- The other store has the same, but for memberships that are gone. -/
structure Store.Without (store other : Store) (gone : Relation → Prop) : Prop where
  policies : other.policies = store.policies
  lastId : other.groups.lastId = store.groups.lastId
  groups : other.groups.groups = store.groups.groups
  relations (relation : Relation) : relation ∈ other.groups.relations ↔
    relation ∈ store.groups.relations ∧ ¬ gone relation

namespace Store.Without

variable {store other last : Store} {gone gone' : Relation → Prop}

theorem of_eq (hsame : other = store) (hnone : ∀ relation, ¬ gone relation) :
    store.Without other gone := by
  subst hsame
  exact ⟨rfl, rfl, rfl, fun relation => (and_iff_left (hnone relation)).symm⟩

theorem trans (h : store.Without other gone) (h' : other.Without last gone') :
    store.Without last fun relation => gone relation ∨ gone' relation where
  policies := h'.policies.trans h.policies
  lastId := h'.lastId.trans h.lastId
  groups := h'.groups.trans h.groups
  relations relation := by rw [h'.relations, h.relations, not_or, and_assoc]

theorem congr (h : store.Without other gone) (hiff : ∀ relation, gone' relation ↔ gone relation) :
    store.Without other gone' :=
  { h with relations := fun relation => by rw [h.relations, hiff] }

/-- Nothing has changed exactly if none of what is gone was there. -/
theorem eq_iff (h : store.Without other gone) :
    other = store ↔ ∀ relation ∈ store.groups.relations, ¬ gone relation := by
  constructor
  · rintro rfl relation hrelation
    exact ((h.relations relation).1 hrelation).2
  · intro hnone
    have hrelations : other.groups.relations = store.groups.relations :=
      Std.ExtTreeSet.ext_mem fun relation => (h.relations relation).trans
        (and_iff_left_of_imp (hnone relation))
    obtain ⟨policies, lastId, groups, relations⟩ := other
    obtain ⟨policies', lastId', groups', relations'⟩ := store
    obtain rfl : policies = policies' := h.policies
    obtain rfl : lastId = lastId' := h.lastId
    obtain rfl : groups = groups' := h.groups
    obtain rfl : relations = relations' := hrelations
    rfl

end Store.Without

namespace Site

open Call

variable {site after middle last : Site} {groupId : UInt64} {assets members : List Actor}

/-! ### The checks -/

/-- What the checks change: the group may have been read from the store, and faults of other methods
than those of the removal used up. -/
structure Checked (site after : Site) (groupId : UInt64) : Prop where
  store : after.backend.store = site.backend.store
  node : after.node = site.node ∨ ∃ group, site.node.groups.group? groupId = none ∧
    site.backend.store.groups.byId? groupId = some group ∧
      after.node = { site.node with groups := site.node.groups.insert group }
  lets (assets : List Actor) : after.backend.faults.lets .deleteRelation assets =
    site.backend.faults.lets .deleteRelation assets
  calm : site.backend.faults = [] → after.backend.faults = []

theorem checked_refl (site : Site) (groupId : UInt64) : site.Checked site groupId :=
  ⟨rfl, .inl rfl, fun _ => rfl, id⟩

theorem Checked.met (h : site.Checked after groupId) {method : StoreMethod}
    (hmethod : method ≠ .deleteRelation) : site.Checked (after.met method) groupId where
  store := h.store
  node := h.node
  lets assets := (FaultPlan.lets_next_of_ne hmethod.symm assets).trans (h.lets assets)
  calm hcalm := by
    show (FaultPlan.next method after.backend.faults).2 = []
    rw [h.calm hcalm, FaultPlan.next_nil]

/-- Reading the group takes no members in. -/
theorem Checked.membersOf (h : site.Checked after groupId) (id : UInt64) :
    after.node.groups.membersOf id = site.node.groups.membersOf id := by
  obtain hnode | ⟨group, -, -, hnode⟩ := h.node
  · rw [hnode]
  · rw [hnode, GroupIndex.membersOf_insert]

theorem checked_groupById (site : Site) (groupId : UInt64) :
    site.Checked ((groupById groupId).perform site).2 groupId := by
  unfold groupById
  split
  · exact checked_refl site groupId
  unfold readGroup
  rw [perform_bind, perform_currentNode]
  dsimp only
  cases hknown : site.node.groups.group? groupId with
  | some group => exact checked_refl site groupId
  | none =>
    have hlooks : Backend.Looks (Backend.groupById groupId) _ _ :=
      Backend.looks_find .groupById fun store => store.groups.byId? groupId
    have huses : Backend.Uses (Backend.groupById groupId) .groupById := Backend.uses_find _ _
    have hmet : site.Checked (site.met .groupById) groupId := (checked_refl site groupId).met nofun
    have hbacked := hlooks.backed site.backend
    dsimp only
    rw [perform_bind, perform_ask, huses]
    -- the store fails, has no such group, or gives it to be taken in
    rcases hfound : ((Backend.groupById groupId).run.run site.backend).1 with error | _ | group
    · exact hmet
    · exact hmet
    · exact { hmet with node := .inr ⟨group, hknown, hbacked _ hfound group rfl, rfl⟩ }

/-- The checks change next to nothing.  If they pass they give the members that the index has, and if
the store does not fail no stored group is below the group then. -/
theorem checkRemoval_checked (site : Site) (groupId : UInt64) :
    site.Checked ((checkRemoval groupId).perform site).2 groupId ∧
      ∀ members, ((checkRemoval groupId).perform site).1 = .ok members →
        members = (site.node.groups.membersOf groupId).toList ∧
          (site.backend.faults = [] → site.backend.store.groups.children groupId = []) := by
  have hfirst := checked_groupById site groupId
  unfold checkRemoval
  rw [perform_bind]
  rcases hrun : (groupById groupId).perform site with ⟨error | group, first⟩ <;>
    rw [hrun] at hfirst
  · exact ⟨hfirst, nofun⟩
  have hsecond : site.Checked (first.met .childGroups) groupId := hfirst.met nofun
  -- a store that does not fail has been asked for what it has
  have hfound (hcalm : site.backend.faults = []) :
      ((Backend.childGroups groupId).run.run first.backend).1 =
        .ok (site.backend.store.groups.children groupId) := by
    rw [(Backend.looks_childGroups groupId).found first.backend (hfirst.calm hcalm), hfirst.store]
  dsimp only
  rw [perform_bind, perform_ask, Backend.uses_childGroups]
  rcases hasked : ((Backend.childGroups groupId).run.run first.backend).1 with error | children
  · exact ⟨hsecond, nofun⟩
  dsimp only [Except.mapError]
  split
  · exact ⟨hsecond, nofun⟩
  rename_i hchildren
  rw [perform_bind, perform_currentNode]
  dsimp only
  split
  · exact ⟨hsecond, nofun⟩
  refine ⟨hsecond, ?_⟩
  rintro _ ⟨⟩
  refine ⟨congrArg _ (hfirst.membersOf groupId), fun hcalm => ?_⟩
  rw [← Except.ok.inj (hasked.symm.trans (hfound hcalm))]
  simpa using hchildren

/-! ### Removing the memberships -/

/-- The memberships of some assets in a group were removed from the store, and nothing else was. -/
structure Stripped (site after : Site) (groupId : UInt64) (assets : List Actor) : Prop where
  node : after.node = site.node
  calm : site.backend.faults = [] → after.backend.faults = []
  store : site.backend.store.Without after.backend.store fun relation =>
    relation.groupId = groupId ∧ relation.asset ∈ assets

theorem Stripped.trans {others : List Actor} (h : site.Stripped middle groupId assets)
    (h' : middle.Stripped last groupId others) : site.Stripped last groupId (assets ++ others) where
  node := h'.node.trans h.node
  calm hcalm := h'.calm (h.calm hcalm)
  store := (h.store.trans h'.store).congr fun relation => by rw [List.mem_append, and_or_left]

/-- A membership goes if its removal is not planned to fail. -/
theorem stripped_attempt (site : Site) (groupId : UInt64) (asset : Actor) :
    ∃ after, (attempt (Backend.deleteRelation groupId asset)).perform site = (.ok (), after) ∧
      after.backend.faults = (FaultPlan.next .deleteRelation site.backend.faults).2 ∧
      site.Stripped after groupId
        (if site.backend.faults.fails .deleteRelation then [] else [asset]) := by
  have hperforms : Backend.Performs (Backend.deleteRelation groupId asset) .deleteRelation
    (GroupTables.unrelate groupId asset) site.backend := Backend.performs_onGroups _ _ _
  have hcalm (hcalm : site.backend.faults = []) :
      (FaultPlan.next .deleteRelation site.backend.faults).2 = [] := by
    rw [hcalm, FaultPlan.next_nil]
  rw [perform_attempt (.store "")]
  refine ⟨_, rfl, ?_⟩
  by_cases hfails : site.backend.faults.fails .deleteRelation = true
  · -- a failure is passed over, and the membership stays
    obtain ⟨error, hrun⟩ := ask_performs_failing hperforms (.store "") hfails
    rw [hrun, if_pos hfails]
    exact ⟨rfl, rfl, hcalm, .of_eq rfl fun relation hgone => nomatch hgone.2⟩
  · have hfault (error : StoreError) :
        (FaultPlan.next .deleteRelation site.backend.faults).1 ≠ .failure error :=
      fun hfault => hfails (FaultPlan.fails_iff.2 ⟨error, hfault⟩)
    rw [if_neg hfails]
    rw [ask_performs_spared hperforms (.store "") hfault rfl]
    refine ⟨rfl, rfl, hcalm, rfl, rfl, rfl, ?_⟩
    rintro ⟨id, other⟩
    show _ ∈ site.backend.store.groups.relations.erase ⟨groupId, asset⟩ ↔ _
    rw [mem_erase_iff, Ne, Relation.mk.injEq, List.mem_singleton]
    grind

/-- The memberships of the listed assets go as far as the plan lets them. -/
theorem stripped_dropRelations (site : Site) (groupId : UInt64) (assets : List Actor) :
    ∃ after, (dropRelations groupId assets).perform site = (.ok (), after) ∧
      site.Stripped after groupId (site.backend.faults.lets .deleteRelation assets) := by
  induction assets generalizing site with
  | nil => exact ⟨site, rfl, rfl, id, .of_eq rfl fun relation hgone => nomatch hgone.2⟩
  | cons asset assets ih =>
    obtain ⟨middle, hfirst, hfaults, hstripped⟩ := stripped_attempt site groupId asset
    obtain ⟨after, hrest, hrests⟩ := ih middle
    rw [hfaults] at hrests
    refine ⟨after, ?_, FaultPlan.lets_cons .. ▸ hstripped.trans hrests⟩
    unfold dropRelations
    rw [perform_bind, hfirst]
    exact hrest

/-! ### How a removal ends -/

/-- How the removal of a group ends: the checks refuse it, the store refuses it when the memberships
are gone, or the group is removed. -/
inductive RemovalEnds (site : Site) (groupId : UInt64) : Except AccessError Unit × Site → Prop
  | refused {error : AccessError} {after : Site} (checked : site.Checked after groupId)
      (failed : (checkRemoval groupId).perform site = (.error error, after)) :
      RemovalEnds site groupId (.error error, after)
  | halted {error : AccessError} {middle last : Site} {members : List Actor}
      (checked : site.Checked middle groupId)
      (passed : (checkRemoval groupId).perform site = (.ok members, middle))
      (stripped : middle.Stripped last groupId (site.backend.faults.lets .deleteRelation members)) :
      RemovalEnds site groupId (.error error, last.met .deleteGroup)
  | removed {middle last : Site} {members : List Actor} {groups : GroupTables}
      (checked : site.Checked middle groupId)
      (passed : (checkRemoval groupId).perform site = (.ok members, middle))
      (stripped : middle.Stripped last groupId (site.backend.faults.lets .deleteRelation members))
      (deleted : GroupTables.delete groupId last.backend.store.groups = .ok ((), groups)) :
      RemovalEnds site groupId (.ok (),
        { (last.met .deleteGroup).storing groups with node := { last.node with
          groups := last.node.groups.remove groupId, changes := last.node.changes + 1 } })

theorem deleteGroup_ends (site : Site) (groupId : UInt64) :
    site.RemovalEnds groupId ((deleteGroup groupId).perform site) := by
  obtain ⟨hchecked, -⟩ := checkRemoval_checked site groupId
  rw [deleteGroup_eq, perform_bind]
  rcases hrun : (checkRemoval groupId).perform site with ⟨error | members, middle⟩ <;>
    rw [hrun] at hchecked
  · exact .refused hchecked hrun
  obtain ⟨last, hdrop, hstripped⟩ := stripped_dropRelations middle groupId members
  rw [hchecked.lets] at hstripped
  have hperforms : Backend.Performs (Backend.deleteGroup groupId) .deleteGroup
    (GroupTables.delete groupId) last.backend := Backend.performs_onGroups _ _ _
  unfold removeWith
  dsimp only
  rw [perform_bind, hdrop]
  dsimp only
  rw [perform_bind]
  obtain ⟨-, error, hstore⟩ | ⟨_, groups, hdelete, hstore⟩ :=
    ask_performs hperforms (.store ("group " ++ toString groupId)) <;> rw [hstore]
  · exact .halted hchecked hrun hstripped
  · exact .removed hchecked hrun hstripped hdelete

/-! ### A removal that is refused -/

/-- The removal of the group gets past the checks, the index has this membership, and its removal
from the store is not planned to fail.

The plan meets the members in the order in which they are taken.  If some removals fail and others
do not, another order leaves others behind; if all fail, or none, the order makes no difference. -/
structure Strips (site : Site) (groupId : UInt64) (relation : Relation) : Prop where
  own : relation.groupId = groupId
  passed : ((checkRemoval groupId).perform site).1 =
    .ok (site.node.groups.membersOf groupId).toList
  allowed : relation.asset ∈ site.backend.faults.lets .deleteRelation
    (site.node.groups.membersOf groupId).toList

/-- A refused removal has at most read the group from the store. -/
theorem RemovalEnds.node_of_refused {error : AccessError}
    (h : site.RemovalEnds groupId (.error error, after)) :
    after.node = site.node ∨ ∃ group, site.node.groups.group? groupId = none ∧
      site.backend.store.groups.byId? groupId = some group ∧
        after.node = { site.node with groups := site.node.groups.insert group } := by
  generalize hresult : (Except.error error, after) = result at h
  cases h with
  | removed => cases hresult
  | refused checked =>
    cases hresult
    exact checked.node
  | halted checked _ stripped =>
    cases hresult
    have hnode := checked.node
    rwa [← stripped.node] at hnode

/-- A refused removal strips the group of its memberships, or of none of them. -/
theorem RemovalEnds.store_of_refused {error : AccessError}
    (h : site.RemovalEnds groupId (.error error, after)) :
    site.backend.store.Without after.backend.store (site.Strips groupId) := by
  generalize hresult : (Except.error error, after) = result at h
  cases h with
  | removed => cases hresult
  | refused checked failed =>
    cases hresult
    refine .of_eq checked.store fun relation hstrips => ?_
    have hpassed := hstrips.passed
    rw [failed] at hpassed
    cases hpassed
  | halted checked passed stripped =>
    cases hresult
    have hpassed := congrArg Prod.fst passed
    obtain ⟨rfl, -⟩ := (checkRemoval_checked site groupId).2 _ hpassed
    have hstore := stripped.store
    rw [checked.store] at hstore
    exact hstore.congr fun relation =>
      ⟨fun hstrips => ⟨hstrips.own, hstrips.allowed⟩, fun hgone => ⟨hgone.1, hpassed, hgone.2⟩⟩

/-- If the removal of a group is refused, the groups are as before, and the node has at most read the
group from the store.  Of the memberships exactly those are gone that the removal strips the group of,
though the index has them.  So the store is as before exactly if it strips the group of none that is
stored. -/
theorem refused_removal_keeps {error : AccessError}
    (hrefused : (deleteGroup groupId).perform site = (.error error, after)) :
    (after.node = site.node ∨ ∃ group, site.node.groups.group? groupId = none ∧
      site.backend.store.groups.byId? groupId = some group ∧
        after.node = { site.node with groups := site.node.groups.insert group }) ∧
    site.backend.store.Without after.backend.store (site.Strips groupId) ∧
    (after.backend.store = site.backend.store ↔
      ∀ relation ∈ site.backend.store.groups.relations, ¬ site.Strips groupId relation) := by
  have hends : site.RemovalEnds groupId (.error error, after) :=
    hrefused ▸ deleteGroup_ends site groupId
  exact ⟨hends.node_of_refused, hends.store_of_refused, hends.store_of_refused.eq_iff⟩

/-- The site when the next call of a method of the store is going to fail. -/
def failingOnce (site : Site) (method : StoreMethod) : Site :=
  { site with backend := { site.backend with
      faults := site.backend.faults.schedule method (.failure (.backend "disk full")) 1 } }

theorem Reached.failingOnce (h : site.Reached .requests) (method : StoreMethod) :
    (site.failingOnce method).Reached .requests :=
  .scheduled h method trivial 1

/-- A group with two members. -/
def enrolled : Site :=
  (live ⟨.blank {}, {}⟩ [
    (default, .createGroup .group 0 "eng" "Engineering"),
    (default, .relate 1 (.user 7)),
    (default, .relate 1 (.user 8))]).2

theorem reached_enrolled : enrolled.Reached .requests :=
  (Reached.blank {}).live (fun _ _ _ => trivial) ⟨by decide +kernel, by decide +kernel⟩

/-- The store will neither let the first member go nor the group. -/
def enrolledStuck : Site :=
  (enrolled.failingOnce .deleteRelation).failingOnce .deleteGroup

/-- So the removal is refused when the second member is gone.

Members have no order of their own, and these two are taken in the ascending order that
`deleteGroup` chooses.  Taken the other way round, it is user 8 who stays and user 7 who is
gone.  What is refused and what the index keeps is the same either way. -/
theorem refused_removal_keeps_stuck : ∃ error after,
    (deleteGroup 1).perform enrolledStuck = (.error error, after) ∧
      ⟨1, .user 7⟩ ∈ after.backend.store.groups.relations ∧
        ⟨1, .user 8⟩ ∉ after.backend.store.groups.relations ∧
          after.backend.store ≠ enrolledStuck.backend.store := by
  have hrefused : ((deleteGroup 1).perform enrolledStuck).1.isOk = false := by decide +kernel
  have hfirst : ⟨1, .user 7⟩ ∈ enrolledStuck.backend.store.groups.relations := by decide +kernel
  have hsecond : ⟨1, .user 8⟩ ∈ enrolledStuck.backend.store.groups.relations := by decide +kernel
  have hkept : ¬ enrolledStuck.Strips 1 ⟨1, .user 7⟩ := by
    rintro ⟨-, -, hallowed⟩
    exact absurd hallowed (by decide +kernel)
  have hstripped : enrolledStuck.Strips 1 ⟨1, .user 8⟩ :=
    ⟨rfl, by decide +kernel, by decide +kernel⟩
  rcases hrun : (deleteGroup 1).perform enrolledStuck with ⟨error | _, after⟩ <;> rw [hrun] at hrefused
  · obtain ⟨-, hwithout, hsame⟩ := refused_removal_keeps hrun
    exact ⟨error, after, rfl, (hwithout.relations _).2 ⟨hfirst, hkept⟩,
      fun hleft => ((hwithout.relations _).1 hleft).2 hstripped,
      fun heq => hsame.1 heq _ hsecond hstripped⟩
  · cases hrefused

/-- A removal that is refused can leave the store without members that the index has. -/
theorem not_forall_removal_whole :
    ¬ ∀ (site after : Site) (groupId : UInt64) (error : AccessError), site.Reached .requests →
      (deleteGroup groupId).perform site = (.error error, after) →
        after.backend.store.groups = site.backend.store.groups ∧
          after.node.groups = site.node.groups := by
  intro h
  have hrefused : ((deleteGroup 1).perform (enrolled.failingOnce .deleteGroup)).1.isOk = false := by
    decide +kernel
  have hbefore : (enrolled.failingOnce .deleteGroup).backend.store.groups.isRelated 1 (.user 7) =
    true := by decide +kernel
  have hafter : ((deleteGroup 1).perform
      (enrolled.failingOnce .deleteGroup)).2.backend.store.groups.isRelated 1 (.user 7) = false := by
    decide +kernel
  rcases hrun : (deleteGroup 1).perform (enrolled.failingOnce .deleteGroup) with ⟨error | _, after⟩ <;>
    rw [hrun] at hrefused hafter
  · obtain ⟨hsame, -⟩ := h _ after 1 error (reached_enrolled.failingOnce .deleteGroup) hrun
    rw [hsame, hbefore] at hafter
    cases hafter
  · cases hrefused

/-! ### A removal that is made -/

/-- What is stored after the removal of a group by a store that does not fail. -/
theorem removed_of_ok (hdone : (deleteGroup groupId).perform site.unfailing = (.ok (), after)) :
    site.backend.store.groups.children groupId = [] ∧ after.backend.faults = [] ∧
    after.backend.store.groups.groups = site.backend.store.groups.groups.erase groupId ∧
    ∀ relation, relation ∈ after.backend.store.groups.relations ↔
      relation ∈ site.backend.store.groups.relations ∧
        ¬ (relation.groupId = groupId ∧ relation.asset ∈ site.node.groups.membersOf groupId) := by
  have hends := deleteGroup_ends site.unfailing groupId
  rw [hdone] at hends
  generalize hresult : (Except.ok (), after) = result at hends
  cases hends with
  | refused | halted => cases hresult
  | @removed middle last members groups checked passed stripped deleted =>
    cases hresult
    obtain ⟨rfl, hchildren⟩ :=
      (checkRemoval_checked site.unfailing groupId).2 members (congrArg Prod.fst passed)
    obtain rfl := GroupTables.delete_eq_ok deleted
    have hstore := stripped.store
    rw [checked.store] at hstore
    refine ⟨hchildren rfl, ?_, congrArg (·.erase groupId) hstore.groups, fun relation => ?_⟩
    · show (FaultPlan.next .deleteGroup last.backend.faults).2 = []
      rw [stripped.calm (checked.calm rfl), FaultPlan.next_nil]
    · refine (hstore.relations relation).trans ?_
      show _ ∧ ¬ (_ ∧ _ ∈ FaultPlan.lets [] _ _) ↔ _
      rw [FaultPlan.lets_nil, Std.ExtTreeSet.mem_toList]
      rfl

/-- A node that is opened over a store that does not fail has the memberships of the store. -/
theorem isMember_of_opened {backend : Backend} (hcalm : backend.faults = []) (config : Config) :
    ∃ opened, load.perform ⟨.blank config, backend⟩ = (.ok (), opened) ∧
      ∀ groupId asset, opened.node.groups.isMember groupId asset = true ↔
        ⟨groupId, asset⟩ ∈ backend.store.groups.relations := by
  obtain ⟨last, hwaits, ⟨error, hrun⟩ | hrun⟩ := load_ends ⟨.blank config, backend⟩
  · have hload := @load_of_calm ⟨.blank config, backend⟩ hcalm
    rw [hrun] at hload
    cases hload
  · refine ⟨last.reloaded, hrun, fun groupId asset => ?_⟩
    have hstore : last.backend.store = backend.store := hwaits.store
    rw [← hstore]
    exact Std.ExtTreeSet.contains_iff_mem.trans
      (GroupIndex.mem_membersOf_build.trans Std.ExtTreeSet.mem_toList)

/-- If the store does not fail, the removal of a group takes the group away and leaves none below it.
Of its memberships it leaves those that only the store had.  So none is left exactly if the index had
all of them, and otherwise a node that is opened over the store takes the group to have members. -/
theorem removal_leaves (hdone : (deleteGroup groupId).perform site.unfailing = (.ok (), after)) :
    after.backend.store.groups.byId? groupId = none ∧
    (∀ id group, after.backend.store.groups.byId? id = some group → group.parentId ≠ groupId) ∧
    (∀ relation, relation ∈ after.backend.store.groups.relations ↔
      relation ∈ site.backend.store.groups.relations ∧
        ¬ (relation.groupId = groupId ∧ relation.asset ∈ site.node.groups.membersOf groupId)) ∧
    ((∀ relation ∈ after.backend.store.groups.relations, relation.groupId ≠ groupId) ↔
      ∀ asset, ⟨groupId, asset⟩ ∈ site.backend.store.groups.relations →
        asset ∈ site.node.groups.membersOf groupId) ∧
    ∀ config, ∃ opened, load.perform ⟨.blank config, after.backend⟩ = (.ok (), opened) ∧
      ∀ asset, opened.node.groups.isMember groupId asset = true ↔
        ⟨groupId, asset⟩ ∈ site.backend.store.groups.relations ∧
          asset ∉ site.node.groups.membersOf groupId := by
  obtain ⟨hchildless, hcalm, hgroups, hmem⟩ := removed_of_ok hdone
  have hleft (asset : Actor) : ⟨groupId, asset⟩ ∈ after.backend.store.groups.relations ↔
      ⟨groupId, asset⟩ ∈ site.backend.store.groups.relations ∧
        asset ∉ site.node.groups.membersOf groupId :=
    (hmem _).trans (and_congr_right fun _ => not_congr (and_iff_right rfl))
  refine ⟨?_, fun id group hstored hparent => ?_, hmem, ⟨fun hnone asset hrelation => ?_,
    fun hknown relation hrelation hown => ?_⟩, fun config => ?_⟩
  · unfold GroupTables.byId?
    rw [hgroups, lookup_erase, if_pos rfl]
  · -- a group below it would have been found, and the removal refused
    unfold GroupTables.byId? at hstored
    rw [hgroups] at hstored
    have hchild : group ∈ site.backend.store.groups.children groupId :=
      List.mem_filter.2 ⟨Table.mem_rows.2 ⟨id, Table.of_lookup_erase hstored⟩, by simpa using hparent⟩
    rw [hchildless] at hchild
    cases hchild
  · by_contra hunknown
    exact hnone _ ((hleft asset).2 ⟨hrelation, hunknown⟩) rfl
  · obtain ⟨id, asset⟩ := relation
    subst hown
    obtain ⟨hstored, hunknown⟩ := (hleft asset).1 hrelation
    exact hunknown (hknown asset hstored)
  · obtain ⟨opened, hload, hmember⟩ := isMember_of_opened hcalm config
    exact ⟨opened, hload, fun asset => (hmember groupId asset).trans (hleft asset)⟩

end Site

namespace Cluster

open Site Call

/-- One node has made a user a member of a group.  Another node has made another user one since, and
the first node has not read that. -/
def halfKnown : Cluster :=
  run {} [.launch {}, .answer 0 default (.createGroup .group 0 "eng" "Engineering"),
    .answer 0 default (.relate 1 (.user 5)), .launch {},
    .answer 1 default (.relate 1 (.user 7))]

theorem reachable_halfKnown : halfKnown.Reachable :=
  Reachable.empty.run ⟨by decide +kernel, by decide +kernel⟩

/-- When the first node has removed the group, a node that is opened finds the second member still,
and not the first one. -/
theorem removal_leaves_halfKnown : ∃ after opened,
    (deleteGroup 1).perform (halfKnown.siteOf 0).unfailing = (.ok (), after) ∧
      load.perform ⟨.blank {}, after.backend⟩ = (.ok (), opened) ∧
        opened.node.groups.isMember 1 (.user 5) = false ∧
          opened.node.groups.isMember 1 (.user 7) = true := by
  have hdone : ((deleteGroup 1).perform (halfKnown.siteOf 0).unfailing).1 = .ok () := by decide +kernel
  have hknown : .user 5 ∈ (halfKnown.siteOf 0).node.groups.membersOf 1 := by decide +kernel
  have hunknown : .user 7 ∉ (halfKnown.siteOf 0).node.groups.membersOf 1 := by decide +kernel
  have hstored : ⟨1, .user 7⟩ ∈ (halfKnown.siteOf 0).backend.store.groups.relations := by decide +kernel
  obtain ⟨-, -, -, -, hopened⟩ := removal_leaves (Prod.ext hdone rfl)
  obtain ⟨opened, hload, hmember⟩ := hopened {}
  refine ⟨_, opened, Prod.ext hdone rfl, hload, ?_, (hmember _).2 ⟨hstored, hunknown⟩⟩
  exact Bool.eq_false_iff.2 fun hleft => ((hmember _).1 hleft).2 hknown

/-- A removal that succeeds can leave memberships of the group in the store. -/
theorem not_forall_removal_complete :
    ¬ ∀ (cluster : Cluster) (number : Nat) (node : Node) (after : Site) (groupId : UInt64),
      cluster.Reachable → cluster.nodes[number]? = some node → cluster.backend.faults = [] →
        (deleteGroup groupId).perform ⟨node, cluster.backend⟩ = (.ok (), after) →
          ∀ relation ∈ after.backend.store.groups.relations, relation.groupId ≠ groupId := by
  intro h
  have hnode := nodes_siteOf (show 0 < halfKnown.nodes.size by decide +kernel)
  have hdone : ((deleteGroup 1).perform (halfKnown.siteOf 0)).1 = .ok () := by decide +kernel
  have hleft : ⟨1, .user 7⟩ ∈
      ((deleteGroup 1).perform (halfKnown.siteOf 0)).2.backend.store.groups.relations := by
    decide +kernel
  exact h halfKnown 0 _ _ 1 reachable_halfKnown hnode (by decide +kernel) (Prod.ext hdone rfl) _ hleft
    rfl

end Cluster

end AccessRights
