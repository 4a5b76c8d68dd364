/-
AccessRights/Proofs/Composed.lean

How calls are put together.

Every call is a sequence of parts, chosen by what came before: it asks the store, edits
the memory of the node, looks at that memory, and ends with a value or with a refusal.
`Call.Composed` says this of a call at a site, for any notion of a part.  It is shown
once for each call, along the code.  Whatever is true of the parts, and is kept when they
are put together, is then true of the call by induction on how it is composed.

`Part` is the notion for which all requests are composed.  Resolving rights is a part by
itself, because it looks into the cache, which nothing else does.  Where it may happen is
left open (`fit`): to see what is done to a site it can happen anywhere, but to see that
a cache makes no difference, only where the cache can be trusted.

The calls that only read are composed for any notion of a part that covers the reading
that they do.

Main results: `composed_resolve` and `composed_answer`.
-/
import AccessRights.Proofs.Edits
import AccessRights.Proofs.Stages
import AccessRights.Request

namespace AccessRights

namespace Call

variable {α β : Type} {part : (α : Type) → Call α → Site → Prop} {site : Site}

/-! ### Composition -/

/-- At this site the call is put together of parts. -/
inductive Composed (part : (α : Type) → Call α → Site → Prop) :
    {α : Type} → Call α → Site → Prop
  | part {α : Type} {call : Call α} {site : Site} (whole : part α call site) : Composed part call site
  | value {α : Type} (value : α) (site : Site) : Composed part (pure value) site
  | refusal {α : Type} (error : AccessError) (site : Site) :
      Composed part (throw error : Call α) site
  | lifted {α : Type} (result : Except AccessError α) (site : Site) :
      Composed part (liftExcept result) site
  /-- The second call is composed wherever the first one leads to. -/
  | bind {α β : Type} {call : Call α} {next : α → Call β} {site : Site}
      (first : Composed part call site)
      (second : ∀ value after, call.perform site = (.ok value, after) →
        Composed part (next value) after) : Composed part (call >>= next) site
  | outcome {α : Type} {call : Call α} {site : Site} (inner : Composed part call site) :
      Composed part call.outcome site
  /-- The memory of the node decides what is done, but not the cache. -/
  | look {β : Type} {next : Node → Call β} {site : Site}
      (rest : Composed part (next site.node) site)
      (cache : next { site.node with cache := none } = next site.node) :
      Composed part (Site.currentNode >>= next) site

/-- What would come after a refusal does not matter. -/
theorem composed_throw_bind (error : AccessError) (next : α → Call β) (site : Site) :
    Composed part ((throw error : Call α) >>= next) site :=
  .bind (.refusal error site) fun _ _ h => by cases (perform_throw error site).symm.trans h

/-- Changing the value of a call asks for nothing more. -/
theorem Composed.map {call : Call α} (h : Composed part call site) (f : α → β) :
    Composed part (call >>= fun value => pure (f value)) site :=
  h.bind fun value after _ => .value (f value) after

/-! ### Answers of the store -/

/-- How a call has ended, seen from its outcome. -/
theorem outcome_eq_ok {call : Call α} {result : Except AccessError α} {after : Site}
    (h : call.outcome.perform site = (.ok result, after)) :
    call.perform site = (result, after) := by
  rw [perform_outcome, Prod.mk.injEq, Except.ok.injEq] at h
  exact Prod.ext h.1 h.2

/-- What a store has answered to a call. -/
theorem ask_eq_ok {wrap : StoreError → AccessError} {request : StoreCall α} {after : Site}
    {value : α} (h : (ask wrap request).perform site = (.ok value, after)) :
    request.run.run site.backend = (.ok value, after.backend) ∧ after.node = site.node := by
  rw [perform_ask] at h
  rcases hrun : request.run.run site.backend with ⟨error | found, backend⟩ <;> rw [hrun] at h <;>
    cases h
  exact ⟨rfl, rfl⟩

end Call

namespace Site

open Call

/-! ### Stages that only read -/

section Groups

variable {part : (α : Type) → Call α → Site → Prop}
  (hgroup : ∀ id site, Composed part (groupById id) site)
include hgroup

/-- The groups on the way to the root are read one by one. -/
theorem composed_ancestryFrom (trail : Trail) (groupId : UInt64) (site : Site) :
    Composed part (ancestryFrom trail groupId) site := by
  induction trail, groupId using ancestryFrom.induct generalizing site with
  | case1 trail =>
    rw [ancestryFrom, if_pos rfl]
    exact .value [] site
  | case2 trail groupId nonzero fresh ih =>
    rw [ancestryFrom, if_neg nonzero, dif_pos fresh]
    exact .bind (hgroup groupId site) fun group after _ => (ih group after).map _
  | case3 trail groupId nonzero stale =>
    rw [ancestryFrom, if_neg nonzero, dif_neg stale]
    exact .refusal _ site

theorem composed_ancestry (groupId : UInt64) (site : Site) :
    Composed part (ancestry groupId) site :=
  composed_ancestryFrom hgroup .empty groupId site

theorem composed_isCircuited (groupId : UInt64) (site : Site) :
    Composed part (isCircuited groupId) site := by
  refine .bind (composed_ancestry hgroup groupId site).outcome fun result after _ => ?_
  split
  · exact .value _ after
  · exact .value _ after
  · exact .refusal _ after

/-- The parent is read, and then the way up from it. -/
theorem composed_checkGroupParent (childId : UInt64) (kind : GroupKind) (parentId : UInt64)
    (site : Site) : Composed part (checkGroupParent childId kind parentId) site := by
  unfold checkGroupParent
  split
  · exact composed_throw_bind _ _ site
  refine .bind (hgroup parentId site) fun parent middle _ => ?_
  split
  · exact composed_throw_bind _ _ middle
  refine .bind (composed_ancestry hgroup parentId middle) fun ancestors after _ => ?_
  split
  · exact .refusal _ after
  · exact .value _ after

omit hgroup in
/-- The index and the store are asked who has the key. -/
theorem composed_checkGroupKeyFree {key : String}
    (hask : ∀ wrap site, part _ (ask wrap (Backend.groupByKey key)) site) (ownId : UInt64)
    (site : Site) : Composed part (checkGroupKeyFree key ownId) site := by
  refine .look ?_ rfl
  split
  · exact composed_throw_bind _ _ site
  refine .bind (.part (hask _ site)) fun stored after _ => ?_
  split
  · exact .refusal _ after
  · exact .value _ after

omit hgroup in
/-- Nothing has to be read to see whether an asset can be a member of groups. -/
theorem composed_checkAsset (asset : Actor) (site : Site) :
    Composed part (checkAsset asset) site := by
  unfold checkAsset
  split
  · exact .refusal _ site
  · exact .value _ site

theorem composed_checkGroupKind (groupId : UInt64) (kind : GroupKind) (site : Site) :
    Composed part (checkGroupKind groupId kind) site := by
  refine .bind (hgroup groupId site) fun group after _ => ?_
  split
  · exact .refusal _ after
  · exact .value _ after

/-- A role or group is looked up, and a user needs no more than a number. -/
theorem composed_checkGrantee (grantee : Actor) (site : Site) :
    Composed part (checkGrantee grantee) site := by
  unfold checkGrantee
  cases grantee.kind with
  | everyone => exact .value _ site
  | user =>
    dsimp only
    split
    · exact .refusal _ site
    · exact .value _ site
  | role | group => exact composed_checkGroupKind hgroup grantee.id _ site

omit hgroup in
theorem composed_checkRevoked (grantee : Actor) (site : Site) :
    Composed part (checkRevoked grantee) site := by
  unfold checkRevoked
  split
  · exact .refusal _ site
  · exact .value _ site

/-- The parent is checked before the key, if there is to be one. -/
theorem composed_groupToCreate {key : String}
    (hask : ∀ wrap site, part _ (ask wrap (Backend.groupByKey key)) site) (now : Timestamp)
    (flags : GroupFlags) (parentId : UInt64) (displayName : String) (site : Site) :
    Composed part (groupToCreate now flags parentId key displayName) site := by
  refine .bind (.lifted _ site) fun group first _ => ?_
  cases group.kind? with
  | none => exact .refusal _ first
  | some kind =>
    dsimp only
    split
    · exact .bind (composed_checkGroupParent hgroup 0 kind parentId first) fun _ second _ =>
        (composed_checkGroupKeyFree hask 0 second).map _
    · exact (composed_checkGroupKeyFree hask 0 first).map _

/-- The key is checked if it is to change. -/
theorem composed_groupToUpdate {group : Group}
    (hask : ∀ wrap site, part _ (ask wrap (Backend.groupByKey group.key)) site) (now : Timestamp)
    (site : Site) : Composed part (groupToUpdate now group) site := by
  refine .bind (hgroup group.id site) fun current first _ => ?_
  refine .bind (.lifted _ first) fun _ second _ => ?_
  dsimp only
  split
  · exact composed_throw_bind _ _ second
  split
  · exact composed_throw_bind _ _ second
  split
  · exact (composed_checkGroupKeyFree hask group.id second).map _
  · exact .value _ second

theorem composed_groupToMove (now : Timestamp) (groupId parentId : UInt64) (site : Site) :
    Composed part (groupToMove now groupId parentId) site := by
  refine .bind (hgroup groupId site) fun group after _ => ?_
  cases group.kind? with
  | none => exact .refusal _ after
  | some kind =>
    dsimp only
    split
    · exact (composed_checkGroupParent hgroup groupId kind parentId after).map _
    · exact .value _ after

/-- Groups below the group are looked for in the store and in the index. -/
theorem composed_checkRemoval {groupId : UInt64}
    (hask : ∀ wrap site, part _ (ask wrap (Backend.childGroups groupId)) site) (site : Site) :
    Composed part (checkRemoval groupId) site := by
  refine .bind (hgroup groupId site) fun _ first _ => ?_
  refine .bind (.part (hask _ first)) fun children second _ => ?_
  split
  · exact composed_throw_bind _ _ second
  refine .look ?_ rfl
  dsimp only
  split
  · exact composed_throw_bind _ _ second
  · exact .value _ second

/-- The store is asked about a membership that the index does not have. -/
theorem composed_checkNew {groupId : UInt64} {asset : Actor}
    (hask : ∀ wrap site, part _ (ask wrap (Backend.hasRelation groupId asset)) site) (site : Site) :
    Composed part (checkNew groupId asset) site := by
  refine .bind (composed_checkAsset asset site) fun _ first _ => ?_
  refine .bind (hgroup groupId first) fun _ second _ => ?_
  refine .look ?_ rfl
  split
  · exact composed_throw_bind _ _ second
  · exact .part (hask _ second)

omit hgroup in
theorem composed_checkMember {groupId : UInt64} {asset : Actor}
    (hask : ∀ wrap site, part _ (ask wrap (Backend.hasRelation groupId asset)) site) (site : Site) :
    Composed part (checkMember groupId asset) site := by
  refine .look ?_ rfl
  split
  · refine .bind (.part (hask _ site)) fun stored after _ => ?_
    split
    · exact .refusal _ after
    · exact .value _ after
  · exact .value _ site

end Groups

section Policies

variable {part : (α : Type) → Call α → Site → Prop}
  (hfind : ∀ wrap method (look : Store → Option Policy) site,
    part _ (ask wrap (Backend.find method look)) site)
  (hpolicy : ∀ id site, Composed part (policyById id) site)
  (hroster : ∀ policyId site, Composed part (rosterOf policyId) site)
include hfind

/-- The store is asked about a designator if the index does not know it. -/
theorem composed_isTaken (ownId : UInt64) (indexed : PolicyIndex → Option UInt64)
    (context : String) (method : StoreMethod) (look : Store → Option Policy) (site : Site) :
    Composed part (isTaken ownId indexed context (Backend.find method look)) site := by
  refine .look ?_ rfl
  split
  · exact .value _ site
  · exact (Composed.part (hfind _ method look site)).map _

theorem composed_checkKeyFree (ownId : UInt64) (key : String) (site : Site) :
    Composed part (checkKeyFree ownId key) site := by
  refine .bind (composed_isTaken hfind ownId _ _ _ _ site) fun taken after _ => ?_
  split
  · exact .refusal _ after
  · exact .value _ after

theorem composed_checkObjectFree (ownId : UInt64) (object : PolicyObject) (site : Site) :
    Composed part (checkObjectFree ownId object) site := by
  refine .bind (composed_isTaken hfind ownId _ _ _ _ site) fun taken after _ => ?_
  split
  · exact .refusal _ after
  · exact .value _ after

/-- The key is checked first and then the object, as far as the policy has them. -/
theorem composed_checkDesignatorsFree (policy : Policy) (site : Site) :
    Composed part (checkDesignatorsFree policy) site := by
  unfold checkDesignatorsFree
  cases policy.key with
  | none =>
    cases policy.object with
    | none => exact .value _ site
    | some object => exact composed_checkObjectFree hfind policy.id object site
  | some key =>
    refine .bind (composed_checkKeyFree hfind policy.id key site) fun _ after _ => ?_
    cases policy.object with
    | none => exact .value _ after
    | some object => exact composed_checkObjectFree hfind policy.id object after

omit hfind in
include hpolicy in
/-- The policies above are read one by one. -/
theorem composed_checkAcyclicFrom (policyId : UInt64) (trail : Trail) (nextId : UInt64)
    (site : Site) : Composed part (checkAcyclicFrom policyId trail nextId) site := by
  induction trail, nextId using checkAcyclicFrom.induct policyId generalizing site with
  | case1 trail =>
    rw [checkAcyclicFrom, if_pos rfl]
    exact .value _ site
  | case2 trail nonzero =>
    rw [checkAcyclicFrom, if_neg nonzero, if_pos rfl]
    exact .refusal _ site
  | case3 trail nextId nonzero other fresh ih =>
    rw [checkAcyclicFrom, if_neg nonzero, if_neg other, dif_pos fresh]
    exact .bind (hpolicy nextId site) fun next after _ => ih next after
  | case4 trail nextId nonzero other stale =>
    rw [checkAcyclicFrom, if_neg nonzero, if_neg other, dif_neg stale]
    exact .refusal _ site

include hpolicy in
/-- The designators are checked before the parent, if there is to be one. -/
theorem composed_policyToCreate (now : Timestamp) (key : Option String) (ownerId parentId : UInt64)
    (object : Option PolicyObject) (flags : PolicyFlags) (site : Site) :
    Composed part (policyToCreate now key ownerId parentId object flags) site := by
  refine .bind (.lifted _ site) fun draft first _ => ?_
  refine .bind (composed_checkDesignatorsFree hfind draft first) fun _ second _ => ?_
  split
  · exact (hpolicy parentId second).map _
  · exact .value _ second

include hpolicy hroster in
/-- Whatever is to be amended, the live roster is found last. -/
theorem composed_ready (now : Timestamp) (amendment : Amendment) (site : Site) :
    Composed part (amendment.ready now) site := by
  cases amendment with
  | update policy =>
    -- key and object may not change, and the parent is checked only if it does
    refine .bind (hpolicy policy.id site) fun current first _ => ?_
    dsimp only
    split
    · exact composed_throw_bind _ _ first
    cases changedObjectField? current.object policy.object with
    | some field => exact composed_throw_bind _ _ first
    | none =>
      refine .bind (.lifted _ first) fun _ second _ => ?_
      refine .bind (composed_checkDesignatorsFree hfind policy second) fun _ third _ => ?_
      split
      · exact .bind (composed_checkAcyclicFrom hpolicy policy.id _ policy.parentId third)
          fun _ after _ => (hroster policy.id after).map _
      · exact (hroster policy.id third).map _
  | move policyId parentId =>
    refine .bind (hpolicy policyId site) fun policy first _ => ?_
    dsimp only
    split
    · rw [pure_bind]
      exact (hroster policyId first).map _
    · refine .bind (hpolicy parentId first) fun _ second _ => ?_
      refine .bind (composed_checkAcyclicFrom hpolicy policyId _ parentId second)
        fun _ after _ => ?_
      rw [pure_bind]
      exact (hroster policyId after).map _

end Policies

/-! ### Parts -/

/-- What calls are put together of.  Rights are resolved, with the cache, at sites that are
fit for it only. -/
inductive Part (fit : Site → Prop) : (α : Type) → Call α → Site → Prop
  | ask {α : Type} (wrap : StoreError → AccessError) {request : StoreCall α}
      (edits : request.Edits) (site : Site) : Part fit α (Call.ask wrap request) site
  | attempt {request : StoreCall Unit} (edits : request.Edits) (site : Site) :
      Part fit Unit (Call.attempt request) site
  /-- Something is noted in the memory, other than in the indexes and the cache. -/
  | note {edit : Node → Node} (groups : ∀ node, (edit node).groups = node.groups)
      (policies : ∀ node, (edit node).policies = node.policies)
      (kept : ∀ node, (edit node).cache = node.cache)
      (cache : ∀ node, edit { node with cache := none } = { edit node with cache := none })
      (site : Site) : Part fit Unit (editNode edit) site
  | regroup {edit : GroupIndex → GroupIndex} (edits : ∀ index : GroupIndex, index.Edit (edit index))
      (site : Site) : Part fit Unit (editGroups edit) site
  /-- A policy is taken in that is stored. -/
  | takeIn {id : UInt64} {policy : Policy} {site : Site}
      (stored : site.backend.store.policies.policies[id]? = some policy) :
      Part fit Unit (editPolicies (·.insert policy)) site
  /-- A policy is forgotten as soon as it is removed. -/
  | remove (wrap : StoreError → AccessError) (policyId : UInt64) (site : Site) :
      Part fit Unit (do
        Call.ask wrap (Backend.deletePolicy policyId)
        editPolicies (·.remove policyId)) site
  | resolve {site : Site} (here : fit site) (policyId : UInt64) (actor : Actor) :
      Part fit Rights (effectiveAccess policyId actor) site

variable {fit : Site → Prop}

theorem composed_ask (wrap : StoreError → AccessError) {α : Type} {request : StoreCall α}
    (h : request.Edits) (site : Site) : Composed (Part fit) (ask wrap request) site :=
  .part (.ask wrap h site)

/-- Questions for one thing edit nothing, so they are parts. -/
theorem part_find {α : Type} (wrap : StoreError → AccessError) (method : StoreMethod)
    (look : Store → Option α) (site : Site) :
    Part fit _ (Call.ask wrap (Backend.find method look)) site :=
  .ask wrap (Backend.looks_find method look).edits site

theorem composed_editGroups {edit : GroupIndex → GroupIndex}
    (h : ∀ index : GroupIndex, index.Edit (edit index)) (site : Site) :
    Composed (Part fit) (editGroups edit) site :=
  .part (.regroup h site)

/-- A note in the memory is a part. -/
theorem composed_editNode {edit : Node → Node} (hgroups : ∀ node, (edit node).groups = node.groups)
    (hpolicies : ∀ node, (edit node).policies = node.policies)
    (hkept : ∀ node, (edit node).cache = node.cache)
    (hcache : ∀ node, edit { node with cache := none } = { edit node with cache := none })
    (site : Site) : Composed (Part fit) (editNode edit) site :=
  .part (.note hgroups hpolicies hkept hcache site)

theorem composed_putRoster (roster : Roster) (site : Site) :
    Composed (Part fit) (putRoster roster) site := by
  refine composed_editNode ?_ ?_ ?_ ?_ site <;> exact fun _ => rfl

theorem composed_editRoster (policyId : UInt64) (edit : Roster → Roster) (site : Site) :
    Composed (Part fit) (editRoster policyId edit) site := by
  refine composed_editNode ?_ ?_ ?_ ?_ site <;> exact fun _ => rfl

theorem composed_bump (site : Site) : Composed (Part fit) bump site := by
  refine composed_editNode ?_ ?_ ?_ ?_ site <;> exact fun _ => rfl

/-- A policy can be taken in where it is stored. -/
theorem composed_takeIn {site : Site} {id : UInt64} {policy : Policy}
    (h : site.backend.store.policies.policies[id]? = some policy) :
    Composed (Part fit) (editPolicies (·.insert policy)) site :=
  .part (.takeIn h)

/-! ### Groups -/

theorem composed_load (site : Site) : Composed (Part fit) load site :=
  .bind (composed_ask _ Backend.looks_allGroups.edits site) fun groups first _ =>
    .bind (composed_ask _ Backend.looks_allRelations.edits first) fun relations second _ =>
      .bind (composed_editGroups (fun _ => .build groups relations) second) fun _ third _ =>
        composed_bump third

theorem composed_readGroup (indexed : GroupIndex → Option Group) (context : String)
    {fetch : StoreCall (Option Group)} (hfetch : fetch.Edits) (designation : String) (site : Site) :
    Composed (Part fit) (readGroup indexed context fetch designation) site := by
  refine .look ?_ rfl
  split
  · exact .value _ site
  · refine .bind (composed_ask _ hfetch site) fun found after _ => ?_
    cases found with
    | none => exact .refusal _ after
    | some group => exact (composed_editGroups (fun _ => .insert group) after).map _

theorem composed_groupById (id : UInt64) (site : Site) :
    Composed (Part fit) (groupById id) site := by
  unfold groupById
  split
  · exact .refusal _ site
  · exact composed_readGroup _ _ (Backend.looks_find _ _).edits _ site

/-- The stored group is taken in, and that is counted. -/
theorem composed_storeGroup (wrap : StoreError → AccessError) (group : Group) (site : Site) :
    Composed (Part fit) (storeGroup wrap group) site :=
  .bind (composed_ask wrap (Backend.edits_upsertGroup group) site) fun stored first _ =>
    .bind (composed_editGroups (fun _ => .insert stored) first) fun _ second _ =>
      (composed_bump second).map _

theorem composed_createGroup (now : Timestamp) (flags : GroupFlags) (parentId : UInt64)
    (key displayName : String) (site : Site) :
    Composed (Part fit) (createGroup now flags parentId key displayName) site := by
  rw [createGroup_eq]
  exact .bind
    (composed_groupToCreate composed_groupById (part_find · _ _) now flags parentId displayName site)
    fun group after _ => composed_storeGroup _ group after

theorem composed_updateGroup (now : Timestamp) (group : Group) (site : Site) :
    Composed (Part fit) (updateGroup now group) site := by
  rw [updateGroup_eq]
  exact .bind (composed_groupToUpdate composed_groupById (part_find · _ _) now site)
    fun group after _ => composed_storeGroup _ group after

theorem composed_moveGroup (now : Timestamp) (groupId parentId : UInt64) (site : Site) :
    Composed (Part fit) (moveGroup now groupId parentId) site := by
  rw [moveGroup_eq]
  exact .bind (composed_groupToMove composed_groupById now groupId parentId site)
    fun group after _ => composed_storeGroup _ group after

theorem composed_dropRelations (groupId : UInt64) (assets : List Actor) (site : Site) :
    Composed (Part fit) (dropRelations groupId assets) site := by
  induction assets generalizing site with
  | nil => exact .value _ site
  | cons asset assets ih =>
    exact .bind (.part (.attempt (Backend.edits_deleteRelation groupId asset) site))
      fun _ after _ => ih after

/-- A group is removed from the store first, and from the index last. -/
theorem composed_deleteGroup (groupId : UInt64) (site : Site) :
    Composed (Part fit) (deleteGroup groupId) site := by
  have hask (wrap : StoreError → AccessError) (site : Site) :
      Part fit _ (ask wrap (Backend.childGroups groupId)) site :=
    .ask wrap (Backend.looks_childGroups groupId).edits site
  rw [deleteGroup_eq]
  refine .bind (composed_checkRemoval composed_groupById hask site) fun members first _ => ?_
  refine .bind (composed_dropRelations groupId members first) fun _ second _ => ?_
  refine .bind (composed_ask _ (Backend.edits_deleteGroup groupId) second) fun _ third _ => ?_
  exact .bind (composed_editGroups (fun _ => .remove groupId) third) fun _ after _ =>
    composed_bump after

/-- Whether the store has a membership is a question like any other. -/
theorem part_hasRelation (groupId : UInt64) (asset : Actor) (wrap : StoreError → AccessError)
    (site : Site) : Part fit _ (ask wrap (Backend.hasRelation groupId asset)) site :=
  .ask wrap (Backend.looks_hasRelation groupId asset).edits site

/-- A membership that only the store had is linked as well, though the call is refused. -/
theorem composed_relate (groupId : UInt64) (asset : Actor) (site : Site) :
    Composed (Part fit) (relate groupId asset) site := by
  have hlink (site : Site) : Composed (Part fit) (editGroups (·.link groupId asset)) site :=
    composed_editGroups (fun _ => .link groupId asset) site
  rw [relate_eq]
  refine .bind (composed_checkNew composed_groupById (part_hasRelation groupId asset) site)
    fun stored first _ => ?_
  unfold enrollUnless
  split
  · exact .bind (hlink first) fun _ after _ => composed_throw_bind _ _ after
  · refine .bind (composed_ask _ (Backend.edits_createRelation groupId asset) first)
      fun _ second _ => ?_
    exact .bind (hlink second) fun _ after _ => composed_bump after

/-- The store is asked about a membership only if the index does not have it. -/
theorem composed_unrelate (groupId : UInt64) (asset : Actor) (site : Site) :
    Composed (Part fit) (unrelate groupId asset) site := by
  rw [unrelate_eq]
  refine .bind (composed_checkMember (part_hasRelation groupId asset) site) fun _ first _ => ?_
  refine .bind (composed_ask _ (Backend.edits_deleteRelation groupId asset) first)
    fun _ second _ => ?_
  exact .bind (composed_editGroups (fun _ => .unlink groupId asset) second) fun _ after _ =>
    composed_bump after

/-- One group is joined after the other, also those that the asset was in. -/
theorem composed_joinAll (asset : Actor) (groupIds : List UInt64) (site : Site) :
    Composed (Part fit) (joinAll asset groupIds) site := by
  induction groupIds generalizing site with
  | nil => exact .value _ site
  | cons groupId groupIds ih =>
    refine .bind (composed_relate groupId asset site).outcome fun result after _ => ?_
    split
    · exact (ih after).map _
    · exact ih after
    · exact .refusal _ after

theorem composed_joinDefaults (asset : Actor) (site : Site) :
    Composed (Part fit) (joinDefaults asset) site :=
  .bind (composed_checkAsset asset site) fun _ after _ =>
    .look (composed_joinAll asset _ after) rfl

/-! ### Policies -/

/-- Whatever designates a policy, what is fetched is stored. -/
theorem composed_readPolicy (indexed : PolicyIndex → Option Policy) (context : String)
    {fetch : StoreCall (Option Policy)} {look : Store → Option Policy}
    (hfetch : Backend.Looks fetch (Backend.Backs look) look)
    (hlook : ∀ {store policy}, look store = some policy →
      ∃ id : UInt64, store.policies.policies[id]? = some policy) (designation : String)
    (site : Site) : Composed (Part fit) (readPolicy indexed context fetch designation) site := by
  refine .look ?_ rfl
  split
  · exact .value _ site
  · refine .bind (composed_ask _ hfetch.edits site) fun found after hask => ?_
    cases found with
    | none => exact .refusal _ after
    | some policy =>
      obtain ⟨hrun, -⟩ := ask_eq_ok hask
      have hstore := hfetch.store site.backend
      have hbacked := hfetch.backed site.backend (some policy)
      rw [hrun] at hstore hbacked
      obtain ⟨id, hstored⟩ := hlook (hbacked rfl policy rfl)
      rw [← hstore] at hstored
      exact (composed_takeIn hstored).map _

theorem composed_policyById (id : UInt64) (site : Site) :
    Composed (Part fit) (policyById id) site := by
  unfold policyById
  split
  · exact .refusal _ site
  · exact composed_readPolicy _ _ (Backend.looks_find _ _) (fun h => ⟨id, h⟩) _ site

/-- A roster is read if it is not live, and is live from then on. -/
theorem composed_rosterOf (policyId : UInt64) (site : Site) :
    Composed (Part fit) (rosterOf policyId) site := by
  unfold rosterOf
  split
  · exact composed_throw_bind _ _ site
  refine .look ?_ rfl
  split
  · exact .value _ site
  · refine .bind (composed_ask _ (Backend.looks_rosterOfPolicy policyId).edits site)
      fun found after _ => ?_
    split
    · exact .refusal _ after
    · dsimp only
      split
      · exact composed_throw_bind _ _ after
      · exact (composed_putRoster _ after).map _

/-- A policy is taken in only after the store has taken it. -/
theorem composed_persist (policy : Policy) (roster : Roster) (site : Site) :
    Composed (Part fit) (persist policy roster) site := by
  refine .bind (composed_ask _ (Backend.edits_updatePolicy policy _) site).outcome
    fun result first hask => ?_
  cases result with
  | error error =>
    -- the roster is rolled back, and that counts
    exact .bind (composed_putRoster _ first) fun _ second _ =>
      .bind (composed_bump second) fun _ after _ => .refusal error after
  | ok =>
    have hstored := Backend.stored_of_updatePolicy (ask_eq_ok (outcome_eq_ok hask)).1
    refine .bind (composed_putRoster _ first) fun _ second hput => ?_
    cases hput
    exact .bind (composed_takeIn hstored) fun _ after _ => composed_bump after

theorem composed_storeNewPolicy (policy : Policy) (site : Site) :
    Composed (Part fit) (storeNewPolicy policy) site := by
  refine .bind (composed_ask _ (Backend.edits_createPolicy policy _) site).outcome
    fun result first _ => ?_
  split
  · exact .value _ first
  · exact .bind (composed_checkDesignatorsFree part_find policy first) fun _ after _ => .refusal _ after
  · exact .refusal _ first

/-- A new policy is given only if the store has just taken it. -/
theorem run_of_storeNewPolicy {policy : Policy} {created : Policy × RosterRecord}
    {site after : Site} (h : (storeNewPolicy policy).perform site = (.ok created, after)) :
    (Backend.createPolicy policy (.empty 0)).run.run site.backend =
      (.ok created, after.backend) := by
  unfold storeNewPolicy at h
  rw [perform_bind] at h
  split at h
  · rename_i result middle hask
    split at h
    · cases h
      exact (ask_eq_ok (outcome_eq_ok hask)).1
    · rw [perform_bind] at h
      split at h <;> cases h
    · cases h
  · cases h

theorem composed_createPolicy (now : Timestamp) (key : Option String) (ownerId parentId : UInt64)
    (object : Option PolicyObject) (flags : PolicyFlags) (site : Site) :
    Composed (Part fit) (createPolicy now key ownerId parentId object flags) site := by
  rw [createPolicy_eq]
  refine .bind (composed_policyToCreate part_find composed_policyById now key ownerId parentId
    object flags site) fun draft first _ => ?_
  refine .bind (composed_storeNewPolicy draft first) fun created second hrun => ?_
  have hstored := Backend.stored_of_createPolicy (run_of_storeNewPolicy hrun)
  dsimp only
  split
  · exact composed_throw_bind _ _ second
  · exact .bind (composed_takeIn hstored) fun _ after _ => (composed_putRoster _ after).map _

/-- An update and a move of a policy end alike. -/
theorem composed_amendment (now : Timestamp) (amendment : Amendment) (site : Site) :
    Composed (Part fit) (amendment.call now) site := by
  rw [Amendment.call_eq]
  refine .bind (composed_ready part_find composed_policyById composed_rosterOf now amendment site)
    fun amended first _ => ?_
  refine .bind (composed_persist amended.policy amended.roster first) fun _ second _ => ?_
  split
  · exact (composed_editRoster _ _ second).map _
  · exact .value _ second

/-- The policy, its roster and the count go last. -/
theorem composed_deletePolicy (policyId : UInt64) (site : Site) :
    Composed (Part fit) (deletePolicy policyId) site := by
  refine .bind (composed_policyById policyId site) fun _ first _ => ?_
  -- the removal from the store and from the index is one part
  rw [← bind_assoc]
  refine .bind (.part (.remove _ policyId first)) fun _ second _ => ?_
  refine .bind (composed_editNode ?_ ?_ ?_ ?_ second) fun _ after _ => composed_bump after <;>
    exact fun _ => rfl

/-! ### Rights -/

theorem composed_groupRightsIn (roster : Roster) (groupId : UInt64) (site : Site) :
    Composed (Part fit) (groupRightsIn roster groupId) site :=
  .bind (composed_ancestry composed_groupById groupId site) fun _ after _ =>
    (composed_putRoster _ after).map _

theorem composed_groupsRightsIn (roster : Roster) (groupIds : List UInt64) (site : Site) :
    Composed (Part fit) (groupsRightsIn roster groupIds) site := by
  induction groupIds generalizing site roster with
  | nil => exact .value _ site
  | cons groupId groupIds ih =>
    exact .bind (composed_groupRightsIn roster groupId site) fun first after _ =>
      (ih first.2 after).map _

/-- What a policy contributes is read from its roster, which remembers what it was asked. -/
theorem composed_ownRights (policy : Policy) (actor : Actor) (site : Site) :
    Composed (Part fit) (ownRights policy actor) site := by
  refine .bind (composed_rosterOf policy.id site) fun roster first _ => ?_
  cases actor.kind with
  | everyone => exact .value _ first
  | role | group => exact (composed_groupRightsIn roster actor.id first).map _
  | user =>
    refine .look ?_ rfl
    exact .bind (composed_groupsRightsIn roster _ first) fun found after _ =>
      (composed_putRoster _ after).map _

theorem composed_summarizedUserAccess (policyId userId : UInt64) (site : Site) :
    Composed (Part fit) (summarizedUserAccess policyId userId) site :=
  .bind (composed_policyById policyId site) fun policy after _ =>
    composed_ownRights policy _ after

theorem composed_groupAccess (policyId groupId : UInt64) (site : Site) :
    Composed (Part fit) (groupAccess policyId groupId) site :=
  .bind (composed_policyById policyId site) fun _ middle _ =>
    .bind (composed_rosterOf policyId middle) fun roster after _ =>
      (composed_groupRightsIn roster groupId after).map _

/-- The policies on the way up are read one by one. -/
theorem composed_contributorsFrom (trail : Trail) (policyId : UInt64) (site : Site) :
    Composed (Part fit) (contributorsFrom trail policyId) site := by
  induction trail, policyId using contributorsFrom.induct generalizing site with
  | case1 trail policyId fresh ih =>
    rw [contributorsFrom, dif_pos fresh]
    refine .bind (composed_policyById policyId site) fun policy after _ => ?_
    split
    · exact ih policy after
    · split
      · exact (ih policy after).map _
      · exact .value _ after
  | case2 trail policyId stale =>
    rw [contributorsFrom, dif_neg stale]
    exact .refusal _ site

theorem composed_contributedRights (actor : Actor) (policies : List Policy) (site : Site) :
    Composed (Part fit) (contributedRights actor policies) site := by
  induction policies generalizing site with
  | nil => exact .value _ site
  | cons policy policies ih =>
    exact .bind (composed_ownRights policy actor site) fun _ after _ => (ih after).map _

/-- A resolution without the cache does not need a site that is fit for one with it. -/
theorem composed_resolve (policyId : UInt64) (actor : Actor) (site : Site) :
    Composed (Part fit) (resolve policyId actor) site :=
  .bind (composed_contributorsFrom .empty policyId site) fun policies after _ =>
    composed_contributedRights actor policies after

/-! ### Granting and revoking -/

/-- A roster is opened by being backed up. -/
theorem composed_openRoster (policyId : UInt64) (site : Site) :
    Composed (Part fit) (openRoster policyId) site :=
  .bind (composed_policyById policyId site) fun _ middle _ =>
    .bind (composed_rosterOf policyId middle) fun _ after _ => composed_putRoster _ after

/-- A change that was refused is rolled back, and counts as well. -/
theorem composed_settle (policyId : UInt64) (outcome : Except AccessError Unit) (site : Site) :
    Composed (Part fit) (settle policyId outcome) site := by
  cases outcome with
  | ok => exact composed_bump site
  | error error =>
    exact .bind (composed_editRoster _ _ site) fun _ middle _ =>
      .bind (composed_bump middle) fun _ after _ => .refusal error after

/-- Sites stay fit while a change of rights is prepared: when it is checked whose rights are to
change, and when the roster is opened. -/
structure StaysFit (fit : Site → Prop) : Prop where
  granted {site after : Site} {grantee : Actor} (before : fit site)
    (run : (checkGrantee grantee).perform site = (.ok (), after)) : fit after
  revoked {site after : Site} {grantee : Actor} (before : fit site)
    (run : (checkRevoked grantee).perform site = (.ok (), after)) : fit after
  opened {site after : Site} {policyId : UInt64} (before : fit site)
    (run : (openRoster policyId).perform site = (.ok (), after)) : fit after

/-- The rights of the grantor are resolved where the roster has been opened. -/
theorem composed_changeAccess {site : Site} (hfit : StaysFit fit) {check : Call Unit}
    (hcheck : Composed (Part fit) check site)
    (hchecked : ∀ after, check.perform site = (.ok (), after) → fit after) (policyId : UInt64)
    (grantor : Actor) (change : Change) (allowed : Rights → Prop) [DecidablePred allowed]
    (refusal : Rights → AccessError) :
    Composed (Part fit) (changeAccess check policyId grantor change allowed refusal) site := by
  refine .bind hcheck fun _ checked hrun => ?_
  refine .bind (composed_openRoster policyId checked) fun _ opened hopened => ?_
  have hhere := hfit.opened (hchecked checked hrun) hopened
  refine .bind (.outcome (.bind (.part (.resolve hhere policyId grantor)) fun held after _ => ?_))
    fun result after _ => composed_settle policyId result after
  split
  · exact composed_editRoster _ _ after
  · exact .refusal _ after

theorem composed_rosterStep (policyId : UInt64) (step : RosterStep) (site : Site) :
    Composed (Part fit) (rosterStep policyId step) site :=
  .bind (composed_rosterOf policyId site) fun _ after _ => (composed_putRoster _ after).map _

/-! ### Requests -/

theorem composed_checkAccess {site : Site} (h : fit site) (policyId : UInt64) (actor : Actor)
    (rights : Rights) : Composed (Part fit) (checkAccess policyId actor rights) site := by
  refine .bind (.part (.resolve h policyId actor)) fun held after _ => ?_
  split
  · exact .refusal _ after
  · exact .value _ after

/-- At a site that is fit for resolving rights, every request is put together of parts. -/
theorem composed_answer {site : Site} (hfit : StaysFit fit) (h : fit site) (now : Timestamp)
    (request : Request) : Composed (Part fit) (answer now request) site := by
  -- every request is a call whose value is made into a reply
  cases request with
  | createPolicy key ownerId parentId object flags =>
    exact (composed_createPolicy now key ownerId parentId object flags site).map _
  | updatePolicy policy => exact (composed_amendment now (.update policy) site).map _
  | movePolicy policyId parentId => exact (composed_amendment now (.move policyId parentId) site).map _
  | deletePolicy policyId => exact (composed_deletePolicy policyId site).map _
  | policyById policyId => exact (composed_policyById policyId site).map _
  | policyByKey =>
    refine (composed_readPolicy _ _ (Backend.looks_find _ _) ?_ _ site).map _
    exact fun h => (PolicyTables.byKey?_eq_some h).1
  | policyByObject =>
    refine (composed_readPolicy _ _ (Backend.looks_find _ _) ?_ _ site).map _
    exact fun h => (PolicyTables.byObject?_eq_some h).1
  | rosterOf policyId => exact (composed_rosterOf policyId site).map _
  | grantAccess policyId grantor grantee rights =>
    refine Composed.map ?_ _
    rw [grantAccess_eq]
    exact composed_changeAccess hfit (composed_checkGrantee composed_groupById grantee site)
      (fun _ => hfit.granted h) ..
  | revokeAccess policyId grantor grantee =>
    refine Composed.map ?_ _
    rw [revokeAccess_eq]
    exact composed_changeAccess hfit (composed_checkRevoked grantee site)
      (fun _ => hfit.revoked h) ..
  | hasRights policyId actor rights =>
    exact ((Composed.part (.resolve h policyId actor)).map _).map _
  | checkAccess policyId actor rights => exact (composed_checkAccess h policyId actor rights).map _
  | effectiveAccess policyId actor => exact (Composed.part (.resolve h policyId actor)).map _
  | summarizedUserAccess policyId userId =>
    exact (composed_summarizedUserAccess policyId userId site).map _
  | groupAccess policyId groupId => exact (composed_groupAccess policyId groupId site).map _
  | createGroup flags parentId key displayName =>
    exact (composed_createGroup now flags parentId key displayName site).map _
  | updateGroup group => exact (composed_updateGroup now group site).map _
  | moveGroup groupId parentId => exact (composed_moveGroup now groupId parentId site).map _
  | deleteGroup groupId => exact (composed_deleteGroup groupId site).map _
  | groupById groupId => exact (composed_groupById groupId site).map _
  | groupByKey | groupByName =>
    exact (composed_readGroup _ _ (Backend.looks_find _ _).edits _ site).map _
  | relate groupId asset => exact (composed_relate groupId asset site).map _
  | unrelate groupId asset => exact (composed_unrelate groupId asset site).map _
  | joinDefaults asset => exact (composed_joinDefaults asset site).map _
  -- these are answered from the memory of the node alone
  | groupsByAsset | members | isMember | defaultGroups | groupCount => exact .look (.value _ site) rfl
  | ancestry groupId => exact (composed_ancestry composed_groupById groupId site).map _
  | isCircuited groupId => exact (composed_isCircuited composed_groupById groupId site).map _
  | load => exact (composed_load site).map _

end Site

end AccessRights
