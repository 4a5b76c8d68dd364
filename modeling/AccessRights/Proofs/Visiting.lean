/-
AccessRights/Proofs/Visiting.lean

What the walks look up, and how they end, whatever is indexed and stored.

A walk looks up one number after the other and goes on only with what it finds
(`Call.Visits`).  The trail keeps it from looking up a number twice, and every number
but the last one has led to a row, so a walk is no longer than the rows that there
are (`Call.VisitsOnce`).  Where it stops tells how the parent links go on: to zero,
into a circle, or to a number that nothing has.

Main result: `Filed.walksEnd`.
-/
import AccessRights.Proofs.Browsing

namespace AccessRights

namespace View

variable {view : View} {id last : UInt64} {line : List UInt64} {groups : List Group}

/-! ### Lists of ancestors -/

/-- What the walk to the root gives for a group: the group, its parent and so on, up to a root,
and each of them as it is shown. -/
structure Climbs (view : View) (id : UInt64) (groups : List Group) : Prop where
  shown : ∀ group ∈ groups, view.group? group.id = some group
  starts : groups.head?.map Group.id = some id
  climbs : groups.IsChain fun group parent => parent.id = group.parentId
  nodup : (groups.map Group.id).Nodup
  root : groups.getLast?.map Group.parentId = some 0

/-- The groups on a line of links. -/
theorem lineage_of_line (h : view.groupLinks.Line id line) :
    view.Lineage id (line.filterMap view.group?) := by
  induction h with
  | root => exact .root
  | step nonzero link _ ih =>
    obtain ⟨group, hgroup, rfl⟩ := groupLinks_eq_some.1 link
    rw [List.filterMap_cons, hgroup]
    exact .child nonzero hgroup ih

/-- They go up from one to the next, if groups are found under their own numbers. -/
theorem Lineage.climbs (hown : ∀ {id group}, view.group? id = some group → group.id = id)
    (h : view.Lineage id groups) (hid : id ≠ 0) :
    groups.head?.map Group.id = some id ∧
      (groups.IsChain fun group parent => parent.id = group.parentId) ∧
      groups.getLast?.map Group.parentId = some 0 := by
  induction h with
  | root => exact absurd rfl hid
  | @child groupId group ancestors nonzero found above ih =>
    refine ⟨congrArg some (hown found), ?_⟩
    by_cases hroot : group.parentId = 0
    · rw [hroot] at above
      cases above with
      | root => exact ⟨.singleton group, congrArg some hroot⟩
      | child nonzero => exact absurd rfl nonzero
    · obtain ⟨hstarts, hclimbs, hlast⟩ := ih hroot
      cases ancestors with
      | nil => cases hstarts
      | cons parent ancestors =>
        exact ⟨.cons_cons (Option.some.inj hstarts) hclimbs, hlast⟩

/-- The walk over policies is refused for a circle if it stops where it has been before. -/
theorem collect_eq_circular_iff :
    (∃ other, view.collect line last = .error (.circularParent other)) ↔ last ∈ line := by
  unfold collect
  by_cases hmem : last ∈ line
  · exact iff_of_true ⟨last, if_pos hmem⟩ hmem
  · rw [if_neg hmem]
    refine iff_of_false (fun ⟨other, hother⟩ => ?_) hmem
    split at hother
    · cases hother
    · cases hpolicy : view.policy? last with
      | none =>
        rw [hpolicy] at hother
        cases hother
      | some policy =>
        rw [hpolicy] at hother
        cases hother

/-- What the groups on a course to zero are. -/
theorem climbs_of_course (hown : ∀ {id group}, view.group? id = some group → group.id = id)
    (hcourse : view.groupLinks.Course id line 0) (hid : id ≠ 0) (hzero : view.group? 0 = none) :
    view.Climbs id (line.filterMap view.group?) := by
  obtain ⟨hstarts, hclimbs, hroot⟩ := (lineage_of_line
    (hcourse.path.line_of_zero rfl (groupLinks_eq_none.2 hzero))).climbs hown hid
  have hshown : ∀ group ∈ line.filterMap view.group?, view.group? group.id = some group := by
    intro group hmem
    obtain ⟨other, -, hother⟩ := List.mem_filterMap.1 hmem
    rw [hown hother, hother]
  have hnodup : ((line.filterMap view.group?).map Group.id).Nodup := by
    rw [List.Nodup, List.pairwise_map]
    refine List.Pairwise.filterMap view.group? ?_ hcourse.nodup
    intro first second hne group hgroup other hother heq
    exact hne (by rw [← hown hgroup, ← hown hother, heq])
  exact ⟨hshown, hstarts, hclimbs, hnodup, hroot⟩

end View

namespace Call

variable {Row α β : Type} {look : UInt64 → Call Row} {site after : Site} {call : Call α}
  {id : UInt64} {ids : List UInt64} {trail : Trail}

/-! ### Calls that look up numbers -/

/-- From this site on the call looks up the numbers of the list, one after the other, and does
nothing else.  What it does next depends on what it has found, and if it has found nothing, it
ends. -/
inductive Visits (look : UInt64 → Call Row) : Site → Call α → List UInt64 → Prop
  | ends {site : Site} (result : Except AccessError α) : Visits look site (liftExcept result) []
  | missed {site : Site} {id : UInt64} {next : Except AccessError Row → Call α}
      {error : AccessError} {result : Except AccessError α}
      (missing : ((look id).perform site).1 = .error error)
      (ended : next (.error error) = liftExcept result) :
      Visits look site ((look id).outcome >>= next) [id]
  | found {site after : Site} {id : UInt64} {next : Except AccessError Row → Call α} {row : Row}
      {ids : List UInt64} (finding : (look id).perform site = (.ok row, after))
      (rest : Visits look after (next (.ok row)) ids) :
      Visits look site ((look id).outcome >>= next) (id :: ids)

/-- Calls are the same if they do the same everywhere. -/
theorem eq_of_perform {call other : Call α} (h : ∀ site, call.perform site = other.perform site) :
    call = other :=
  funext h

/-- Going on after a call is looking at its outcome. -/
theorem bind_eq_outcome (call : Call α) (next : α → Call β) :
    call >>= next = call.outcome >>= fun result => liftExcept result >>= next := by
  refine eq_of_perform fun site => ?_
  rw [perform_bind, perform_bind, perform_outcome]
  rcases call.perform site with ⟨error | value, after⟩ <;> rfl

theorem outcome_bind_outcome (call : Call α) (next : Except AccessError α → Call β) {γ : Type}
    (last : Except AccessError β → Call γ) :
    (call.outcome >>= next).outcome >>= last =
      call.outcome >>= fun result => (next result).outcome >>= last := by
  refine eq_of_perform fun site => ?_
  rw [perform_bind, perform_bind, perform_outcome, perform_outcome, perform_bind, perform_outcome]
  dsimp only
  rw [perform_bind, perform_outcome]

theorem liftExcept_outcome_bind (result : Except AccessError α)
    (settle : Except AccessError α → Except AccessError β) :
    ((liftExcept result : Call α).outcome >>= fun result => liftExcept (settle result)) =
      liftExcept (settle result) := by
  refine eq_of_perform fun site => ?_
  rw [perform_bind, perform_outcome, perform_liftExcept]

/-- A conclusion from the outcome of a walk takes no look-up. -/
theorem Visits.settle (h : Visits look site call ids)
    (settle : Except AccessError α → Except AccessError β) :
    Visits look site (call.outcome >>= fun result => liftExcept (settle result)) ids := by
  induction h with
  | ends result =>
    rw [liftExcept_outcome_bind]
    exact .ends _
  | @missed _ _ _ _ result missing ended =>
    have hended := liftExcept_outcome_bind result settle
    rw [← ended] at hended
    rw [outcome_bind_outcome]
    exact .missed missing hended
  | found finding _ ih =>
    rw [outcome_bind_outcome]
    exact .found finding ih

/-! ### Walks that look up no number twice -/

/-- The call looks up numbers, none of them twice and none that is on the trail. -/
def Roams (look : UInt64 → Call Row) (trail : Trail) (site : Site) (call : Call α) : Prop :=
  ∃ ids, Visits look site call ids ∧ ids.Nodup ∧ ∀ id ∈ ids, id ∉ trail

theorem roams_liftExcept (result : Except AccessError α) :
    Roams look trail site (liftExcept result) :=
  ⟨[], .ends result, .nil, List.forall_mem_nil _⟩

/-- What has been looked up is on the trail from then on. -/
theorem roams_look {next : Row → Call α} (fresh : id ∉ trail)
    (hnext : ∀ row after, (look id).perform site = (.ok row, after) →
      Roams look (trail.add id fresh) after (next row)) :
    Roams look trail site (look id >>= next) := by
  rw [bind_eq_outcome]
  rcases hlook : (look id).perform site with ⟨error | row, after⟩
  · have hends : liftExcept (.error error) >>= next = liftExcept (.error error) := rfl
    exact ⟨[id], .missed (congrArg Prod.fst hlook) hends, List.pairwise_singleton _ id,
      List.forall_mem_singleton.2 fresh⟩
  · obtain ⟨ids, hvisits, hnodup, hclear⟩ := hnext row after hlook
    simp only [Trail.mem_add, not_or] at hclear
    exact ⟨id :: ids, .found hlook hvisits,
      List.nodup_cons.2 ⟨fun hmem => (hclear id hmem).1 rfl, hnodup⟩,
      List.forall_mem_cons.2 ⟨fresh, fun other hmem => (hclear other hmem).2⟩⟩

theorem Roams.settle (h : Roams look trail site call)
    (settle : Except AccessError α → Except AccessError β) :
    Roams look trail site (call.outcome >>= fun result => liftExcept (settle result)) := by
  obtain ⟨ids, hvisits, hclear⟩ := h
  exact ⟨ids, hvisits.settle settle, hclear⟩

theorem Roams.map (h : Roams look trail site call) (value : α → β) :
    Roams look trail site (call >>= fun found => pure (value found)) := by
  have hmap : (call >>= fun found => pure (value found)) =
      call.outcome >>= fun result => liftExcept (result.map value) := by
    rw [bind_eq_outcome]
    refine congrArg _ (funext fun result => ?_)
    cases result <;> rfl
  exact hmap ▸ h.settle (Except.map value)

/-- Whatever a walk goes on from has been found, and finding it keeps what is said of the site. -/
theorem Visits.of_mem_dropLast (holds : UInt64 → Prop) (keeps : Site → Prop)
    (hlook : ∀ {site after id row}, keeps site → (look id).perform site = (.ok row, after) →
      holds id ∧ keeps after)
    (h : Visits look site call ids) (hsite : keeps site) : ∀ id ∈ ids.dropLast, holds id := by
  induction h with
  | ends => exact List.forall_mem_nil _
  | missed => exact List.forall_mem_nil _
  | @found site after id next row ids finding rest ih =>
    obtain ⟨hholds, hafter⟩ := hlook hsite finding
    cases ids with
    | nil => exact List.forall_mem_nil _
    | cons => exact List.forall_mem_cons.2 ⟨hholds, ih hafter⟩

/-- The call looks up no number twice, and at most one number more than there are rows. -/
def VisitsOnce (look : UInt64 → Call Row) (rows : Nat) (site : Site) (call : Call α) : Prop :=
  ∃ ids, Visits look site call ids ∧ ids.Nodup ∧ ids.length ≤ rows + 1

/-- A list without repetition is no longer than the tables in which its numbers are found. -/
theorem length_le_of_found {indexed stored : Table Row} (hnodup : ids.Nodup)
    (hfound : ∀ id ∈ ids, (indexed[id]?.or stored[id]?).isSome) :
    ids.length ≤ indexed.size + stored.size := by
  have hsubset : ids ⊆ indexed.keys ++ stored.keys := by
    intro id hmem
    have hsome := hfound id hmem
    rw [Option.isSome_or, Bool.or_eq_true] at hsome
    rw [List.mem_append, Std.ExtTreeMap.mem_keys, Std.ExtTreeMap.mem_keys]
    exact hsome.imp Std.ExtTreeMap.mem_iff_isSome_getElem?.2 Std.ExtTreeMap.mem_iff_isSome_getElem?.2
  have hlength := hnodup.length_le_of_subset hsubset
  rwa [List.length_append, Std.ExtTreeMap.length_keys, Std.ExtTreeMap.length_keys] at hlength

/-- A walk that goes on only from numbers that are found in one of two tables. -/
theorem Roams.visitsOnce {indexed stored : Table Row} (h : Roams look .empty site call)
    (keeps : Site → Prop) (hsite : keeps site)
    (hlook : ∀ {site after id row}, keeps site → (look id).perform site = (.ok row, after) →
      (indexed[id]?.or stored[id]?).isSome ∧ keeps after) :
    VisitsOnce look (indexed.size + stored.size) site call := by
  obtain ⟨ids, hvisits, hnodup, -⟩ := h
  have hlength := length_le_of_found (hnodup.sublist (List.dropLast_sublist ids))
    (hvisits.of_mem_dropLast _ keeps hlook hsite)
  rw [List.length_dropLast] at hlength
  exact ⟨ids, hvisits, hnodup, by omega⟩

end Call

namespace Site

open Call

variable {site after : Site} {id : UInt64}

/-! ### The walks as look-ups -/

theorem roams_ancestryFrom (site : Site) (trail : Trail) (groupId : UInt64) :
    Roams groupById trail site (ancestryFrom trail groupId) := by
  induction trail, groupId using ancestryFrom.induct generalizing site with
  | case1 trail =>
    rw [ancestryFrom, if_pos rfl]
    exact roams_liftExcept (.ok [])
  | case2 trail groupId nonzero fresh ih =>
    rw [ancestryFrom, if_neg nonzero, dif_pos fresh]
    exact roams_look fresh fun group after _ => (ih group after).map (group :: ·)
  | case3 trail groupId nonzero stale =>
    rw [ancestryFrom, if_neg nonzero, dif_neg stale]
    exact roams_liftExcept (.error (.circularGroup groupId))

theorem roams_contributorsFrom (site : Site) (trail : Trail) (policyId : UInt64) :
    Roams policyById trail site (contributorsFrom trail policyId) := by
  induction trail, policyId using contributorsFrom.induct generalizing site with
  | case1 trail policyId fresh ih =>
    rw [contributorsFrom, dif_pos fresh]
    refine roams_look fresh fun policy after _ => ?_
    split
    · exact ih policy after
    split
    · exact (ih policy after).map (policy :: ·)
    · exact roams_liftExcept (.ok [policy])
  | case2 trail policyId stale =>
    rw [contributorsFrom, dif_neg stale]
    exact roams_liftExcept (.error (.circularParent policyId))

theorem roams_checkAcyclicFrom (site : Site) (policyId : UInt64) (trail : Trail) (nextId : UInt64) :
    Roams policyById trail site (checkAcyclicFrom policyId trail nextId) := by
  induction trail, nextId using checkAcyclicFrom.induct policyId generalizing site with
  | case1 trail =>
    rw [checkAcyclicFrom, if_pos rfl]
    exact roams_liftExcept (.ok ())
  | case2 trail nonzero =>
    rw [checkAcyclicFrom, if_neg nonzero, if_pos rfl]
    exact roams_liftExcept (.error (.circularParent policyId))
  | case3 trail nextId nonzero other fresh ih =>
    rw [checkAcyclicFrom, if_neg nonzero, if_neg other, dif_pos fresh]
    exact roams_look fresh fun policy after _ => ih policy after
  | case4 trail nextId nonzero other stale =>
    rw [checkAcyclicFrom, if_neg nonzero, if_neg other, dif_neg stale]
    exact roams_liftExcept (.error (.circularParent policyId))

/-- What the outcome of the walk to the root says about circles. -/
def circuited : Except AccessError (List Group) → Except AccessError Bool
  | .ok _ => .ok false
  | .error (.circularGroup _) => .ok true
  | .error error => .error error

theorem isCircuited_eq (groupId : UInt64) :
    isCircuited groupId =
      (ancestry groupId).outcome >>= fun result => liftExcept (circuited result) := by
  unfold isCircuited
  refine congrArg _ (funext fun result => ?_)
  obtain error | groups := result
  · cases error <;> rfl
  · rfl

/-- Asking for a circle takes the look-ups of the walk to the root. -/
theorem roams_isCircuited (site : Site) (groupId : UInt64) :
    Roams groupById .empty site (isCircuited groupId) := by
  rw [isCircuited_eq]
  exact (roams_ancestryFrom site .empty groupId).settle circuited

/-! ### How many rows there are -/

/-- The rows of groups, those that are indexed and stored counted twice. -/
def groupRows (site : Site) : Nat :=
  site.node.groups.byId.size + site.backend.store.groups.groups.size

/-- The rows of policies, likewise. -/
def policyRows (site : Site) : Nat :=
  site.node.policies.byId.size + site.backend.store.policies.policies.size

variable {α : Type} {call : Call α}

/-- While the store does not fail, a walk over groups goes on only from groups that are there. -/
theorem Filed.visitsOnce_groups (h : site.Filed) (hcalm : site.backend.faults = [])
    (hroams : Roams groupById .empty site call) :
    VisitsOnce groupById site.groupRows site call := by
  refine hroams.visitsOnce site.Browses h.browses fun {middle after id group} hmiddle hlook => ?_
  obtain ⟨later, hlater, hrun⟩ := hmiddle.filed.perform_groupById (hmiddle.backend ▸ hcalm) id
  obtain ⟨hfound, rfl⟩ := Prod.mk.inj (hlook.symm.trans hrun)
  rw [hmiddle.group] at hfound
  refine ⟨?_, hmiddle.trans hlater⟩
  by_cases hzero : id = 0
  · subst hzero
    cases hfound
  have hview : site.view.group? id =
      (site.node.groups.byId[id]?.or site.backend.store.groups.groups[id]?) := if_neg hzero
  rw [← hview]
  cases hgroup : site.view.group? id with
  | none =>
    rw [hgroup] at hfound
    cases hfound
  | some => rfl

/-- So does a walk over policies. -/
theorem Filed.visitsOnce_policies (h : site.Filed) (hcalm : site.backend.faults = [])
    (hroams : Roams policyById .empty site call) :
    VisitsOnce policyById site.policyRows site call := by
  refine hroams.visitsOnce site.Browses h.browses fun {middle after id policy} hmiddle hlook => ?_
  obtain ⟨later, hlater, hrun⟩ := hmiddle.filed.perform_policyById (hmiddle.backend ▸ hcalm) id
  obtain ⟨hfound, rfl⟩ := Prod.mk.inj (hlook.symm.trans hrun)
  rw [hmiddle.policy] at hfound
  refine ⟨?_, hmiddle.trans hlater⟩
  by_cases hzero : id = 0
  · subst hzero
    cases hfound
  have hview : site.view.policy? id =
      (site.node.policies.byId[id]?.or site.backend.store.policies.policies[id]?) := if_neg hzero
  rw [← hview]
  cases hpolicy : site.view.policy? id with
  | none =>
    rw [if_neg hzero, hpolicy] at hfound
    cases hfound
  | some => rfl

/-! ### How the walks end -/

/-- The links of a group lead to zero, or into a circle, or to a group that is not there, and that
is how the walk to the root ends. -/
theorem Filed.ancestry_cases (h : site.Filed) (hcalm : site.backend.faults = []) (id : UInt64) :
    (∃ line, site.view.groupLinks.Course id line 0 ∧
        ((ancestry id).perform site).1 = .ok (line.filterMap site.view.group?)) ∧
      site.view.groupLinks.Chain id 0 ∧ ¬ site.view.groupLinks.Circles id ∨
    (∃ other, ((ancestry id).perform site).1 = .error (.circularGroup other)) ∧
      ¬ site.view.groupLinks.Chain id 0 ∧ site.view.groupLinks.Circles id ∨
    (∃ other, ((ancestry id).perform site).1 = .error (.groupNotFound (toString other)) ∧
        other ≠ 0 ∧ site.view.groupLinks.Chain id other ∧ site.view.group? other = none) ∧
      ¬ site.view.groupLinks.Chain id 0 ∧ ¬ site.view.groupLinks.Circles id := by
  obtain ⟨line, last, hcourse⟩ := site.view.groupLinks.exists_course id
  have hunlinked : site.view.groupLinks 0 = none := rfl
  have hpassed : last ∈ line → last ≠ 0 := by
    rintro hmem rfl
    obtain ⟨-, next, hnext, -⟩ := hcourse.path.of_mem hmem
    cases hunlinked.symm.trans hnext
  rw [h.ancestry_of_course hcalm hcourse, hcourse.chain_iff_of_none hunlinked, hcourse.circles_iff]
  unfold View.climb
  -- the course ends at the root, where it came by before, or where no group is
  by_cases hroot : last = 0
  · subst hroot
    exact .inl ⟨⟨line, hcourse, if_pos rfl⟩, rfl, fun hmem => hpassed hmem rfl⟩
  rw [if_neg hroot]
  by_cases hmem : last ∈ line
  · rw [if_pos hmem]
    exact .inr (.inl ⟨⟨last, rfl⟩, Ne.symm hroot, hmem⟩)
  · rw [if_neg hmem]
    have hmissing := View.groupLinks_eq_none.1 (hcourse.stops.resolve_left hmem)
    exact .inr (.inr ⟨⟨last, rfl, hroot, hcourse.path.chain, hmissing⟩, Ne.symm hroot, hmem⟩)

/-- The walks look up no number twice, and where they stop is told by the parent links. -/
structure WalksEnd (site : Site) : Prop where
  /-- No walk looks up a number twice. -/
  ancestryOnce (id : UInt64) : VisitsOnce groupById site.groupRows site (ancestry id)
  isCircuitedOnce (id : UInt64) : VisitsOnce groupById site.groupRows site (isCircuited id)
  contributorsOnce (id : UInt64) : VisitsOnce policyById site.policyRows site (contributors id)
  checkAcyclicOnce (policyId parentId : UInt64) :
    VisitsOnce policyById site.policyRows site (checkAcyclic policyId parentId)
  /-- A group has a list of ancestors if its links reach zero. -/
  reaches (id : UInt64) : (∃ groups, ((ancestry id).perform site).1 = .ok groups) ↔
    site.view.groupLinks.Chain id 0
  climbs {id : UInt64} {groups : List Group} (hid : id ≠ 0)
    (hgroups : ((ancestry id).perform site).1 = .ok groups) : site.view.Climbs id groups
  /-- It is told to be in a circle if its links lead into one. -/
  circles (id : UInt64) :
    (∃ other, ((ancestry id).perform site).1 = .error (.circularGroup other)) ↔
      site.view.groupLinks.Circles id
  circuited (id : UInt64) : ((isCircuited id).perform site).1 = .ok true ↔
    site.view.groupLinks.Circles id
  /-- Otherwise a group is missing to which the links lead. -/
  misses (id : UInt64) :
    (∃ designation, ((ancestry id).perform site).1 = .error (.groupNotFound designation)) ↔
      ¬ site.view.groupLinks.Chain id 0 ∧ ¬ site.view.groupLinks.Circles id
  missing {id : UInt64} {designation : String}
    (hmissing : ((ancestry id).perform site).1 = .error (.groupNotFound designation)) :
    ∃ other, other ≠ 0 ∧ site.view.groupLinks.Chain id other ∧ site.view.group? other = none ∧
      designation = toString other
  /-- A resolution is refused for a circle if the links that it follows lead into one. -/
  passes (id : UInt64) :
    (∃ other, ((contributors id).perform site).1 = .error (.circularParent other)) ↔
      site.view.passingLinks.Circles id

/-- So it is for any contents of the store and the node, while the store does not fail. -/
theorem Filed.walksEnd (h : site.Filed) (hcalm : site.backend.faults = []) : site.WalksEnd where
  ancestryOnce id := h.visitsOnce_groups hcalm (roams_ancestryFrom site .empty id)
  isCircuitedOnce id := h.visitsOnce_groups hcalm (roams_isCircuited site id)
  contributorsOnce id := h.visitsOnce_policies hcalm (roams_contributorsFrom site .empty id)
  checkAcyclicOnce policyId parentId :=
    h.visitsOnce_policies hcalm (roams_checkAcyclicFrom site policyId .empty parentId)
  reaches id := by
    obtain ⟨⟨line, -, hrun⟩, hchain, -⟩ | ⟨⟨other, hrun⟩, hchain, -⟩ | ⟨⟨other, hrun, -⟩, hchain, -⟩ :=
      h.ancestry_cases hcalm id <;> simp [hrun, hchain]
  climbs {id groups} hid hgroups := by
    obtain ⟨⟨line, hcourse, hrun⟩, -⟩ | ⟨⟨other, hrun⟩, -⟩ | ⟨⟨other, hrun, -⟩, -⟩ :=
      h.ancestry_cases hcalm id <;> cases hrun.symm.trans hgroups
    exact View.climbs_of_course h.id_of_view hcourse hid rfl
  circles id := by
    obtain ⟨⟨line, -, hrun⟩, -, hcircles⟩ | ⟨⟨other, hrun⟩, -, hcircles⟩ |
      ⟨⟨other, hrun, -⟩, -, hcircles⟩ := h.ancestry_cases hcalm id <;> simp [hrun, hcircles]
  circuited id := by
    have hperform : ((isCircuited id).perform site).1 = circuited ((ancestry id).perform site).1 := by
      rw [isCircuited_eq, perform_bind, perform_outcome]
      exact congrArg Prod.fst (perform_liftExcept _ _)
    rw [hperform]
    obtain ⟨⟨line, -, hrun⟩, -, hcircles⟩ | ⟨⟨other, hrun⟩, -, hcircles⟩ |
      ⟨⟨other, hrun, -⟩, -, hcircles⟩ := h.ancestry_cases hcalm id <;> simp [hrun, hcircles, circuited]
  misses id := by
    obtain ⟨⟨line, -, hrun⟩, hchain, hcircles⟩ | ⟨⟨other, hrun⟩, hchain, hcircles⟩ |
      ⟨⟨other, hrun, -⟩, hchain, hcircles⟩ := h.ancestry_cases hcalm id <;>
      simp [hrun, hchain, hcircles]
  missing {id designation} hmissing := by
    obtain ⟨⟨line, -, hrun⟩, -⟩ | ⟨⟨other, hrun⟩, -⟩ | ⟨⟨other, hrun, hother⟩, -⟩ :=
      h.ancestry_cases hcalm id <;> cases hrun.symm.trans hmissing
    exact ⟨other, hother.1, hother.2.1, hother.2.2, rfl⟩
  passes id := by
    obtain ⟨line, last, hcourse⟩ := site.view.passingLinks.exists_course id
    rw [h.contributors_of_course hcalm hcourse, hcourse.circles_iff, View.collect_eq_circular_iff]

/-! ### Tangled links -/

/-- Groups and policies that somebody has planted.  The groups 1 and 2 are below each other, one of
them a role, and so are the policies 1 and 2, one of which has both flags.  The group 3 is below
itself, and the group 4 below one that is not there.  The node knows another group 5, which is
not stored and below no other. -/
def tangled : Site :=
  { node := { groups := GroupIndex.insert {} ⟨5, 0, .group, "e", "E", default, default⟩ }
    backend := { store := {
      policies := {
        lastId := 2
        policies := ((∅ : Table Policy).insert 1
          ⟨1, 2, 7, some "p", none, ⟨PolicyFlags.inherit.bits ||| PolicyFlags.extend.bits⟩,
            default, default⟩).insert 2
          ⟨2, 1, 7, some "q", none, .extend, default, default⟩ }
      groups := {
        lastId := 4
        groups := ((((∅ : Table Group).insert 1 ⟨1, 2, .group, "a", "A", default, default⟩).insert 2
          ⟨2, 1, .role, "b", "B", default, default⟩).insert 3
          ⟨3, 3, .group, "c", "C", default, default⟩).insert 4
          ⟨4, 9, .group, "d", "D", default, default⟩ } } } }

theorem filed_tangled : tangled.Filed where
  policies {id policy} h := by
    have h : (((∅ : Table Policy).insert 1 _).insert 2 _)[id]? = some policy := h
    simp only [Std.ExtTreeMap.getElem?_insert] at h
    grind
  groups {id group} h := by
    have h : (((((∅ : Table Group).insert 1 _).insert 2 _).insert 3 _).insert 4 _)[id]? = some group := h
    simp only [Std.ExtTreeMap.getElem?_insert] at h
    grind
  indexed {id group} h := by
    have h : ((∅ : Table Group).insert 5 _)[id]? = some group := h
    simp only [Std.ExtTreeMap.getElem?_insert] at h
    grind

/-- The walks end there all the same. -/
theorem walksEnd_tangled : tangled.Filed ∧ tangled.backend.faults = [] ∧ tangled.WalksEnd ∧
    ((isCircuited 1).perform tangled).1 = .ok true ∧
    ((isCircuited 3).perform tangled).1 = .ok true ∧
    (∃ designation, ((ancestry 4).perform tangled).1 = .error (.groupNotFound designation)) ∧
    (∃ groups, ((ancestry 5).perform tangled).1 = .ok groups ∧ tangled.view.Climbs 5 groups) ∧
    ∃ other, ((contributors 1).perform tangled).1 = .error (.circularParent other) := by
  have hends := filed_tangled.walksEnd rfl
  have hpair : tangled.view.groupLinks.Circles 1 := ⟨1, .refl, .head rfl (.single rfl)⟩
  have hself : tangled.view.groupLinks.Circles 3 := ⟨3, .refl, .single rfl⟩
  have hpolicies : tangled.view.passingLinks.Circles 1 := ⟨1, .refl, .head rfl (.single rfl)⟩
  have hlost : tangled.view.groupLinks.Course 4 [4] 9 :=
    ⟨.step rfl .here, by decide, .inr rfl⟩
  have hroot : tangled.view.groupLinks.Chain 5 0 := .single rfl
  obtain ⟨groups, hgroups⟩ := (hends.reaches 5).2 hroot
  refine ⟨filed_tangled, rfl, hends, (hends.circuited 1).2 hpair, (hends.circuited 3).2 hself,
    (hends.misses 4).2 ?_, ⟨groups, hgroups, hends.climbs (by decide) hgroups⟩,
    (hends.passes 1).2 hpolicies⟩
  rw [hlost.chain_iff_of_none rfl, hlost.circles_iff]
  decide

end Site

end AccessRights
