/-
AccessRights/Proofs/Browsing.lean

Walks along parent links, over whatever is indexed and stored.

The walk to the root of a group and the walk over the policies that contribute
follow parent links that somebody else may have laid: they may run in a circle, or
lead to something that is not there.  What is read through on the way goes into the
index and changes nothing of what is found, provided that rows are kept under their
own numbers (`Site.Filed`).  So, while the store does not fail, a walk keeps to one
course along the links that were there when it began, and what that stops at decides
how the walk ends.

Main results: `ancestry_of_course` and `contributors_of_course`.
-/
import AccessRights.Proofs.Alignment
import AccessRights.Proofs.Courses
import AccessRights.Proofs.Resolution
import AccessRights.Proofs.Uniqueness

namespace AccessRights

namespace View

variable {view other : View} {id next last : UInt64} {line : List UInt64}

/-! ### Links to follow -/

/-- The parent links of the groups that a view shows. -/
def groupLinks (view : View) : Links := fun id =>
  (view.group? id).map Group.parentId

/-- The parent links that a resolution follows: those of inherited and of extended policies. -/
def passingLinks (view : View) : Links := fun id =>
  (view.policy? id).bind fun policy =>
    if policy.isInherited ∨ policy.isExtended then some policy.parentId else none

theorem groupLinks_eq_some : view.groupLinks id = some next ↔
    ∃ group, view.group? id = some group ∧ group.parentId = next :=
  Option.map_eq_some_iff

theorem groupLinks_eq_none : view.groupLinks id = none ↔ view.group? id = none :=
  Option.map_eq_none_iff

theorem passingLinks_eq_some : view.passingLinks id = some next ↔
    ∃ policy, view.policy? id = some policy ∧ (policy.isInherited = true ∨ policy.isExtended = true) ∧
      policy.parentId = next := by
  unfold passingLinks
  rw [Option.bind_eq_some_iff]
  refine exists_congr fun policy => and_congr_right fun _ => ?_
  split <;> simp_all

theorem groupLinks_congr (h : other.group? = view.group?) : other.groupLinks = view.groupLinks := by
  unfold groupLinks
  rw [h]

theorem passingLinks_congr (h : other.policy? = view.policy?) :
    other.passingLinks = view.passingLinks := by
  unfold passingLinks
  rw [h]

/-! ### How a walk ends -/

/-- The groups on a course to zero.  Any other course is refused. -/
def climb (view : View) (line : List UInt64) (last : UInt64) : Except AccessError (List Group) :=
  if last = 0 then .ok (line.filterMap view.group?)
  else if last ∈ line then .error (.circularGroup last)
  else .error (.groupNotFound (toString last))

/-- The policies on a course to one that passes nothing on, without those that are inherited.
Any other course is refused. -/
def collect (view : View) (line : List UInt64) (last : UInt64) : Except AccessError (List Policy) :=
  if last ∈ line then .error (.circularParent last)
  else if last = 0 then .error .zeroPolicyId
  else (view.policy? last).elim (.error (.policyNotFound (toString last))) fun policy =>
    .ok ((line.filterMap view.policy?).filter (!·.isInherited) ++ [policy])

end View

namespace Site

open Call

variable {site after : Site} {id next last : UInt64} {line : List UInt64}

/-! ### Rows under their own numbers -/

/-- Stored rows and indexed groups are kept under their own numbers. -/
structure Filed (site : Site) : Prop where
  policies : site.backend.store.policies.Numbered
  groups : site.backend.store.groups.Numbered
  indexed {id : UInt64} {group : Group} : site.node.groups.group? id = some group → group.id = id

/-- So it is at any node over a store that keeps its rows under their numbers. -/
theorem Exposed.filed (h : site.Exposed) (hpolicies : site.backend.store.policies.Numbered)
    (hgroups : site.backend.store.groups.Numbered) : site.Filed :=
  ⟨hpolicies, hgroups, h.aligned.id⟩

/-- A group that is found has the number it was found under. -/
theorem Filed.id_of_view (h : site.Filed) {group : Group} (hfound : site.view.group? id = some group) :
    group.id = id := by
  have hfound : (if id = 0 then none else
    (site.node.groups.group? id).or (site.backend.store.groups.byId? id)) = some group := hfound
  split at hfound
  · cases hfound
  · obtain hknown | ⟨-, hstored⟩ := Option.or_eq_some_iff.1 hfound
    · exact h.indexed hknown
    · exact h.groups hstored

/-- Nothing has happened but that policies and groups were read through. -/
structure Browses (site after : Site) : Prop where
  filed : after.Filed
  backend : after.backend = site.backend
  policy : after.view.policy? = site.view.policy?
  group : after.view.group? = site.view.group?

theorem Filed.browses (h : site.Filed) : site.Browses site :=
  ⟨h, rfl, rfl, rfl⟩

theorem Browses.trans {last : Site} (h : site.Browses after) (hlast : after.Browses last) :
    site.Browses last :=
  ⟨hlast.filed, hlast.backend.trans h.backend, hlast.policy.trans h.policy, hlast.group.trans h.group⟩

/-- Taking in a row that is stored, and was not known, does not change what is found. -/
theorem readThrough_eq {Row : Type} {row : Row} {known taken stored : UInt64 → Option Row}
    (htaken : ∀ other, taken other = if id = other then some row else known other)
    (hknown : known id = none) (hstored : stored id = some row) :
    (fun other => if other = 0 then none else (taken other).or (stored other)) =
      fun other => if other = 0 then none else (known other).or (stored other) := by
  funext other
  rw [htaken]
  by_cases hother : id = other
  · subst hother
    rw [if_pos rfl, hknown, hstored]
    rfl
  · rw [if_neg hother]

/-- Reading a group through does not change what is found. -/
theorem Filed.browses_groupById (h : site.Filed) (hcalm : site.backend.faults = []) (id : UInt64) :
    site.Browses ((groupById id).perform site).2 := by
  unfold groupById readGroup
  split
  · exact h.browses
  rw [perform_bind, perform_currentNode]
  dsimp only
  cases hknown : site.node.groups.group? id with
  | some group => exact h.browses
  | none =>
    have hask := perform_ask_of_calm (Backend.looks_find .groupById fun store => store.groups.byId? id)
      (.store ("group " ++ toString id)) hcalm
    dsimp only
    rw [perform_bind, show (ask _ (Backend.groupById id)).perform site = _ from hask]
    cases hstored : site.backend.store.groups.byId? id with
    | none => exact h.browses
    | some group =>
      -- it is taken in under its own number, which is the one that was asked for
      have hown : group.id = id := h.groups hstored
      have htaken (other : UInt64) : (site.node.groups.insert group).group? other =
          if id = other then some group else site.node.groups.group? other :=
        hown ▸ GroupIndex.group?_insert _ group other
      refine ⟨⟨h.policies, h.groups, fun {other found} hfound => ?_⟩, rfl, rfl,
        readThrough_eq htaken hknown hstored⟩
      have hfound := (htaken other).symm.trans hfound
      split at hfound
      · rename_i hother
        cases hfound
        exact hown.trans hother
      · exact h.indexed hfound

/-- Nor does reading a policy through. -/
theorem Filed.browses_policyById (h : site.Filed) (hcalm : site.backend.faults = []) (id : UInt64) :
    site.Browses ((policyById id).perform site).2 := by
  unfold policyById readPolicy
  split
  · exact h.browses
  rw [perform_bind, perform_currentNode]
  dsimp only
  cases hknown : site.node.policies.policy? id with
  | some policy => exact h.browses
  | none =>
    have hask := perform_ask_of_calm (Backend.looks_find .policyById fun store => store.policies.byId? id)
      (.store ("policy " ++ toString id)) hcalm
    dsimp only
    rw [perform_bind, show (ask _ (Backend.policyById id)).perform site = _ from hask]
    cases hstored : site.backend.store.policies.byId? id with
    | none => exact h.browses
    | some policy =>
      have hown : policy.id = id := h.policies hstored
      have htaken (other : UInt64) : (site.node.policies.insert policy).policy? other =
          if id = other then some policy else site.node.policies.policy? other :=
        hown ▸ PolicyIndex.policy?_insert _ policy other
      exact ⟨⟨h.policies, h.groups, h.indexed⟩, rfl, readThrough_eq htaken hknown hstored, rfl⟩

theorem Filed.perform_groupById (h : site.Filed) (hcalm : site.backend.faults = []) (id : UInt64) :
    ∃ after, site.Browses after ∧ (groupById id).perform site =
      ((site.view.group? id).elim (.error (.groupNotFound (toString id))) .ok, after) :=
  ⟨_, h.browses_groupById hcalm id, Prod.ext (groupById_of_calm hcalm id) rfl⟩

theorem Filed.perform_policyById (h : site.Filed) (hcalm : site.backend.faults = []) (id : UInt64) :
    ∃ after, site.Browses after ∧ (policyById id).perform site =
      (if id = 0 then .error .zeroPolicyId
      else (site.view.policy? id).elim (.error (.policyNotFound (toString id))) .ok, after) :=
  ⟨_, h.browses_policyById hcalm id, Prod.ext (policyById_of_calm hcalm id) rfl⟩

/-! ### The ancestors of a group -/

/-- A walk that has passed the trail keeps to what is ahead of it. -/
theorem Filed.ancestryFrom_of_ahead {view : View} {trail : Trail}
    (hahead : view.groupLinks.Ahead trail id line last) (hzero : view.group? 0 = none)
    (h : site.Filed) (hcalm : site.backend.faults = []) (hview : site.view.group? = view.group?) :
    ((ancestryFrom trail id).perform site).1 =
      if last = 0 then .ok (line.filterMap view.group?)
      else if last ∈ trail ∨ last ∈ line then .error (.circularGroup last)
      else .error (.groupNotFound (toString last)) := by
  induction line generalizing site trail id with
  | nil =>
    obtain ⟨rfl, hstops⟩ := Links.ahead_nil_iff.1 hahead
    rw [ancestryFrom]
    split
    · rfl
    split
    · rename_i fresh
      -- the walk stops here because the group is not there
      have hnone := View.groupLinks_eq_none.1 (hstops.resolve_left fresh)
      obtain ⟨after, -, hrun⟩ := h.perform_groupById hcalm id
      rw [hview, hnone] at hrun
      rw [perform_bind, hrun, if_neg (not_or.2 ⟨fresh, List.not_mem_nil⟩)]
      rfl
    · rename_i stale
      rw [if_pos (.inl (Decidable.not_not.1 stale))]
      rfl
  | cons first line ih =>
    obtain ⟨rfl, fresh, next, link, hahead⟩ := Links.ahead_cons_iff.1 hahead
    obtain ⟨group, hgroup, rfl⟩ := View.groupLinks_eq_some.1 link
    have hnonzero : first ≠ 0 := by
      rintro rfl
      cases hzero.symm.trans hgroup
    obtain ⟨after, hbrowses, hrun⟩ := h.perform_groupById hcalm first
    rw [hview, hgroup] at hrun
    have hrest := ih hahead hbrowses.filed (hbrowses.backend ▸ hcalm) (hbrowses.group.trans hview)
    simp only [Links.mem_add_or_mem] at hrest
    rw [ancestryFrom, if_neg hnonzero, dif_pos fresh, perform_bind, hrun]
    dsimp only [Option.elim_some]
    rw [perform_bind_pure]
    dsimp only
    rw [hrest, List.filterMap_cons, hgroup]
    split
    · rfl
    · split <;> rfl

/-- While the store does not fail, the walk to the root ends as the course of the group says. -/
theorem Filed.ancestry_of_course (h : site.Filed) (hcalm : site.backend.faults = [])
    (hcourse : site.view.groupLinks.Course id line last) :
    ((ancestry id).perform site).1 = site.view.climb line last := by
  rw [ancestry, h.ancestryFrom_of_ahead (Links.ahead_empty_iff.2 hcourse) rfl hcalm rfl]
  unfold View.climb
  simp only [Trail.not_mem_empty, false_or]

/-- How it ends depends on groups only. -/
theorem Filed.ancestry_congr (h : site.Filed) (hcalm : site.backend.faults = []) (h' : after.Filed)
    (hcalm' : after.backend.faults = []) (hgroup : after.view.group? = site.view.group?)
    (id : UInt64) : ((ancestry id).perform after).1 = ((ancestry id).perform site).1 := by
  have hlinks := View.groupLinks_congr hgroup
  obtain ⟨line, last, hcourse⟩ := site.view.groupLinks.exists_course id
  rw [h.ancestry_of_course hcalm hcourse, h'.ancestry_of_course hcalm' (hlinks ▸ hcourse)]
  unfold View.climb
  rw [hgroup]

/-! ### The policies that contribute -/

/-- At a policy without a link to follow the walk stops. -/
theorem Filed.contributorsFrom_of_stop {trail : Trail} (h : site.Filed)
    (hcalm : site.backend.faults = []) (fresh : id ∉ trail)
    (hstops : site.view.passingLinks id = none) :
    ((contributorsFrom trail id).perform site).1 =
      if id = 0 then .error .zeroPolicyId
      else (site.view.policy? id).elim (.error (.policyNotFound (toString id))) fun policy =>
        .ok [policy] := by
  obtain ⟨after, -, hrun⟩ := h.perform_policyById hcalm id
  rw [contributorsFrom, dif_pos fresh, perform_bind, hrun]
  by_cases hid : id = 0
  · rw [if_pos hid, if_pos hid]
  rw [if_neg hid, if_neg hid]
  cases hpolicy : site.view.policy? id with
  | none => rfl
  | some policy =>
    -- a policy without a link to follow is neither inherited nor extended
    have halone : ¬ (policy.isInherited = true ∨ policy.isExtended = true) := fun hpasses => by
      cases hstops.symm.trans (View.passingLinks_eq_some.2 ⟨policy, hpolicy, hpasses, rfl⟩)
    obtain ⟨hinherited, hextended⟩ := not_or.1 halone
    dsimp only [Option.elim_some]
    rw [if_neg hinherited, if_neg hextended]
    rfl

/-- Where there is a link it goes on, and leaves out a policy that is inherited. -/
theorem Filed.contributorsFrom_of_link {trail : Trail} {policy : Policy} (h : site.Filed)
    (hcalm : site.backend.faults = []) (fresh : id ∉ trail) (hid : id ≠ 0)
    (hpolicy : site.view.policy? id = some policy)
    (hpasses : policy.isInherited = true ∨ policy.isExtended = true) :
    ∃ after, site.Browses after ∧ ((contributorsFrom trail id).perform site).1 =
      ((contributorsFrom (trail.add id fresh) policy.parentId).perform after).1.map
        ([policy].filter (!·.isInherited) ++ ·) := by
  obtain ⟨after, hbrowses, hrun⟩ := h.perform_policyById hcalm id
  rw [if_neg hid, hpolicy] at hrun
  refine ⟨after, hbrowses, ?_⟩
  rw [contributorsFrom, dif_pos fresh, perform_bind, hrun]
  dsimp only [Option.elim_some]
  -- an inheriting policy contributes nothing, an extended one itself
  cases hinherited : policy.isInherited with
  | true =>
    rw [if_pos rfl, List.filter_cons_of_neg (by rw [hinherited]; decide)]
    cases ((contributorsFrom (trail.add id fresh) policy.parentId).perform after).1 <;> rfl
  | false =>
    have hextended : policy.isExtended = true := by
      rw [hinherited] at hpasses
      exact hpasses.resolve_left Bool.false_ne_true
    rw [if_neg Bool.false_ne_true, if_pos hextended, perform_bind_pure,
      List.filter_cons_of_pos (by rw [hinherited]; rfl)]
    dsimp only
    cases ((contributorsFrom (trail.add id fresh) policy.parentId).perform after).1 <;> rfl

/-- A walk over policies keeps to what is ahead of it as well, and leaves out those that are
inherited. -/
theorem Filed.contributorsFrom_of_ahead {view : View} {trail : Trail}
    (hahead : view.passingLinks.Ahead trail id line last) (hzero : view.policy? 0 = none)
    (h : site.Filed) (hcalm : site.backend.faults = []) (hview : site.view.policy? = view.policy?) :
    ((contributorsFrom trail id).perform site).1 =
      if last ∈ trail ∨ last ∈ line then .error (.circularParent last)
      else if last = 0 then .error .zeroPolicyId
      else (view.policy? last).elim (.error (.policyNotFound (toString last))) fun policy =>
        .ok ((line.filterMap view.policy?).filter (!·.isInherited) ++ [policy]) := by
  -- along the line ahead, while the site takes in what it passes
  induction line generalizing site trail id with
  | nil =>
    obtain ⟨rfl, hstops⟩ := Links.ahead_nil_iff.1 hahead
    by_cases hmem : id ∈ trail
    · rw [contributorsFrom, dif_neg (not_not_intro hmem), if_pos (.inl hmem)]
      rfl
    · have hstops := (congrFun (View.passingLinks_congr hview) id).trans (hstops.resolve_left hmem)
      rw [h.contributorsFrom_of_stop hcalm hmem hstops, hview,
        if_neg (not_or.2 ⟨hmem, List.not_mem_nil⟩)]
      rfl
  | cons first line ih =>
    obtain ⟨rfl, fresh, next, link, hahead⟩ := Links.ahead_cons_iff.1 hahead
    obtain ⟨policy, hpolicy, hpasses, rfl⟩ := View.passingLinks_eq_some.1 link
    have hnonzero : first ≠ 0 := by
      rintro rfl
      cases hzero.symm.trans hpolicy
    obtain ⟨after, hbrowses, hrun⟩ :=
      h.contributorsFrom_of_link hcalm fresh hnonzero (hview ▸ hpolicy) hpasses
    have hrest := ih hahead hbrowses.filed (hbrowses.backend ▸ hcalm) (hbrowses.policy.trans hview)
    simp only [Links.mem_add_or_mem] at hrest
    rw [hrun, hrest, List.filterMap_cons, hpolicy]
    split
    · rfl
    split
    · rfl
    cases view.policy? last with
    | none => rfl
    | some final =>
      refine congrArg Except.ok ?_
      dsimp only
      rw [← List.append_assoc, ← List.filter_append]
      rfl

/-- While the store does not fail, the walk over the policies ends as its course says. -/
theorem Filed.contributors_of_course (h : site.Filed) (hcalm : site.backend.faults = [])
    (hcourse : site.view.passingLinks.Course id line last) :
    ((contributors id).perform site).1 = site.view.collect line last := by
  rw [contributors, h.contributorsFrom_of_ahead (Links.ahead_empty_iff.2 hcourse) rfl hcalm rfl]
  unfold View.collect
  simp only [Trail.not_mem_empty, false_or]

/-- How it ends depends on policies only. -/
theorem Filed.contributors_congr (h : site.Filed) (hcalm : site.backend.faults = []) (h' : after.Filed)
    (hcalm' : after.backend.faults = []) (hpolicy : after.view.policy? = site.view.policy?)
    (id : UInt64) : ((contributors id).perform after).1 = ((contributors id).perform site).1 := by
  have hlinks := View.passingLinks_congr hpolicy
  obtain ⟨line, last, hcourse⟩ := site.view.passingLinks.exists_course id
  rw [h.contributors_of_course hcalm hcourse, h'.contributors_of_course hcalm' (hlinks ▸ hcourse)]
  unfold View.collect
  rw [hpolicy]

end Site

end AccessRights
