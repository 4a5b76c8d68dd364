/-
AccessRights/Proofs/View.lean

What resolved rights depend on, and the recursive rules by which they do.

A `View` answers the five questions that a resolution asks: for a policy, for
the rights of everyone on it, for the cell of an actor, for a group, and for
the groups of an actor.  Each answer may be missing.  The rules are stated as
relations over a view, with no state and no trail, so the same rules speak of
a node's memory, of a node over its store, and of plain tables.

`View.Effective` is the recursion along parent links: an inherited policy has
the rights of its parent, an extended one adds its own, any other one has its
own alone.  A derivation is finite, so what it walks through ends.

Main results: `Effective.unique` (rights are determined by the view),
`Effective.mono` (a view that answers more derives at least as much),
`effective_iff_walk` (the recursion is a walk followed by a union) and
`Effective.ends` (rights are derived only where all walks end).
-/
import AccessRights.Group
import AccessRights.Policy
import AccessRights.Rights

namespace AccessRights

/-! ### Views -/

/-- The answers on which resolved rights depend. -/
@[ext]
structure View where
  policy? : UInt64 → Option Policy
  /-- The rights of everyone on a policy, if its roster is known. -/
  everyone? : UInt64 → Option Rights
  /-- The cell of an actor on a policy: `some none` when it is known to have none. -/
  cell? : UInt64 → Actor → Option (Option Rights)
  group? : UInt64 → Option Group
  /-- The numbers of the groups and roles that an actor is a member of. -/
  groupsOf : Actor → List UInt64

namespace View

/-- Whatever the first view answers, the second one answers alike. -/
structure Le (a b : View) : Prop where
  policy {id policy} : a.policy? id = some policy → b.policy? id = some policy
  everyone {id rights} : a.everyone? id = some rights → b.everyone? id = some rights
  cell {id actor cell} : a.cell? id actor = some cell → b.cell? id actor = some cell
  group {id group} : a.group? id = some group → b.group? id = some group
  groupsOf (actor) : a.groupsOf actor = b.groupsOf actor

theorem Le.refl (view : View) : view.Le view :=
  ⟨id, id, id, id, fun _ => rfl⟩

theorem Le.trans {a b c : View} (hab : a.Le b) (hbc : b.Le c) : a.Le c where
  policy h := hbc.policy (hab.policy h)
  everyone h := hbc.everyone (hab.everyone h)
  cell h := hbc.cell (hab.cell h)
  group h := hbc.group (hab.group h)
  groupsOf actor := (hab.groupsOf actor).trans (hbc.groupsOf actor)

variable {view other : View}

/-! ### Groups -/

/-- The group and its ancestors up to the root, nearest first. -/
inductive Lineage (view : View) : UInt64 → List Group → Prop
  | root : Lineage view 0 []
  | child {groupId group ancestors} (nonzero : groupId ≠ 0)
      (found : view.group? groupId = some group)
      (above : Lineage view group.parentId ancestors) :
      Lineage view groupId (group :: ancestors)

/-- The first cell that one of the actors has, a cell without rights included. -/
inductive FirstCell (cell? : Actor → Option (Option Rights)) :
    List Actor → Option Rights → Prop
  | none : FirstCell cell? [] none
  | here {actor rights actors} (cell : cell? actor = some (some rights)) :
      FirstCell cell? (actor :: actors) (some rights)
  | later {actor found actors} (noCell : cell? actor = some .none)
      (rest : FirstCell cell? actors found) :
      FirstCell cell? (actor :: actors) found

/-- The actor whose cell is that of a group: a role holds rights as a role of its number, any other
group as a group of its number. -/
def holder (group : Group) : Actor :=
  match group.kind? with
  | some .role => ⟨.role, group.id⟩
  | some .group | none => ⟨.group, group.id⟩

/-- This is the actor that a resolution looks up. -/
theorem holder_eq_actor : holder = Group.actor := by
  funext group
  unfold holder Group.actor Group.isRole
  cases group.kind? with
  | none => rfl
  | some kind => cases kind <;> rfl

/-- The rights of a group on a policy: those of the nearest cell on its lineage, none if
there is no cell on it. -/
inductive OfGroup (view : View) (policyId groupId : UInt64) : Rights → Prop
  | intro {groups found} (lineage : view.Lineage groupId groups)
      (nearest : FirstCell (view.cell? policyId) (groups.map holder) found) :
      OfGroup view policyId groupId (found.getD ∅)

/-- The union of the rights of several groups on a policy. -/
inductive OfGroups (view : View) (policyId : UInt64) : List UInt64 → Rights → Prop
  | nil : OfGroups view policyId [] ∅
  | cons {groupId groupIds rights others} (first : view.OfGroup policyId groupId rights)
      (rest : OfGroups view policyId groupIds others) :
      OfGroups view policyId (groupId :: groupIds) (rights ∪ others)

/-! ### Policies -/

/-- The rights that the owner of a policy has for being the owner: all of them.  Zero is the number
of no user, so a policy of the owner zero has none. -/
def ofOwner (policy : Policy) (userId : UInt64) : Rights :=
  if policy.ownerId = userId ∧ userId ≠ 0 then .full else ∅

/-- This is what a resolution adds for the owner. -/
theorem ofOwner_eq (policy : Policy) (userId : UInt64) :
    ofOwner policy userId = if policy.isOwner userId then .full else ∅ := by
  have howner : policy.isOwner userId = true ↔ policy.ownerId = userId ∧ userId ≠ 0 := by
    rw [Policy.isOwner, Bool.and_eq_true, bne_iff_ne, beq_iff_eq, and_comm]
    exact and_congr_right fun h => by rw [h]
  unfold ofOwner
  simp only [howner]

/-- What a policy by itself gives an actor. -/
inductive Own (view : View) (policy : Policy) (actor : Actor) : Rights → Prop
  | everyone {rights} (kind : actor.kind = .everyone)
      (everyone : view.everyone? policy.id = some rights) : Own view policy actor rights
  | user {rights ofGroups ofCell} (kind : actor.kind = .user)
      (everyone : view.everyone? policy.id = some rights)
      (groups : view.OfGroups policy.id (view.groupsOf actor) ofGroups)
      (cell : view.cell? policy.id actor = some ofCell) :
      Own view policy actor
        (rights ∪ ofGroups ∪ ofCell.getD ∅ ∪ ofOwner policy actor.id)
  | group {rights ofGroup} (kind : actor.kind = .role ∨ actor.kind = .group)
      (everyone : view.everyone? policy.id = some rights)
      (group : view.OfGroup policy.id actor.id ofGroup) :
      Own view policy actor (rights ∪ ofGroup)

/-- The rights of an actor on a policy. -/
inductive Effective (view : View) (actor : Actor) : UInt64 → Rights → Prop
  | inherited {id policy rights} (found : view.policy? id = some policy)
      (isInherited : policy.isInherited = true)
      (parent : Effective view actor policy.parentId rights) :
      Effective view actor id rights
  | extended {id policy own rights} (found : view.policy? id = some policy)
      (isInherited : policy.isInherited = false) (isExtended : policy.isExtended = true)
      (gives : view.Own policy actor own)
      (parent : Effective view actor policy.parentId rights) :
      Effective view actor id (own ∪ rights)
  | alone {id policy own} (found : view.policy? id = some policy)
      (isInherited : policy.isInherited = false) (isExtended : policy.isExtended = false)
      (gives : view.Own policy actor own) :
      Effective view actor id own

/-- The walk along parent links from a policy: the numbers it passes and the policies that
contribute, nearest first. -/
inductive Walk (view : View) : UInt64 → List UInt64 → List Policy → Prop
  | inherited {id policy path policies} (found : view.policy? id = some policy)
      (isInherited : policy.isInherited = true)
      (parent : Walk view policy.parentId path policies) :
      Walk view id (id :: path) policies
  | extended {id policy path policies} (found : view.policy? id = some policy)
      (isInherited : policy.isInherited = false) (isExtended : policy.isExtended = true)
      (parent : Walk view policy.parentId path policies) :
      Walk view id (id :: path) (policy :: policies)
  | alone {id policy} (found : view.policy? id = some policy)
      (isInherited : policy.isInherited = false) (isExtended : policy.isExtended = false) :
      Walk view id [id] [policy]

/-- The union of what several policies give an actor. -/
inductive Contributed (view : View) (actor : Actor) : List Policy → Rights → Prop
  | nil : Contributed view actor [] ∅
  | cons {policy policies own others} (first : view.Own policy actor own)
      (rest : Contributed view actor policies others) :
      Contributed view actor (policy :: policies) (own ∪ others)

/-! ### More answers derive more -/

/-- A view that says more leads along the same lineages. -/
theorem Lineage.mono (hle : view.Le other) {groupId : UInt64} {groups : List Group}
    (h : view.Lineage groupId groups) : other.Lineage groupId groups := by
  induction h with
  | root => exact .root
  | child nonzero found _ ih => exact .child nonzero (hle.group found) ih

/-- Which cell is the first depends on the cells of the listed actors. -/
theorem FirstCell.imp {cell? other? : Actor → Option (Option Rights)} {actors : List Actor}
    {found : Option Rights} (h : FirstCell cell? actors found)
    (himp : ∀ actor ∈ actors, ∀ cell, cell? actor = some cell → other? actor = some cell) :
    FirstCell other? actors found := by
  induction h with
  | none => exact .none
  | here cell => exact .here (himp _ List.mem_cons_self _ cell)
  | later noCell _ ih =>
    exact .later (himp _ List.mem_cons_self _ noCell)
      (ih fun actor hactor => himp actor (List.mem_cons_of_mem _ hactor))

theorem FirstCell.mono {cell? other? : Actor → Option (Option Rights)}
    (hle : ∀ {actor cell}, cell? actor = some cell → other? actor = some cell)
    {actors : List Actor} {found : Option Rights} (h : FirstCell cell? actors found) :
    FirstCell other? actors found :=
  h.imp fun _ _ _ => hle

/-- What a group has it has in every view that says more. -/
theorem OfGroup.mono (hle : view.Le other) {policyId groupId : UInt64} {rights : Rights}
    (h : view.OfGroup policyId groupId rights) : other.OfGroup policyId groupId rights := by
  obtain ⟨lineage, nearest⟩ := h
  exact .intro (lineage.mono hle) (nearest.mono hle.cell)

theorem OfGroups.imp {policyId : UInt64} {groupIds : List UInt64} {rights : Rights}
    (h : view.OfGroups policyId groupIds rights)
    (himp : ∀ groupId ∈ groupIds, ∀ rights, view.OfGroup policyId groupId rights →
      other.OfGroup policyId groupId rights) : other.OfGroups policyId groupIds rights := by
  induction h with
  | nil => exact .nil
  | cons first _ ih =>
    exact .cons (himp _ List.mem_cons_self _ first)
      (ih fun groupId hmem => himp groupId (List.mem_cons_of_mem _ hmem))

theorem OfGroups.mono (hle : view.Le other) {policyId : UInt64} {groupIds : List UInt64}
    {rights : Rights} (h : view.OfGroups policyId groupIds rights) :
    other.OfGroups policyId groupIds rights :=
  h.imp fun _ _ _ first => first.mono hle

/-- What a policy gives by itself it gives in every view that says more. -/
theorem Own.mono (hle : view.Le other) {policy : Policy} {actor : Actor} {rights : Rights}
    (h : view.Own policy actor rights) : other.Own policy actor rights := by
  cases h with
  | everyone kind everyone => exact .everyone kind (hle.everyone everyone)
  | user kind everyone groups cell =>
    rw [hle.groupsOf] at groups
    exact .user kind (hle.everyone everyone) (groups.mono hle) (hle.cell cell)
  | group kind everyone group => exact .group kind (hle.everyone everyone) (group.mono hle)

/-- A walk goes the same way in every view that says more. -/
theorem Walk.mono (hle : view.Le other) {id : UInt64} {path : List UInt64}
    {policies : List Policy} (h : view.Walk id path policies) :
    other.Walk id path policies := by
  induction h with
  | inherited found hinherited _ ih => exact .inherited (hle.policy found) hinherited ih
  | extended found hinherited hextended _ ih =>
    exact .extended (hle.policy found) hinherited hextended ih
  | alone found hinherited hextended => exact .alone (hle.policy found) hinherited hextended

/-- A view that answers more derives at least as much. -/
theorem Effective.mono (hle : view.Le other) {actor : Actor} {id : UInt64} {rights : Rights}
    (h : view.Effective actor id rights) : other.Effective actor id rights := by
  induction h with
  | inherited found hinherited _ ih => exact .inherited (hle.policy found) hinherited ih
  | extended found hinherited hextended own _ ih =>
    exact .extended (hle.policy found) hinherited hextended (own.mono hle) ih
  | alone found hinherited hextended own =>
    exact .alone (hle.policy found) hinherited hextended (own.mono hle)

/-! ### A view derives one answer -/

/-- There is only one way up from a group. -/
theorem Lineage.unique {groupId : UInt64} {groups groups' : List Group}
    (h : view.Lineage groupId groups) (h' : view.Lineage groupId groups') :
    groups = groups' := by
  induction h generalizing groups' with
  | root =>
    cases h' with
    | root => rfl
    | child nonzero => exact absurd rfl nonzero
  | child nonzero found _ ih =>
    cases h' with
    | root => exact absurd rfl nonzero
    | child _ found' above' =>
      obtain rfl : _ = _ := Option.some.inj (found.symm.trans found')
      rw [ih above']

/-- Only one cell is the nearest. -/
theorem FirstCell.unique {cell? : Actor → Option (Option Rights)} {actors : List Actor}
    {found found' : Option Rights} (h : FirstCell cell? actors found)
    (h' : FirstCell cell? actors found') : found = found' := by
  induction h with
  | none => cases h'; rfl
  | here cell =>
    cases h' with
    | here cell' => exact Option.some.inj (cell.symm.trans cell')
    | later noCell' => cases cell.symm.trans noCell'
  | later noCell _ ih =>
    cases h' with
    | here cell' => cases noCell.symm.trans cell'
    | later _ rest' => exact ih rest'

/-- A group has one set of rights on a policy. -/
theorem OfGroup.unique {policyId groupId : UInt64} {rights rights' : Rights}
    (h : view.OfGroup policyId groupId rights) (h' : view.OfGroup policyId groupId rights') :
    rights = rights' := by
  obtain ⟨lineage, nearest⟩ := h
  obtain ⟨lineage', nearest'⟩ := h'
  rw [lineage.unique lineage'] at nearest
  rw [nearest.unique nearest']

theorem OfGroups.unique {policyId : UInt64} {groupIds : List UInt64} {rights rights' : Rights}
    (h : view.OfGroups policyId groupIds rights) (h' : view.OfGroups policyId groupIds rights') :
    rights = rights' := by
  induction h generalizing rights' with
  | nil => cases h'; rfl
  | cons first _ ih =>
    cases h' with
    | cons first' rest' => rw [first.unique first', ih rest']

/-- A policy gives an actor one set of rights by itself. -/
theorem Own.unique {policy : Policy} {actor : Actor} {rights rights' : Rights}
    (h : view.Own policy actor rights) (h' : view.Own policy actor rights') :
    rights = rights' := by
  cases h with
  | everyone kind everyone =>
    cases h' with
    | everyone _ everyone' => exact Option.some.inj (everyone.symm.trans everyone')
    | user kind' | group kind' => simp [kind] at kind'
  | user kind everyone groups cell =>
    cases h' with
    | everyone kind' | group kind' => simp [kind] at kind'
    | user _ everyone' groups' cell' =>
      obtain rfl : _ = _ := Option.some.inj (everyone.symm.trans everyone')
      obtain rfl : _ = _ := Option.some.inj (cell.symm.trans cell')
      rw [groups.unique groups']
  | group kind everyone group =>
    cases h' with
    | everyone kind' | user kind' => simp [kind'] at kind
    | group _ everyone' group' =>
      obtain rfl : _ = _ := Option.some.inj (everyone.symm.trans everyone')
      rw [group.unique group']

theorem Contributed.unique {actor : Actor} {policies : List Policy} {rights rights' : Rights}
    (h : view.Contributed actor policies rights) (h' : view.Contributed actor policies rights') :
    rights = rights' := by
  induction h generalizing rights' with
  | nil => cases h'; rfl
  | cons first _ ih =>
    cases h' with
    | cons first' rest' => rw [first.unique first', ih rest']

/-- What a walk does at a policy is decided by the flags of the policy. -/
theorem Walk.of_found {id : UInt64} {path : List UInt64} {policies : List Policy}
    {policy : Policy} (h : view.Walk id path policies) (hfound : view.policy? id = some policy) :
    (policy.isInherited = true ∧ ∃ rest, path = id :: rest ∧
      view.Walk policy.parentId rest policies) ∨
    (policy.isInherited = false ∧ policy.isExtended = true ∧ ∃ rest others,
      path = id :: rest ∧ policies = policy :: others ∧
      view.Walk policy.parentId rest others) ∨
    (policy.isInherited = false ∧ policy.isExtended = false ∧ path = [id] ∧
      policies = [policy]) := by
  cases h with
  | inherited found hinherited parent =>
    obtain rfl : _ = policy := Option.some.inj (found.symm.trans hfound)
    exact .inl ⟨hinherited, _, rfl, parent⟩
  | extended found hinherited hextended parent =>
    obtain rfl : _ = policy := Option.some.inj (found.symm.trans hfound)
    exact .inr (.inl ⟨hinherited, hextended, _, _, rfl, rfl, parent⟩)
  | alone found hinherited hextended =>
    obtain rfl : _ = policy := Option.some.inj (found.symm.trans hfound)
    exact .inr (.inr ⟨hinherited, hextended, rfl, rfl⟩)

/-- There is only one walk from a policy, and it meets the same policies. -/
theorem Walk.unique {id : UInt64} {path path' : List UInt64} {policies policies' : List Policy}
    (h : view.Walk id path policies) (h' : view.Walk id path' policies') :
    path = path' ∧ policies = policies' := by
  induction h generalizing path' policies' with
  | inherited found hinherited _ ih =>
    obtain ⟨-, _, rfl, parent'⟩ | ⟨hinherited', -⟩ | ⟨hinherited', -⟩ := h'.of_found found
    · obtain ⟨rfl, rfl⟩ := ih parent'
      exact ⟨rfl, rfl⟩
    · simp [hinherited] at hinherited'
    · simp [hinherited] at hinherited'
  | extended found hinherited hextended _ ih =>
    obtain ⟨hinherited', -⟩ | ⟨-, -, _, _, rfl, rfl, parent'⟩ | ⟨-, hextended', -⟩ :=
      h'.of_found found
    · simp [hinherited] at hinherited'
    · obtain ⟨rfl, rfl⟩ := ih parent'
      exact ⟨rfl, rfl⟩
    · simp [hextended] at hextended'
  | alone found hinherited hextended =>
    obtain ⟨hinherited', -⟩ | ⟨-, hextended', -⟩ | ⟨-, -, rfl, rfl⟩ := h'.of_found found
    · simp [hinherited] at hinherited'
    · simp [hextended] at hextended'
    · exact ⟨rfl, rfl⟩

/-! ### The recursion as a walk -/

/-- The rights on a policy are the union of what the policies on its walk give. -/
theorem effective_iff_walk {actor : Actor} {id : UInt64} {rights : Rights} :
    view.Effective actor id rights ↔
      ∃ path policies, view.Walk id path policies ∧ view.Contributed actor policies rights := by
  constructor
  · -- the walk is the way the recursion takes, and the contributions are those it adds up
    intro h
    induction h with
    | inherited found hinherited _ ih =>
      obtain ⟨path, policies, hwalk, hrights⟩ := ih
      exact ⟨_, _, .inherited found hinherited hwalk, hrights⟩
    | extended found hinherited hextended gives _ ih =>
      obtain ⟨path, policies, hwalk, hrights⟩ := ih
      exact ⟨_, _, .extended found hinherited hextended hwalk, .cons gives hrights⟩
    | @alone _ _ own found hinherited hextended gives =>
      refine ⟨_, _, .alone found hinherited hextended, ?_⟩
      rw [← Rights.union_empty own]
      exact .cons gives .nil
  · rintro ⟨path, policies, hwalk, hrights⟩
    induction hwalk generalizing rights with
    | inherited found hinherited _ ih => exact .inherited found hinherited (ih hrights)
    | extended found hinherited hextended _ ih =>
      cases hrights with
      | cons gives others => exact .extended found hinherited hextended gives (ih others)
    | alone found hinherited hextended =>
      cases hrights with
      | cons gives others =>
        cases others
        rw [Rights.union_empty]
        exact .alone found hinherited hextended gives

/-- Rights are determined by the view. -/
theorem Effective.unique {actor : Actor} {id : UInt64} {rights rights' : Rights}
    (h : view.Effective actor id rights) (h' : view.Effective actor id rights') :
    rights = rights' := by
  obtain ⟨path, policies, hwalk, hrights⟩ := effective_iff_walk.1 h
  obtain ⟨path', policies', hwalk', hrights'⟩ := effective_iff_walk.1 h'
  obtain ⟨-, rfl⟩ := hwalk.unique hwalk'
  exact hrights.unique hrights'

/-! ### Walks that end -/

/-- The groups whose cells count for an actor. -/
def groupsConcerning (view : View) (actor : Actor) : List UInt64 :=
  match actor.kind with
  | .everyone => []
  | .user => view.groupsOf actor
  | .role | .group => [actor.id]

/-- Every walk that the rights of an actor on a policy take comes to an end: the one along
the parents of the policy, past policies whose rosters are known, and those along the
parents of the groups that count for the actor. -/
structure Ends (view : View) (actor : Actor) (id : UInt64) : Prop where
  policies : ∃ path policies, view.Walk id path policies ∧
    ∀ policy ∈ policies, ∃ rights, view.everyone? policy.id = some rights
  groups (groupId : UInt64) : groupId ∈ view.groupsConcerning actor →
    ∃ groups, view.Lineage groupId groups

theorem OfGroups.lineage {policyId groupId : UInt64} {groupIds : List UInt64} {rights : Rights}
    (h : view.OfGroups policyId groupIds rights) (hmem : groupId ∈ groupIds) :
    ∃ groups, view.Lineage groupId groups := by
  induction h with
  | nil => cases hmem
  | cons first _ ih =>
    obtain _ | ⟨_, hmem⟩ := hmem
    · obtain ⟨lineage, -⟩ := first
      exact ⟨_, lineage⟩
    · exact ih hmem

/-- Whoever gets rights from a policy by itself has groups that can all be followed to a
root. -/
theorem Own.ends {policy : Policy} {actor : Actor} {rights : Rights}
    (h : view.Own policy actor rights) :
    (∃ rights, view.everyone? policy.id = some rights) ∧
      ∀ groupId ∈ view.groupsConcerning actor, ∃ groups, view.Lineage groupId groups := by
  unfold groupsConcerning
  cases h with
  | everyone kind everyone =>
    rw [kind]
    exact ⟨⟨_, everyone⟩, by simp⟩
  | user kind everyone groups cell =>
    rw [kind]
    exact ⟨⟨_, everyone⟩, fun groupId hgroup => groups.lineage hgroup⟩
  | group kind everyone group =>
    refine ⟨⟨_, everyone⟩, fun groupId hgroup => ?_⟩
    obtain ⟨lineage, -⟩ := group
    rcases kind with kind | kind <;> rw [kind] at hgroup <;>
      obtain rfl := List.mem_singleton.1 hgroup <;> exact ⟨_, lineage⟩

theorem Contributed.own {actor : Actor} {policies : List Policy} {rights : Rights}
    (h : view.Contributed actor policies rights) {policy : Policy} (hmem : policy ∈ policies) :
    ∃ own, view.Own policy actor own := by
  induction h with
  | nil => cases hmem
  | cons first _ ih =>
    obtain _ | ⟨_, hmem⟩ := hmem
    · exact ⟨_, first⟩
    · exact ih hmem

/-- Every walk meets a policy. -/
theorem Walk.exists_mem {id : UInt64} {path : List UInt64} {policies : List Policy}
    (h : view.Walk id path policies) : ∃ policy, policy ∈ policies := by
  induction h with
  | inherited _ _ _ ih => exact ih
  | extended | alone => exact ⟨_, List.mem_cons_self⟩

/-- Rights are derived only where all walks end. -/
theorem Effective.ends {actor : Actor} {id : UInt64} {rights : Rights}
    (h : view.Effective actor id rights) : view.Ends actor id := by
  obtain ⟨path, policies, hwalk, hrights⟩ := effective_iff_walk.1 h
  refine ⟨⟨path, policies, hwalk, ?_⟩, ?_⟩
  · intro policy hmem
    obtain ⟨own, hown⟩ := hrights.own hmem
    exact hown.ends.1
  · intro groupId hgroup
    obtain ⟨policy, hmem⟩ := hwalk.exists_mem
    obtain ⟨own, hown⟩ := hrights.own hmem
    exact hown.ends.2 groupId hgroup

end View

end AccessRights
