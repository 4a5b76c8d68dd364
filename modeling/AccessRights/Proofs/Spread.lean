/-
AccessRights/Proofs/Spread.lean

How far a change of one roster spreads.

A cell reaches other actors on many ways: a group's cell counts for all its
descendants that have none of their own, for the members of all these groups,
and on every policy that extends or inherits the changed one at any depth.
`View.Widens` bounds all of it at once.  If nobody gains more than `extra`
from any single policy, nobody gains more anywhere, because rights of several
sources are only ever united (`Widens.effective`).

For a single policy, setting a cell gives at most the rights that it holds
(`widens_set`).  Unsetting one gives nothing, unless it was the cell of a group or
role.  Then the nearest cell above it counts instead, and what that one adds
for the group itself is the most that anybody gains (`widens_unset`).

Main results: `Widens.effective`, `widens_set` and `widens_unset`.
-/
import AccessRights.Proofs.Registry
import AccessRights.Proofs.Rights
import AccessRights.Proofs.View

namespace AccessRights

namespace Registry

variable {registry : Registry}

/-! ### What an actor has after a change -/

theorem rightsOf?_set_cases (registry : Registry) (grantee : Actor) (rights : Rights)
    (actor : Actor) :
    (registry.apply ⟨.set, grantee, rights⟩).rightsOf? actor = registry.rightsOf? actor ∨
      (registry.apply ⟨.set, grantee, rights⟩).rightsOf? actor = some rights := by
  obtain hsame | rfl | ⟨hgrantee, hactor⟩ :=
    registry.rightsOf?_apply_cases ⟨.set, grantee, rights⟩ actor
  · exact .inl hsame
  · exact .inr rightsOf?_apply_set
  · exact .inr (by simp_all [rightsOf?, apply])

theorem Tidy.rightsOf?_unset_cases (h : registry.Tidy) (grantee : Actor) (rights : Rights)
    (actor : Actor) :
    (registry.apply ⟨.unset, grantee, rights⟩).rightsOf? actor = registry.rightsOf? actor ∨
      ((registry.apply ⟨.unset, grantee, rights⟩).rightsOf? actor).getD ∅ = ∅ := by
  obtain hsame | rfl | ⟨hgrantee, hactor⟩ :=
    registry.rightsOf?_apply_cases ⟨.unset, grantee, rights⟩ actor
  · exact .inl hsame
  · right
    cases hgrantee : grantee.isEveryone with
    | true => simp [rightsOf?, Registry.apply, hgrantee]
    | false => rw [h.rightsOf?_unset hgrantee, Option.getD_none]
  · exact .inr (by simp_all [rightsOf?, Registry.apply])

end Registry

namespace View

variable {view other : View} {extra : Rights} {actor : Actor} {policyId groupId : UInt64}

/-! ### Views that give more -/

/-- Whatever the first view answers the other one answers too, and from no single policy it
gives anybody more than `extra` besides. -/
structure Widens (view other : View) (extra : Rights) : Prop where
  policy {id policy} : view.policy? id = some policy → other.policy? id = some policy
  groupsOf (actor : Actor) : view.groupsOf actor = other.groupsOf actor
  everyone {id rights} : view.everyone? id = some rights →
    ∃ rights', other.everyone? id = some rights' ∧ rights' ⊆ rights ∪ extra
  cell {id actor found} : view.cell? id actor = some found →
    ∃ found', other.cell? id actor = some found' ∧ found'.getD ∅ ⊆ found.getD ∅ ∪ extra
  group {id groupId rights} : view.OfGroup id groupId rights →
    ∃ rights', other.OfGroup id groupId rights' ∧ rights' ⊆ rights ∪ extra

theorem Widens.groups (h : view.Widens other extra) {groupIds : List UInt64} {rights : Rights}
    (hrights : view.OfGroups policyId groupIds rights) :
    ∃ rights', other.OfGroups policyId groupIds rights' ∧ rights' ⊆ rights ∪ extra := by
  induction hrights with
  | nil => exact ⟨∅, .nil, Rights.empty_subset _⟩
  | cons first _ ih =>
    obtain ⟨one, hone, hle⟩ := h.group first
    obtain ⟨others, hothers, hle'⟩ := ih
    exact ⟨one ∪ others, .cons hone hothers, Rights.union_subset_union_extra hle hle'⟩

theorem Widens.own (h : view.Widens other extra) {policy : Policy} {rights : Rights}
    (hrights : view.Own policy actor rights) :
    ∃ rights', other.Own policy actor rights' ∧ rights' ⊆ rights ∪ extra := by
  cases hrights with
  | everyone kind everyone =>
    obtain ⟨rights', hrights', hle⟩ := h.everyone everyone
    exact ⟨rights', .everyone kind hrights', hle⟩
  | user kind everyone groups cell =>
    rw [h.groupsOf] at groups
    obtain ⟨ofEveryone, heveryone, hle⟩ := h.everyone everyone
    obtain ⟨ofGroups, hgroups, hle'⟩ := h.groups groups
    obtain ⟨ofCell, hcell, hle''⟩ := h.cell cell
    refine ⟨_, .user kind heveryone hgroups hcell, ?_⟩
    -- the owner has its rights before and after
    exact Rights.union_subset_union_extra (Rights.union_subset_union_extra
      (Rights.union_subset_union_extra hle hle') hle'') (Rights.subset_union_left _ _)
  | group kind everyone group =>
    obtain ⟨ofEveryone, heveryone, hle⟩ := h.everyone everyone
    obtain ⟨ofGroup, hgroup, hle'⟩ := h.group group
    exact ⟨_, .group kind heveryone hgroup, Rights.union_subset_union_extra hle hle'⟩

/-- What is gained along parent links is no more than what is gained on a single policy. -/
theorem Widens.effective (h : view.Widens other extra) {id : UInt64} {rights : Rights}
    (hrights : view.Effective actor id rights) :
    ∃ rights', other.Effective actor id rights' ∧ rights' ⊆ rights ∪ extra := by
  induction hrights with
  | inherited found hinherited _ ih =>
    obtain ⟨rights', hrights', hle⟩ := ih
    exact ⟨rights', .inherited (h.policy found) hinherited hrights', hle⟩
  | extended found hinherited hextended gives _ ih =>
    obtain ⟨own, hown, hle⟩ := h.own gives
    obtain ⟨rights', hrights', hle'⟩ := ih
    exact ⟨_, .extended (h.policy found) hinherited hextended hown hrights',
      Rights.union_subset_union_extra hle hle'⟩
  | alone found hinherited hextended gives =>
    obtain ⟨own, hown, hle⟩ := h.own gives
    exact ⟨own, .alone (h.policy found) hinherited hextended hown, hle⟩

/-! ### Another roster for one policy -/

/-- The view shows a registry for a policy. -/
structure Shows (view : View) (policyId : UInt64) (registry : Registry) : Prop where
  everyone : view.everyone? policyId = some registry.everyone
  cell (actor : Actor) : view.cell? policyId actor = some (registry.rightsOf? actor)

/-- The view with another registry for a policy. -/
def withRegistry (view : View) (policyId : UInt64) (registry : Registry) : View :=
  { view with
    everyone? := fun id => if policyId = id then some registry.everyone else view.everyone? id
    cell? := fun id actor =>
      if policyId = id then some (registry.rightsOf? actor) else view.cell? id actor }

variable {registry later : Registry}

theorem shows_withRegistry (view : View) (policyId : UInt64) (registry : Registry) :
    (view.withRegistry policyId registry).Shows policyId registry :=
  ⟨if_pos rfl, fun _ => if_pos rfl⟩

theorem cell?_withRegistry_of_ne {id : UInt64} (h : policyId ≠ id) (actor : Actor) :
    (view.withRegistry policyId registry).cell? id actor = view.cell? id actor :=
  if_neg h

theorem everyone?_withRegistry_of_ne {id : UInt64} (h : policyId ≠ id) :
    (view.withRegistry policyId registry).everyone? id = view.everyone? id :=
  if_neg h

/-- A lineage depends on groups only. -/
theorem Lineage.congr (hgroup : other.group? = view.group?) {groups : List Group}
    (h : view.Lineage groupId groups) : other.Lineage groupId groups := by
  induction h with
  | root => exact .root
  | child nonzero found _ ih => exact .child nonzero (hgroup ▸ found) ih

/-- On other policies a group has what it had. -/
theorem OfGroup.withRegistry_of_ne {id : UInt64} {rights : Rights} (hne : policyId ≠ id)
    (h : view.OfGroup id groupId rights) :
    (view.withRegistry policyId registry).OfGroup id groupId rights := by
  have hgroups : (view.withRegistry policyId registry).group? = view.group? := rfl
  obtain ⟨lineage, nearest⟩ := h
  exact .intro (lineage.congr hgroups)
    (nearest.mono fun hcell => (cell?_withRegistry_of_ne hne _).trans hcell)

/-- Where every cell is known, there is a first one, or none at all. -/
theorem Shows.exists_firstCell (h : view.Shows policyId registry) (actors : List Actor) :
    ∃ found, FirstCell (view.cell? policyId) actors found := by
  induction actors with
  | nil => exact ⟨none, .none⟩
  | cons actor actors ih =>
    obtain ⟨found, hfound⟩ := ih
    have hcell := h.cell actor
    cases hrights : registry.rightsOf? actor with
    | none =>
      rw [hrights] at hcell
      exact ⟨found, .later hcell hfound⟩
    | some rights =>
      rw [hrights] at hcell
      exact ⟨some rights, .here hcell⟩

/-- A view that shows a registry widens by no more than what the registry in its place gives to
single actors and to groups. -/
theorem Shows.widens (h : view.Shows policyId registry)
    (hcell : ∀ actor, (later.rightsOf? actor).getD ∅ ⊆ (registry.rightsOf? actor).getD ∅ ∪ extra)
    (hgroup : ∀ {groupId rights}, view.OfGroup policyId groupId rights →
      ∃ rights', (view.withRegistry policyId later).OfGroup policyId groupId rights' ∧
        rights' ⊆ rights ∪ extra) :
    view.Widens (view.withRegistry policyId later) extra := by
  have hlater := view.shows_withRegistry policyId later
  refine ⟨id, fun _ => rfl, fun {id rights} hrights => ?_, fun {id actor found} hfound => ?_,
    fun {id groupId rights} hrights => ?_⟩ <;> by_cases hid : policyId = id
  · subst hid
    obtain rfl := Option.some.inj (h.everyone.symm.trans hrights)
    exact ⟨_, hlater.everyone, hcell .everyone⟩
  · exact ⟨rights, (everyone?_withRegistry_of_ne hid).trans hrights, Rights.subset_union_left _ _⟩
  · subst hid
    obtain rfl := Option.some.inj ((h.cell actor).symm.trans hfound)
    exact ⟨_, hlater.cell actor, hcell actor⟩
  · exact ⟨found, (cell?_withRegistry_of_ne hid actor).trans hfound, Rights.subset_union_left _ _⟩
  · subst hid
    exact hgroup hrights
  · exact ⟨rights, hrights.withRegistry_of_ne hid, Rights.subset_union_left _ _⟩

/-! ### Setting a cell -/

/-- Where some cells are replaced by cells with the same new rights, the nearest one is as
before or has these rights. -/
theorem FirstCell.set {cell? other? : Actor → Option (Option Rights)} {rights : Rights}
    (hother : ∀ {actor found}, cell? actor = some found →
      other? actor = some found ∨ other? actor = some (some rights))
    {actors : List Actor} {found : Option Rights} (h : FirstCell cell? actors found) :
    ∃ found', FirstCell other? actors found' ∧ (found' = found ∨ found' = some rights) := by
  induction h with
  | none => exact ⟨.none, .none, .inl rfl⟩
  | here cell =>
    obtain hsame | hset := hother cell
    · exact ⟨_, .here hsame, .inl rfl⟩
    · exact ⟨_, .here hset, .inr rfl⟩
  | later noCell _ ih =>
    obtain ⟨found', hfound', hcases⟩ := ih
    obtain hsame | hset := hother noCell
    · exact ⟨found', .later hsame hfound', hcases⟩
    · exact ⟨_, .here hset, .inr rfl⟩

/-- A group gets no more from a cell that is set than the cell holds. -/
theorem OfGroup.set {grantee : Actor} {rights held : Rights} (h : view.Shows policyId registry)
    (hother : other.Shows policyId (registry.apply ⟨.set, grantee, rights⟩))
    (hgroups : other.group? = view.group?) (hheld : view.OfGroup policyId groupId held) :
    ∃ has, other.OfGroup policyId groupId has ∧ has ⊆ held ∪ rights := by
  have hcells {actor : Actor} {found : Option Rights}
      (hcell : view.cell? policyId actor = some found) : other.cell? policyId actor = some found ∨
        other.cell? policyId actor = some (some rights) := by
    obtain rfl := Option.some.inj ((h.cell actor).symm.trans hcell)
    rw [hother.cell actor]
    exact (registry.rightsOf?_set_cases grantee rights actor).imp (congrArg some) (congrArg some)
  obtain ⟨lineage, nearest⟩ := hheld
  obtain ⟨found, hfound, rfl | rfl⟩ := nearest.set hcells
  · exact ⟨_, .intro (lineage.congr hgroups) hfound, Rights.subset_union_left _ _⟩
  · exact ⟨_, .intro (lineage.congr hgroups) hfound, Rights.subset_union_right _ _⟩

/-- A cell that is set gives nobody more than it holds. -/
theorem Shows.widens_set (h : view.Shows policyId registry) (grantee : Actor) (rights : Rights) :
    view.Widens (view.withRegistry policyId (registry.apply ⟨.set, grantee, rights⟩)) rights := by
  refine h.widens (fun actor => ?_) fun hheld => hheld.set h (view.shows_withRegistry _ _) rfl
  obtain hsame | hset := registry.rightsOf?_set_cases grantee rights actor
  · rw [hsame]
    exact Rights.subset_union_left _ _
  · rw [hset]
    exact Rights.subset_union_right _ _

/-! ### Unsetting a cell -/

/-- What a group or role gains on a policy from one view to another. -/
inductive Gains (view other : View) (policyId : UInt64) (actor : Actor) : Rights → Prop
  | intro {had has : Rights} (kind : actor.kind = .role ∨ actor.kind = .group)
      (before : view.OfGroup policyId actor.id had) (after : other.OfGroup policyId actor.id has) :
      Gains view other policyId actor (had.missing has)

theorem Gains.unique {gained gained' : Rights} (h : Gains view other policyId actor gained)
    (h' : Gains view other policyId actor gained') : gained = gained' := by
  obtain ⟨-, before, after⟩ := h
  obtain ⟨-, before', after'⟩ := h'
  rw [before.unique before', after.unique after']

theorem kind_holder (group : Group) : (holder group).kind = .role ∨ (holder group).kind = .group := by
  unfold holder
  split
  · exact .inl rfl
  · exact .inr rfl
  · exact .inr rfl

theorem id_holder (group : Group) : (holder group).id = group.id := by
  unfold holder
  split <;> rfl

theorem isEveryone_holder (group : Group) : (holder group).isEveryone = false := by
  unfold holder
  split <;> rfl

/-- A group with no lost cell on its lineage, up to the nearest one that is left, has what it
had.  Where the lost cell was the nearest, the next one above takes its place, for the group as
for the one whose cell it was. -/
theorem OfGroup.unset {grantee : Actor} {held : Rights} (h : view.Shows policyId registry)
    (hother : other.Shows policyId (registry.apply ⟨.unset, grantee, ∅⟩))
    (hgroups : other.group? = view.group?)
    (hown : ∀ {id group}, view.group? id = some group → group.id = id)
    (hheld : view.OfGroup policyId groupId held) :
    ∃ has, other.OfGroup policyId groupId has ∧
      (has = held ∨ ∃ gained, Gains view other policyId grantee gained ∧ has ⊆ held ∪ gained) := by
  obtain ⟨lineage, nearest⟩ := hheld
  rename_i groups found
  -- along the lineage, from the group upwards
  induction lineage generalizing found with
  | root =>
    cases nearest
    exact ⟨_, .intro .root .none, .inl rfl⟩
  | @child groupId group ancestors nonzero known above ih =>
    have hlineage := View.Lineage.child nonzero known above
    by_cases hgrantee : holder group = grantee
    · -- it is the group itself that has lost its cell
      obtain ⟨found', hnearest⟩ := hother.exists_firstCell ((group :: ancestors).map holder)
      have hbefore := OfGroup.intro hlineage nearest
      have hafter := OfGroup.intro (hlineage.congr hgroups) hnearest
      have hid : groupId = grantee.id := by rw [← hgrantee, id_holder, hown known]
      refine ⟨_, hafter, .inr ⟨_, .intro (hgrantee ▸ kind_holder group) ?_ ?_,
        Rights.subset_union_missing _ _⟩⟩
      · rwa [← hid]
      · rwa [← hid]
    · -- its cell is as before, and if it has none its parent decides
      have hcell : other.cell? policyId (holder group) = view.cell? policyId (holder group) := by
        rw [hother.cell, h.cell, Registry.rightsOf?_apply_of_ne fun heq => hgrantee heq.symm]
        simp [isEveryone_holder]
      cases nearest with
      | here cell =>
        exact ⟨_, .intro (hlineage.congr hgroups) (.here (hcell.trans cell)), .inl rfl⟩
      | later noCell rest =>
        obtain ⟨has, hhas, hcases⟩ := ih rest
        obtain ⟨lineage', nearest'⟩ := hhas
        exact ⟨_, .intro (.child nonzero (hgroups ▸ known) lineage')
          (.later (hcell.trans noCell) nearest'), hcases⟩

/-- A cell that is unset gives nobody anything, or no more than what the group or role whose
cell it was gains itself. -/
theorem Shows.widens_unset (h : view.Shows policyId registry) (htidy : registry.Tidy)
    (hown : ∀ {id group}, view.group? id = some group → group.id = id) (grantee : Actor) :
    ∃ extra, (extra = ∅ ∨ Gains view (view.withRegistry policyId
        (registry.apply ⟨.unset, grantee, ∅⟩)) policyId grantee extra) ∧
      view.Widens (view.withRegistry policyId (registry.apply ⟨.unset, grantee, ∅⟩)) extra := by
  have hother := view.shows_withRegistry policyId (registry.apply ⟨.unset, grantee, ∅⟩)
  generalize hview : view.withRegistry policyId (registry.apply ⟨.unset, grantee, ∅⟩) = other
    at hother
  have hgroups : other.group? = view.group? := by rw [← hview]; rfl
  have hcell {extra : Rights} (actor : Actor) :
      ((registry.apply ⟨.unset, grantee, ∅⟩).rightsOf? actor).getD ∅ ⊆
        (registry.rightsOf? actor).getD ∅ ∪ extra := by
    obtain hsame | hunset := htidy.rightsOf?_unset_cases grantee ∅ actor
    · rw [hsame]
      exact Rights.subset_union_left _ _
    · rw [hunset]
      exact Rights.empty_subset _
  -- either the grantee gains what its cell has hidden, or nobody gains anything
  by_cases hgains : ∃ gained, Gains view other policyId grantee gained
  · obtain ⟨extra, hextra⟩ := hgains
    refine ⟨extra, .inr hextra, hview ▸ h.widens hcell fun hheld => ?_⟩
    rw [hview]
    obtain ⟨has, hhas, rfl | ⟨gained, hgained, hle⟩⟩ := hheld.unset h hother hgroups hown
    · exact ⟨_, hhas, Rights.subset_union_left _ _⟩
    · exact ⟨has, hhas, hgained.unique hextra ▸ hle⟩
  · refine ⟨∅, .inl rfl, hview ▸ h.widens hcell fun hheld => ?_⟩
    rw [hview]
    obtain ⟨has, hhas, rfl | ⟨gained, hgained, -⟩⟩ := hheld.unset h hother hgroups hown
    · exact ⟨_, hhas, Rights.subset_union_left _ _⟩
    · exact absurd ⟨gained, hgained⟩ hgains

end View

end AccessRights
