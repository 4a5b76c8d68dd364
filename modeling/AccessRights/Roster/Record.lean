/-
AccessRights/Roster/Record.lean

The rights of actors on one policy as data: single cells, changes to them,
the record that is kept in a store, and the registry that a record unfolds
to.

A registry holds the rights of everyone and a list of cells, one per actor
and none for the public.  Cells keep the place where they were first set.

Main results: `Registry.rightsOf?_apply_set` (an actor has the rights it was
given last) and `Registry.rightsOf?_apply_of_ne` (a change concerns one actor
only).
-/
import AccessRights.Actor
import AccessRights.Rights

namespace AccessRights

/-! ### Cells, changes and records -/

/-- The rights of one actor. -/
structure Cell where
  actor : Actor
  rights : Rights
deriving DecidableEq, Inhabited

/-- What a change does to the rights of an actor. -/
inductive ChangeAction where
  /-- Give the actor these rights in place of what it had. -/
  | set
  /-- Take the actor's cell away; everyone is left without rights. -/
  | unset
deriving DecidableEq, Inhabited

/-- A change to the rights of one actor. -/
structure Change where
  action : ChangeAction
  actor : Actor
  rights : Rights
deriving DecidableEq, Inhabited

/-- The stored rights of a policy. -/
structure RosterRecord where
  policyId : UInt64
  everyone : Rights
  cells : List Cell
deriving DecidableEq, Inhabited

/-- The record of a policy on which nobody has rights. -/
def RosterRecord.empty (policyId : UInt64) : RosterRecord :=
  ⟨policyId, ∅, []⟩

/-- What a store is handed: the whole record and the changes that led to it. -/
structure RosterUpdate where
  record : RosterRecord
  changes : List Change
deriving DecidableEq, Inhabited

/-! ### Registries -/

/-- The rights of everyone and of single actors. -/
structure Registry where
  everyone : Rights
  cells : List Cell
deriving DecidableEq, Inhabited

/-- The cells after an actor is given rights: its cell is overwritten in place, or a new
cell is put at the end. -/
def setCell (actor : Actor) (rights : Rights) : List Cell → List Cell
  | [] => [⟨actor, rights⟩]
  | cell :: cells =>
    if cell.actor = actor then ⟨actor, rights⟩ :: cells
    else cell :: setCell actor rights cells

/-- The cells without the first one of an actor. -/
def dropCell (actor : Actor) (cells : List Cell) : List Cell :=
  cells.eraseP fun cell => cell.actor == actor

/-- The rights in the first cell of an actor. -/
def findRights? (actor : Actor) (cells : List Cell) : Option Rights :=
  (cells.find? fun cell => cell.actor == actor).map Cell.rights

namespace Registry

/-- The rights in the cell of an actor, `none` when it has no cell.  The public has no
cell and always has rights, be they empty. -/
def rightsOf? (registry : Registry) (actor : Actor) : Option Rights :=
  if actor.isEveryone then some registry.everyone
  else findRights? actor registry.cells

/-- The registry after a change. -/
def apply (registry : Registry) (change : Change) : Registry :=
  match change.actor.isEveryone, change.action with
  | true, .set => { registry with everyone := change.rights }
  | true, .unset => { registry with everyone := ∅ }
  | false, .set => { registry with cells := setCell change.actor change.rights registry.cells }
  | false, .unset => { registry with cells := dropCell change.actor registry.cells }

/-- The registry after changes in the order of the list. -/
def replay (registry : Registry) (changes : List Change) : Registry :=
  changes.foldl apply registry

/-- The registry of a record.  Of several cells of one actor the last one counts, at the
place of the first; a cell of the public counts as the rights of everyone. -/
def ofRecord (record : RosterRecord) : Registry :=
  replay ⟨record.everyone, []⟩
    (record.cells.map fun cell => ⟨.set, cell.actor, cell.rights⟩)

end Registry

/-! ### What a change does to the cells -/

@[simp] theorem findRights?_nil (actor : Actor) : findRights? actor [] = none := rfl

theorem findRights?_cons (actor : Actor) (cell : Cell) (cells : List Cell) :
    findRights? actor (cell :: cells) =
      if cell.actor = actor then some cell.rights else findRights? actor cells := by
  by_cases h : cell.actor = actor <;> simp [findRights?, h]

theorem findRights?_setCell (actor other : Actor) (rights : Rights) (cells : List Cell) :
    findRights? other (setCell actor rights cells) =
      if actor = other then some rights else findRights? other cells := by
  induction cells with
  | nil => simp [setCell, findRights?_cons]
  | cons cell cells ih =>
    unfold setCell
    split
    · rename_i h
      subst h
      simp only [findRights?_cons]
      split <;> rfl
    · rename_i h
      simp only [findRights?_cons, ih]
      split
      · rename_i hcell
        subst hcell
        rw [if_neg fun hactor => h hactor.symm]
      · rfl

theorem findRights?_dropCell_of_ne {actor other : Actor} (h : actor ≠ other)
    (cells : List Cell) : findRights? other (dropCell actor cells) = findRights? other cells := by
  induction cells with
  | nil => rfl
  | cons cell cells ih =>
    by_cases hcell : cell.actor = actor
    · have hother : cell.actor ≠ other := fun heq => h (hcell.symm.trans heq)
      simp [dropCell, hcell, findRights?_cons, h]
    · have hdrop : dropCell actor (cell :: cells) = cell :: dropCell actor cells := by
        simp [dropCell, hcell]
      rw [hdrop, findRights?_cons, findRights?_cons, ih]

theorem Registry.rightsOf?_apply_set {registry : Registry} {actor : Actor} {rights : Rights} :
    (registry.apply ⟨.set, actor, rights⟩).rightsOf? actor = some rights := by
  cases h : actor.isEveryone <;> simp [Registry.apply, Registry.rightsOf?, h, findRights?_setCell]

/-- A change to the rights of an actor leaves those of every other actor as they were. -/
theorem Registry.rightsOf?_apply_of_ne {registry : Registry} {change : Change} {other : Actor}
    (hactor : change.actor ≠ other)
    (hpublic : ¬ (change.actor.isEveryone = true ∧ other.isEveryone = true)) :
    (registry.apply change).rightsOf? other = registry.rightsOf? other := by
  obtain ⟨action, actor, rights⟩ := change
  simp only at hactor hpublic
  cases hchanged : actor.isEveryone <;> cases hother : other.isEveryone <;> cases action <;>
    simp_all [Registry.apply, Registry.rightsOf?, findRights?_setCell,
      findRights?_dropCell_of_ne]

end AccessRights
