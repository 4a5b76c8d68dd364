/-
AccessRights/Proofs/Registry.lean

Registries that hold every actor once.

A registry is tidy if no actor has two cells and the public has none.  Every
change keeps it tidy, so every registry that a roster has ever had is, and so
is every record that was stored from one.  A tidy record unfolds to the very
cells it lists, in their order, and what is unset in a tidy registry is gone.

Main results: `Tidy.apply`, `Tidy.ofRecord_eq` and `Tidy.rightsOf?_replay_of_last` (what a
list of changes leaves an actor).
-/
import AccessRights.Roster

namespace AccessRights

/-! ### Cells after a change -/

/-- The actors of cells after one is set: no new one if it had a cell, else it comes last. -/
theorem actors_setCell (actor : Actor) (rights : Rights) (cells : List Cell) :
    (setCell actor rights cells).map Cell.actor =
      if actor ∈ cells.map Cell.actor then cells.map Cell.actor
      else cells.map Cell.actor ++ [actor] := by
  induction cells with
  | nil => rfl
  | cons cell cells ih =>
    unfold setCell
    by_cases hcell : cell.actor = actor
    · simp [hcell]
    · rw [if_neg hcell, List.map_cons, List.map_cons, ih]
      have hne : actor ≠ cell.actor := fun h => hcell h.symm
      by_cases hmem : actor ∈ cells.map Cell.actor <;> simp [hmem, hne]

/-- A cell for an actor that has none is put at the end. -/
theorem setCell_of_not_mem {actor : Actor} {cells : List Cell}
    (h : actor ∉ cells.map Cell.actor) (rights : Rights) :
    setCell actor rights cells = cells ++ [⟨actor, rights⟩] := by
  induction cells with
  | nil => rfl
  | cons cell cells ih =>
    rw [List.map_cons, List.mem_cons, not_or] at h
    unfold setCell
    rw [if_neg fun heq => h.1 heq.symm, ih h.2, List.cons_append]

/-- An actor that is not listed has no cell. -/
theorem findRights?_eq_none {actor : Actor} {cells : List Cell}
    (h : actor ∉ cells.map Cell.actor) : findRights? actor cells = none := by
  unfold findRights?
  rw [Option.map_eq_none_iff, List.find?_eq_none]
  intro cell hmem hactor
  exact h (List.mem_map.2 ⟨cell, hmem, by simpa using hactor⟩)

/-- The rights that are found for an actor are those in its cell, if actors have one at most. -/
theorem findRights?_eq_some_iff {actor : Actor} {rights : Rights} {cells : List Cell}
    (h : (cells.map Cell.actor).Nodup) :
    findRights? actor cells = some rights ↔ ⟨actor, rights⟩ ∈ cells := by
  induction cells with
  | nil => simp
  | cons cell cells ih =>
    obtain ⟨hnew, hnodup⟩ := List.nodup_cons.1 h
    rw [findRights?_cons, List.mem_cons]
    split
    · rename_i hactor
      subst hactor
      refine ⟨fun hfound => .inl (Option.some.inj hfound ▸ rfl), fun hmem => ?_⟩
      obtain hcell | hlater := hmem
      · exact congrArg some (congrArg Cell.rights hcell).symm
      · exact absurd (List.mem_map_of_mem hlater) hnew
    · rename_i hactor
      rw [ih hnodup]
      exact (or_iff_right fun hcell => hactor (congrArg Cell.actor hcell).symm).symm

/-- Of an actor with one cell nothing is left when that is dropped. -/
theorem not_mem_dropCell {actor : Actor} {cells : List Cell}
    (h : (cells.map Cell.actor).Nodup) : actor ∉ (dropCell actor cells).map Cell.actor := by
  induction cells with
  | nil => simp [dropCell]
  | cons cell cells ih =>
    rw [List.map_cons, List.nodup_cons] at h
    unfold dropCell at ih ⊢
    by_cases hcell : cell.actor = actor
    · rw [List.eraseP_cons_of_pos (by simpa using hcell), ← hcell]
      exact h.1
    · rw [List.eraseP_cons_of_neg (by simpa using hcell), List.map_cons, List.mem_cons, not_or]
      exact ⟨fun heq => hcell heq.symm, ih h.2⟩

/-- What a change leaves the actor whom it is for: the rights that are set, or no cell.  The
public has no cell to lose, and is left without rights. -/
def Change.leaves (change : Change) : Option Rights :=
  match change.action with
  | .set => some change.rights
  | .unset => if change.actor.isEveryone then some ∅ else none

/-! ### Tidy registries -/

namespace Registry

variable {registry : Registry}

/-- No actor has two cells, and the public has none. -/
structure Tidy (registry : Registry) : Prop where
  nodup : (registry.cells.map Cell.actor).Nodup
  closed : ∀ actor ∈ registry.cells.map Cell.actor, actor.isEveryone = false

theorem tidy_nil (rights : Rights) : Tidy ⟨rights, []⟩ :=
  ⟨List.nodup_nil, nofun⟩

/-- Every change keeps a registry tidy. -/
theorem Tidy.apply (h : registry.Tidy) (change : Change) : (registry.apply change).Tidy := by
  obtain ⟨action, actor, rights⟩ := change
  unfold Registry.apply
  dsimp only
  split
  · exact ⟨h.nodup, h.closed⟩
  · exact ⟨h.nodup, h.closed⟩
  · -- a cell is set: the actors are the same, or there is one more at the end
    rename_i hactor
    have hactors := actors_setCell actor rights registry.cells
    constructor
    · rw [hactors]
      split
      · exact h.nodup
      · rename_i hmem
        refine List.nodup_append.2 ⟨h.nodup, by simp, fun other hother last hlast heq => hmem ?_⟩
        rwa [← List.mem_singleton.1 hlast, ← heq]
    · rw [hactors]
      split
      · exact h.closed
      · intro other hother
        obtain hold | hnew := List.mem_append.1 hother
        · exact h.closed other hold
        · rw [List.mem_singleton.1 hnew, hactor]
  · have hsub : ((dropCell actor registry.cells).map Cell.actor).Sublist
        (registry.cells.map Cell.actor) := List.eraseP_sublist.map Cell.actor
    exact ⟨h.nodup.sublist hsub, fun other hother => h.closed other (hsub.subset hother)⟩

theorem Tidy.replay (h : registry.Tidy) (changes : List Change) :
    (registry.replay changes).Tidy := by
  induction changes generalizing registry with
  | nil => exact h
  | cons change changes ih => exact ih (h.apply change)

/-- Whatever a record lists, the registry it unfolds to is tidy. -/
theorem tidy_ofRecord (record : RosterRecord) : (ofRecord record).Tidy :=
  (tidy_nil record.everyone).replay _

/-- Cells of actors that are not listed yet are put at the end one after the other. -/
theorem replay_set_cells {cells later : List Cell} {rights : Rights}
    (h : Tidy ⟨rights, cells ++ later⟩) :
    replay ⟨rights, cells⟩ (later.map fun cell => ⟨.set, cell.actor, cell.rights⟩) =
      ⟨rights, cells ++ later⟩ := by
  induction later generalizing cells with
  | nil => rw [List.append_nil]; rfl
  | cons cell later ih =>
    have hnodup : (cells.map Cell.actor ++ cell.actor :: later.map Cell.actor).Nodup := by
      have := h.nodup
      rwa [List.map_append, List.map_cons] at this
    have hnew : cell.actor ∉ cells.map Cell.actor := fun hmem =>
      (List.nodup_append.1 hnodup).2.2 _ hmem _ List.mem_cons_self rfl
    have hclosed : cell.actor.isEveryone = false := h.closed _ (by simp)
    have hset : apply ⟨rights, cells⟩ ⟨.set, cell.actor, cell.rights⟩ = ⟨rights, cells ++ [cell]⟩ := by
      unfold apply
      rw [hclosed]
      dsimp only
      rw [setCell_of_not_mem hnew]
    rw [List.append_cons] at h ⊢
    rw [← ih h, List.map_cons, ← hset]
    rfl

/-- A tidy record unfolds to what it lists. -/
theorem Tidy.ofRecord_eq {record : RosterRecord} (h : Tidy ⟨record.everyone, record.cells⟩) :
    ofRecord record = ⟨record.everyone, record.cells⟩ :=
  replay_set_cells h

/-- An actor whose cell is taken away has none. -/
theorem Tidy.rightsOf?_unset (h : registry.Tidy) {actor : Actor}
    (hactor : actor.isEveryone = false) (rights : Rights) :
    (registry.apply ⟨.unset, actor, rights⟩).rightsOf? actor = none := by
  unfold Registry.apply rightsOf?
  rw [hactor]
  exact findRights?_eq_none (not_mem_dropCell h.nodup)

/-! ### What changes leave an actor -/

/-- The change concerns an actor, or it has what it had. -/
theorem rightsOf?_apply_cases (registry : Registry) (change : Change) (actor : Actor) :
    (registry.apply change).rightsOf? actor = registry.rightsOf? actor ∨
      change.actor = actor ∨ (change.actor.isEveryone = true ∧ actor.isEveryone = true) := by
  by_cases hactor : change.actor = actor
  · exact .inr (.inl hactor)
  · by_cases hpublic : change.actor.isEveryone = true ∧ actor.isEveryone = true
    · exact .inr (.inr hpublic)
    · exact .inl (rightsOf?_apply_of_ne hactor hpublic)

/-- A change for somebody else makes no difference to an actor. -/
theorem rightsOf?_apply_of_normalize_ne {change : Change} {actor : Actor}
    (h : change.actor.normalize ≠ actor.normalize) :
    (registry.apply change).rightsOf? actor = registry.rightsOf? actor := by
  obtain hsame | rfl | ⟨hpublic, hpublic'⟩ := registry.rightsOf?_apply_cases change actor
  · exact hsame
  · exact absurd rfl h
  · have hnormal : change.actor.normalize = .everyone := if_pos hpublic
    have hnormal' : actor.normalize = .everyone := if_pos hpublic'
    exact absurd (hnormal.trans hnormal'.symm) h

/-- So with any number of changes for others. -/
theorem rightsOf?_replay_of_normalize_ne {changes : List Change} {actor : Actor}
    (h : ∀ change ∈ changes, change.actor.normalize ≠ actor.normalize) :
    (registry.replay changes).rightsOf? actor = registry.rightsOf? actor := by
  induction changes generalizing registry with
  | nil => rfl
  | cons change changes ih =>
    obtain ⟨hfirst, hrest⟩ := List.forall_mem_cons.1 h
    exact (ih hrest).trans (rightsOf?_apply_of_normalize_ne hfirst)

theorem Tidy.rightsOf?_apply_self (h : registry.Tidy) (change : Change) :
    (registry.apply change).rightsOf? change.actor = change.leaves := by
  obtain ⟨action, actor, rights⟩ := change
  cases action with
  | set => exact rightsOf?_apply_set
  | unset =>
    unfold Change.leaves
    cases hactor : actor.isEveryone with
    | true => simp [Registry.apply, rightsOf?, hactor]
    | false => simpa [hactor] using h.rightsOf?_unset hactor rights

/-- All ways to write the public are looked up alike. -/
theorem rightsOf?_congr {actor other : Actor} (h : actor.normalize = other.normalize) :
    registry.rightsOf? actor = registry.rightsOf? other := by
  have hpublic (actor : Actor) : actor.normalize.isEveryone = actor.isEveryone := by
    unfold Actor.normalize
    split <;> simp_all [Actor.everyone, Actor.isEveryone]
  cases hactor : actor.isEveryone with
  | true =>
    have hother : other.isEveryone = true := by rw [← hpublic, ← h, hpublic, hactor]
    rw [rightsOf?, rightsOf?, if_pos hactor, if_pos hother]
  | false =>
    have hother : other.isEveryone = false := by rw [← hpublic, ← h, hpublic, hactor]
    rw [Actor.normalize_of_not_everyone hactor, Actor.normalize_of_not_everyone hother] at h
    rw [h]

/-- The last change for an actor decides what it is left with. -/
theorem Tidy.rightsOf?_replay_of_last (h : registry.Tidy) {before later : List Change}
    {change : Change} {actor : Actor} (hconcerns : change.actor.normalize = actor.normalize)
    (hlater : ∀ other ∈ later, other.actor.normalize ≠ actor.normalize) :
    (registry.replay (before ++ change :: later)).rightsOf? actor = change.leaves := by
  have hsplit : registry.replay (before ++ change :: later) =
      ((registry.replay before).apply change).replay later := List.foldl_append
  rw [hsplit, rightsOf?_replay_of_normalize_ne hlater, ← rightsOf?_congr hconcerns,
    (h.replay before).rightsOf?_apply_self]

end Registry

end AccessRights
