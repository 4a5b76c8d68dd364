/-
AccessRights/Proofs/Roster.lean

What the attachments of a roster are worth.

The table of calculated answers only ever repeats cells, a backup is the
registry from before the pending changes, and nothing is pending without a
backup.  `Roster.Consistent` says so; every step keeps it, so a look-up
answers from the cells whatever has been remembered meanwhile.

A look-up teaches the roster at most one answer.  `Roster.recalled?` is what a
roster answers without learning anything, and `Roster.Within` compares a
roster with itself after some look-ups.

Main results: `Roster.Consistent.perform` (steps keep consistency) and
`Roster.Consistent.lookup_fst` (look-ups answer from the cells).
-/
import AccessRights.Proofs.View
import AccessRights.Site.Resolution

namespace AccessRights

/-! ### Remembered answers -/

/-- Every remembered answer is the one that the cells give. -/
def Registry.Repeats (registry : Registry) (calculated : Std.ExtTreeMap Actor Rights) : Prop :=
  ∀ actor rights, calculated[actor]? = some rights →
    actor.isEveryone = false ∧ registry.rightsOf? actor = some rights

namespace Registry

variable {registry : Registry} {calculated : Std.ExtTreeMap Actor Rights}

/-- Who remembers nothing repeats nothing wrong. -/
theorem repeats_empty (registry : Registry) : registry.Repeats ∅ := by
  intro actor rights h
  simp at h

/-- Remembering the answer of a cell keeps the table right. -/
theorem Repeats.insert (h : registry.Repeats calculated) {actor : Actor} {rights : Rights}
    (hactor : actor.isEveryone = false) (hrights : registry.rightsOf? actor = some rights) :
    registry.Repeats (calculated.insert actor rights) := by
  intro other found hfound
  obtain ⟨rfl, rfl⟩ | ⟨-, hold⟩ := of_lookup_insert hfound
  · exact ⟨hactor, hrights⟩
  · exact h other found hold

/-- A change outdates at most the answer for its own actor. -/
theorem Repeats.apply (h : registry.Repeats calculated) (change : Change) :
    (registry.apply change).Repeats (calculated.erase change.actor) := by
  intro actor rights hfound
  rw [lookup_erase] at hfound
  split at hfound
  · cases hfound
  · rename_i hne
    obtain ⟨hactor, hrights⟩ := h actor rights hfound
    refine ⟨hactor, ?_⟩
    rw [rightsOf?_apply_of_ne, hrights]
    · exact hne
    · simp [hactor]

end Registry

namespace Roster

variable {roster other third : Roster}

/-! ### Consistent rosters -/

/-- The attachments of a roster agree with its registry. -/
structure Consistent (roster : Roster) : Prop where
  calculated : roster.registry.Repeats roster.calculated
  backup {backup} : roster.backup = some backup →
    backup.registry.Repeats backup.calculated ∧
      roster.registry = backup.registry.replay roster.pending
  clean : roster.backup = none → roster.pending = []

/-- A roster that was just read remembers nothing yet. -/
theorem consistent_ofRecord (record : RosterRecord) : (ofRecord record).Consistent where
  calculated := Registry.repeats_empty _
  backup h := by cases h
  clean _ := rfl

theorem Consistent.forgetCalculated (h : roster.Consistent) :
    roster.forgetCalculated.Consistent where
  calculated := Registry.repeats_empty _
  backup hbackup := h.backup hbackup
  clean hbackup := h.clean hbackup

theorem Consistent.commit (h : roster.Consistent) : roster.commit.Consistent where
  calculated := h.calculated
  backup hbackup := by cases hbackup
  clean _ := rfl

@[simp] theorem policyId_backUp (roster : Roster) : roster.backUp.policyId = roster.policyId := by
  unfold backUp
  split <;> rfl

@[simp] theorem registry_backUp (roster : Roster) : roster.backUp.registry = roster.registry := by
  unfold backUp
  split <;> rfl

@[simp] theorem pending_backUp (roster : Roster) : roster.backUp.pending = roster.pending := by
  unfold backUp
  split <;> rfl

@[simp] theorem calculated_backUp (roster : Roster) :
    roster.backUp.calculated = roster.calculated := by
  unfold backUp
  split <;> rfl

/-- A backup is taken of a registry together with what is remembered of it. -/
theorem Consistent.backUp (h : roster.Consistent) : roster.backUp.Consistent := by
  unfold Roster.backUp
  split
  · exact h
  · rename_i hnone
    refine ⟨h.calculated, ?_, ?_⟩
    · rintro _ ⟨⟩
      refine ⟨h.calculated, ?_⟩
      simp [h.clean hnone, Registry.replay]
    · intro hbackup
      cases hbackup

@[simp] theorem policyId_rollBack (roster : Roster) : roster.rollBack.policyId = roster.policyId := by
  unfold rollBack
  split <;> rfl

@[simp] theorem policyId_change (roster : Roster) (change : Change) :
    (roster.change change).policyId = roster.policyId := policyId_backUp roster

@[simp] theorem registry_change (roster : Roster) (change : Change) :
    (roster.change change).registry = roster.registry.apply change :=
  congrArg (·.apply change) (registry_backUp roster)

@[simp] theorem pending_change (roster : Roster) (change : Change) :
    (roster.change change).pending = roster.pending ++ [change] :=
  congrArg (· ++ [change]) (pending_backUp roster)

/-- So both come back together. -/
theorem Consistent.rollBack (h : roster.Consistent) : roster.rollBack.Consistent := by
  unfold Roster.rollBack
  split
  · rename_i backup hbackup
    exact ⟨(h.backup hbackup).1, nofun, fun _ => rfl⟩
  · rename_i hnone
    refine ⟨h.calculated, ?_, fun _ => rfl⟩
    intro backup hbackup
    cases hnone.symm.trans hbackup

/-- With a backup held, a change is one more step away from it. -/
theorem Consistent.change (h : roster.Consistent) (change : Change) :
    (roster.change change).Consistent := by
  -- a change first makes sure of a backup, so there is one to replay from
  have hbacked := h.backUp
  refine ⟨hbacked.calculated.apply change, ?_, ?_⟩
  · intro backup hbackup
    obtain ⟨hrepeats, hreplay⟩ := hbacked.backup hbackup
    refine ⟨hrepeats, ?_⟩
    show roster.backUp.registry.apply change =
      backup.registry.replay (roster.backUp.pending ++ [change])
    rw [hreplay, Registry.replay, Registry.replay, List.foldl_append]
    rfl
  · intro hnone
    -- after a backup was taken there is one
    have : roster.backUp.backup.isSome = true := by
      unfold Roster.backUp
      split <;> simp_all
    rw [show roster.backUp.backup = none from hnone] at this
    cases this

/-! ### Looking up -/

/-- What a roster answers without learning anything. -/
def recalled? (roster : Roster) (actor : Actor) : Option (Option Rights) :=
  if actor.isEveryone then some (some roster.everyone)
  else match roster.calculated[actor]?, findRights? actor roster.cells with
    | some rights, _ => some (some rights)
    | none, none => some none
    | none, some _ => none

/-- The roster may have learned answers, and is otherwise the same. -/
structure Within (roster other : Roster) : Prop where
  policyId : other.policyId = roster.policyId
  registry : other.registry = roster.registry
  pending : other.pending = roster.pending
  backup : other.backup = roster.backup
  calculated (actor : Actor) (rights : Rights) : roster.calculated[actor]? = some rights →
    other.calculated[actor]? = some rights

theorem Within.refl (roster : Roster) : roster.Within roster :=
  ⟨rfl, rfl, rfl, rfl, fun _ _ => id⟩

theorem Within.trans (h : roster.Within other) (h' : other.Within third) :
    roster.Within third where
  policyId := h'.policyId.trans h.policyId
  registry := h'.registry.trans h.registry
  pending := h'.pending.trans h.pending
  backup := h'.backup.trans h.backup
  calculated actor rights hfound := h'.calculated actor rights (h.calculated actor rights hfound)

/-- A look-up answers from the cells, whatever has been remembered. -/
theorem Consistent.lookup_fst (h : roster.Consistent) (actor : Actor) :
    (roster.lookup actor).1 = roster.registry.rightsOf? actor := by
  unfold lookup
  split
  · rename_i hactor
    simp [Registry.rightsOf?, hactor, everyone]
  · rename_i hactor
    split
    · rename_i rights hfound
      exact (h.calculated actor rights hfound).2.symm
    · split <;> simp_all [Registry.rightsOf?, cells]

/-- To look somebody up remembers the cell that was found. -/
theorem Consistent.lookup (h : roster.Consistent) (actor : Actor) :
    (roster.lookup actor).2.Consistent := by
  unfold Roster.lookup
  split
  · exact h
  · rename_i hactor
    split
    · exact h
    · split
      · rename_i rights hfound
        refine ⟨h.calculated.insert (by simpa using hactor) ?_, h.backup, h.clean⟩
        rw [Registry.rightsOf?, if_neg hactor]
        exact hfound
      · exact h

/-- Nothing but what is remembered is touched by looking somebody up. -/
theorem within_lookup (roster : Roster) (actor : Actor) :
    roster.Within (roster.lookup actor).2 := by
  unfold lookup
  split
  · exact .refl roster
  · split
    · exact .refl roster
    · rename_i hnone
      split
      · refine ⟨rfl, rfl, rfl, rfl, fun other rights hother => ?_⟩
        rw [lookup_insert]
        split
        · rename_i heq
          subst heq
          cases hnone.symm.trans hother
        · exact hother
      · exact .refl roster

/-- What a roster recalls it also answers when looked up, and is none the wiser. -/
theorem lookup_eq_of_recalled? {actor : Actor} {found : Option Rights}
    (h : roster.recalled? actor = some found) : roster.lookup actor = (found, roster) := by
  unfold recalled? at h
  unfold lookup
  split at h
  · rename_i hactor
    rw [if_pos hactor, ← Option.some.inj h]
  · rename_i hactor
    rw [if_neg hactor]
    split at h
    · rename_i hcalculated
      rw [hcalculated, ← Option.some.inj h]
    · rename_i hcalculated hcell
      rw [hcalculated, hcell, ← Option.some.inj h]
    · cases h

/-- What has been looked up is recalled from then on. -/
theorem recalled?_lookup (roster : Roster) (actor : Actor) :
    (roster.lookup actor).2.recalled? actor = some (roster.lookup actor).1 := by
  unfold lookup
  split
  · rename_i hactor
    simp [recalled?, hactor, everyone]
  · rename_i hactor
    split
    · rename_i hfound
      simp [recalled?, hactor, hfound]
    · rename_i hnone
      split
      · simp [recalled?, hactor]
      · rename_i hcell
        simp [recalled?, hactor, hnone, hcell]

/-- What a roster recalls it recalls as well when it remembers more. -/
theorem Consistent.recalled?_mono (h : other.Consistent) (hwithin : roster.Within other)
    {actor : Actor} {found : Option Rights} (hfound : roster.recalled? actor = some found) :
    other.recalled? actor = some found := by
  unfold recalled? at hfound ⊢
  simp only [everyone, cells] at hfound ⊢
  rw [hwithin.registry]
  split at hfound
  · rename_i hactor
    rw [if_pos hactor, hfound]
  · rename_i hactor
    rw [if_neg hactor]
    split at hfound
    · rename_i rights hcalculated
      rw [hwithin.calculated actor rights hcalculated]
      exact hfound
    · rename_i hcell
      -- a consistent roster remembers nothing for an actor without a cell
      have hnone : other.calculated[actor]? = none := by
        cases hother : other.calculated[actor]? with
        | none => rfl
        | some rights =>
          have := (h.calculated actor rights hother).2
          rw [Registry.rightsOf?, if_neg hactor, hwithin.registry, hcell] at this
          cases this
      rw [hnone, hcell]
      exact hfound
    · cases hfound

/-- What a consistent roster recalls is what its cells say. -/
theorem Consistent.rightsOf?_of_recalled? (h : roster.Consistent) {actor : Actor}
    {found : Option Rights} (hfound : roster.recalled? actor = some found) :
    roster.registry.rightsOf? actor = found := by
  rw [← h.lookup_fst actor, lookup_eq_of_recalled? hfound]

/-- A backup makes no difference to what is recalled. -/
theorem recalled?_backUp (roster : Roster) (actor : Actor) :
    roster.backUp.recalled? actor = roster.recalled? actor := by
  unfold recalled? everyone cells
  rw [registry_backUp, calculated_backUp]

/-- Rolling back to a backup forgets what was learned since as well. -/
theorem rollBack_of_within_backUp (hwithin : roster.backUp.Within other) :
    other.rollBack = roster.rollBack := by
  obtain ⟨hid, -, -, hbackup, -⟩ := hwithin
  rw [policyId_backUp] at hid
  unfold Roster.rollBack
  rw [hbackup]
  cases hheld : roster.backup with
  | none =>
    unfold Roster.backUp
    rw [hheld]
    dsimp only
    rw [hid]
  | some backup =>
    unfold Roster.backUp
    rw [hheld]
    dsimp only
    rw [hheld]
    dsimp only
    rw [hid]

/-! ### Looking up several actors -/

/-- The next actor is looked up if the first one has no cell. -/
theorem lookupFirst_of_none {actor : Actor} (h : roster.lookup actor = (none, other))
    (actors : List Actor) : roster.lookupFirst (actor :: actors) = other.lookupFirst actors := by
  rw [lookupFirst, h]

theorem lookupFirst_of_some {actor : Actor} {rights : Rights}
    (h : roster.lookup actor = (some rights, other)) (actors : List Actor) :
    roster.lookupFirst (actor :: actors) = (some rights, other) := by
  rw [lookupFirst, h]

/-- Looking up one actor after the other, all that is remembered stays true. -/
theorem Consistent.lookupFirst (h : roster.Consistent) (actors : List Actor) :
    (roster.lookupFirst actors).2.Consistent := by
  induction actors generalizing roster with
  | nil => exact h
  | cons actor actors ih =>
    have hafter := h.lookup actor
    rcases hlookup : roster.lookup actor with ⟨_ | rights, after⟩ <;> rw [hlookup] at hafter
    · rw [lookupFirst_of_none hlookup]
      exact ih hafter
    · rw [lookupFirst_of_some hlookup]
      exact hafter

/-- Nothing but what is remembered is touched by that. -/
theorem within_lookupFirst (roster : Roster) (actors : List Actor) :
    roster.Within (roster.lookupFirst actors).2 := by
  induction actors generalizing roster with
  | nil => exact .refl roster
  | cons actor actors ih =>
    have hafter := roster.within_lookup actor
    rcases hlookup : roster.lookup actor with ⟨_ | rights, after⟩ <;> rw [hlookup] at hafter
    · rw [lookupFirst_of_none hlookup]
      exact hafter.trans (ih after)
    · rw [lookupFirst_of_some hlookup]
      exact hafter

/-- The answer to a look-up of several actors is recalled from then on. -/
theorem Consistent.firstCell_lookupFirst (h : roster.Consistent) (actors : List Actor) :
    View.FirstCell (roster.lookupFirst actors).2.recalled? actors
      (roster.lookupFirst actors).1 := by
  induction actors generalizing roster with
  | nil => exact .none
  | cons actor actors ih =>
    have hafter := h.lookup actor
    have hrecall := roster.recalled?_lookup actor
    rcases hlookup : roster.lookup actor with ⟨_ | rights, after⟩ <;>
      rw [hlookup] at hafter hrecall
    · rw [lookupFirst_of_none hlookup]
      refine .later ?_ (ih hafter)
      exact (hafter.lookupFirst actors).recalled?_mono (after.within_lookupFirst actors) hrecall
    · rw [lookupFirst_of_some hlookup]
      exact .here hrecall

/-- A look-up of several actors whose answer is recalled teaches nothing. -/
theorem lookupFirst_eq_of_firstCell {actors : List Actor} {found : Option Rights}
    (h : View.FirstCell roster.recalled? actors found) :
    roster.lookupFirst actors = (found, roster) := by
  induction h with
  | none => rfl
  | here cell => rw [lookupFirst_of_some (lookup_eq_of_recalled? cell)]
  | later noCell _ ih => rw [lookupFirst_of_none (lookup_eq_of_recalled? noCell), ih]

/-! ### Steps -/

@[simp] theorem policyId_perform (roster : Roster) (step : RosterStep) :
    (roster.perform step).2.policyId = roster.policyId := by
  cases step with
  | change change => exact roster.policyId_change change
  | lookup actor => exact (roster.within_lookup actor).policyId
  | backUp => exact roster.policyId_backUp
  | rollBack => exact roster.policyId_rollBack
  | commit | forgetCalculated | record | update => rfl

/-- Every step keeps a roster consistent. -/
theorem Consistent.perform (h : roster.Consistent) (step : RosterStep) :
    (roster.perform step).2.Consistent := by
  cases step with
  | change change => exact h.change change
  | lookup actor => exact h.lookup actor
  | backUp => exact h.backUp
  | rollBack => exact h.rollBack
  | commit => exact h.commit
  | forgetCalculated => exact h.forgetCalculated
  | record => exact h
  | update => exact h

end Roster

end AccessRights
