/-
AccessRights/Proofs/Batch.lean

What is pending in a roster, after any steps.

The changes to a roster are settled when they are committed or rolled back, and
those made since then form a batch.  Three things are kept of a batch: the
registry after the changes, the list of the changes, and the backup from before
them.  They agree, whatever steps were taken: the list replayed on the registry
from before gives the registry of now, and rolling back gives the one from before.

What a roster would be rolled back to is its record without the batch.  No step
but a commit touches it, a backup that is taken before the first change of the
batch included.

Main results: `rollBack_record_perform` (a step), `since_run`, `batched_run` and
`rightsOf?_run` (a run).
-/
import AccessRights.Proofs.Rollback
import AccessRights.Proofs.Tidy
import Mathlib.Data.List.DropRight

namespace AccessRights

/-! ### Rosters without their pending changes -/

namespace Roster

variable {roster other : Roster}

/-- Rosters with the same record have the same registry. -/
theorem registry_eq_of_record (h : other.record = roster.record) :
    other.registry = roster.registry := by
  injection h with _ heveryone hcells
  exact congrArg₂ Registry.mk heveryone hcells

theorem rollBack_of_none (h : roster.backup = none) : roster.rollBack.record = roster.record := by
  unfold rollBack
  rw [h]
  rfl

theorem rollBack_of_some {backup : RosterBackup} (h : roster.backup = some backup) :
    roster.rollBack.record =
      ⟨roster.policyId, backup.registry.everyone, backup.registry.cells⟩ := by
  unfold rollBack
  rw [h]
  rfl

theorem Within.rollBack_record (h : roster.Within other) :
    other.rollBack.record = roster.rollBack.record := by
  unfold record everyone cells
  rw [policyId_rollBack, policyId_rollBack, h.policyId, h.registry_rollBack]

/-- Whatever has the backup that a roster holds or would take is rolled back to the same. -/
theorem rollBack_record_of_backup (hid : other.policyId = roster.policyId)
    (hbackup : other.backup = roster.backUp.backup) :
    other.rollBack.record = roster.rollBack.record := by
  unfold backUp at hbackup
  cases hheld : roster.backup with
  | none =>
    rw [hheld] at hbackup
    rw [rollBack_of_some hbackup, rollBack_of_none hheld, hid]
    rfl
  | some backup =>
    rw [hheld] at hbackup
    rw [rollBack_of_some (hbackup.trans hheld), rollBack_of_some hheld, hid]

theorem rollBack_record_change (roster : Roster) (change : Change) :
    (roster.change change).rollBack.record = roster.rollBack.record :=
  rollBack_record_of_backup (roster.policyId_change change) rfl

theorem rollBack_record_backUp (roster : Roster) :
    roster.backUp.rollBack.record = roster.rollBack.record :=
  rollBack_record_of_backup roster.policyId_backUp rfl

theorem backup_rollBack (roster : Roster) : roster.rollBack.backup = none := by
  unfold rollBack
  split
  · rfl
  · assumption

theorem rollBack_record_rollBack (roster : Roster) :
    roster.rollBack.rollBack.record = roster.rollBack.record :=
  rollBack_of_none (backup_rollBack roster)

/-- Whoever works on a roster, but does not make changes final, keeps them revocable. -/
theorem rollBack_record_perform (roster : Roster) {step : RosterStep} (h : step ≠ .commit) :
    (roster.perform step).2.rollBack.record = roster.rollBack.record := by
  cases step with
  | change change => exact roster.rollBack_record_change change
  | lookup actor => exact (roster.within_lookup actor).rollBack_record
  | backUp => exact roster.rollBack_record_backUp
  | rollBack => exact roster.rollBack_record_rollBack
  | commit => exact absurd rfl h
  | forgetCalculated =>
    show roster.forgetCalculated.rollBack.record = _
    unfold forgetCalculated rollBack
    dsimp only
    split <;> rfl
  | record | update => rfl

end Roster

/-! ### Runs -/

namespace RosterStep

/-- Whether the step settles the pending changes. -/
def settles : RosterStep → Bool
  | .rollBack | .commit => true
  | _ => false

/-- The change that the step makes. -/
def change? : RosterStep → Option Change
  | .change made => some made
  | _ => none

/-- The steps up to the last one that settled changes, or none if no step did. -/
def settled (steps : List RosterStep) : List RosterStep :=
  steps.rdropWhile fun step => !step.settles

/-- The changes made by the steps after these. -/
def unsettled (steps : List RosterStep) : List Change :=
  (steps.rtakeWhile fun step => !step.settles).filterMap change?

variable {step : RosterStep}

/-- A step that settles begins a new batch. -/
theorem concat_of_settles (steps : List RosterStep) (h : step.settles = true) :
    settled (steps ++ [step]) = steps ++ [step] ∧ unsettled (steps ++ [step]) = [] := by
  unfold settled unsettled
  rw [List.rdropWhile_concat, List.rtakeWhile_concat, h]
  exact ⟨rfl, rfl⟩

/-- Any other step belongs to the batch, and so does the change that it makes. -/
theorem concat_of_not_settles (steps : List RosterStep) (h : step.settles = false) :
    settled (steps ++ [step]) = settled steps ∧
      unsettled (steps ++ [step]) = unsettled steps ++ step.change?.toList := by
  unfold settled unsettled
  rw [List.rdropWhile_concat, List.rtakeWhile_concat, h]
  refine ⟨rfl, List.filterMap_append.trans (congrArg _ ?_)⟩
  rw [List.filterMap_cons]
  cases step.change? <;> rfl

end RosterStep

namespace Roster

variable {roster point : Roster} {changes : List Change} {step : RosterStep}

/-- The roster after some steps. -/
def run (roster : Roster) (steps : List RosterStep) : Roster :=
  steps.foldl (fun roster step => (roster.perform step).2) roster

theorem run_concat (roster : Roster) (steps : List RosterStep) (step : RosterStep) :
    roster.run (steps ++ [step]) = ((roster.run steps).perform step).2 :=
  List.foldl_concat ..

theorem Consistent.run (h : roster.Consistent) (steps : List RosterStep) :
    (roster.run steps).Consistent := by
  induction steps generalizing roster with
  | nil => exact h
  | cons step steps ih => exact ih (h.perform step)

theorem Tidy.run (h : roster.Tidy) (steps : List RosterStep) : (roster.run steps).Tidy := by
  induction steps generalizing roster with
  | nil => exact h
  | cons step steps ih => exact ih (h.perform step)

/-! ### Steps of a batch -/

/-- A step that settles nothing adds what it changes to what is pending. -/
theorem pending_perform (roster : Roster) (hstep : step.settles = false) :
    (roster.perform step).2.pending = roster.pending ++ step.change?.toList := by
  cases step with
  | change change => exact roster.pending_change change
  | rollBack | commit => cases hstep
  | lookup actor => exact (roster.within_lookup actor).pending.trans (List.append_nil _).symm
  | backUp => exact (pending_backUp roster).trans (List.append_nil _).symm
  | forgetCalculated | record | update => exact (List.append_nil _).symm

/-- After a step that settles, nothing is pending and no backup is held. -/
theorem clean_perform (roster : Roster) (hstep : step.settles = true) :
    (roster.perform step).2.pending = [] ∧ (roster.perform step).2.backup = none := by
  cases step with
  | commit => exact ⟨rfl, rfl⟩
  | rollBack => exact ⟨roster.pending_rollBack, roster.backup_rollBack⟩
  | change | lookup | backUp | forgetCalculated | record | update => cases hstep

/-- The changes are pending, and without them the roster is what it was at the given point, where
nothing was pending. -/
structure Since (point : Roster) (changes : List Change) (roster : Roster) : Prop where
  clean : point.pending = []
  pending : roster.pending = changes
  record : roster.rollBack.record = point.record
  consistent : roster.Consistent

/-- A batch begins where nothing is pending and no backup is held. -/
theorem since_self (hpending : point.pending = []) (hbackup : point.backup = none)
    (hconsistent : point.Consistent) : point.Since [] point :=
  ⟨hpending, hpending, rollBack_of_none hbackup, hconsistent⟩

theorem Since.perform (h : point.Since changes roster) (hstep : step.settles = false) :
    point.Since (changes ++ step.change?.toList) (roster.perform step).2 := by
  refine ⟨h.clean, ?_, ?_, h.consistent.perform step⟩
  · rw [roster.pending_perform hstep, h.pending]
  · rw [roster.rollBack_record_perform, h.record]
    rintro rfl
    cases hstep

theorem Since.registry_rollBack (h : point.Since changes roster) :
    roster.rollBack.registry = point.registry :=
  registry_eq_of_record h.record

/-- The pending changes lead from what the roster would be rolled back to, to what it is. -/
theorem Consistent.replay_rollBack (h : roster.Consistent) :
    roster.rollBack.registry.replay roster.pending = roster.registry := by
  unfold Roster.rollBack
  split
  · exact (h.backup ‹_›).2.symm
  · rw [h.clean ‹_›]
    rfl

/-- The list of the changes leads from what the roster was to what it is. -/
theorem Since.replay_eq (h : point.Since changes roster) :
    point.registry.replay changes = roster.registry := by
  rw [← h.registry_rollBack, ← h.pending, h.consistent.replay_rollBack]

/-- A roster that is rolled back looks as it did. -/
theorem Since.alike_rollBack (h : point.Since changes roster) (hpoint : point.Consistent) :
    point.Alike roster.rollBack :=
  alike_of_registry hpoint h.consistent.rollBack h.registry_rollBack
    (roster.pending_rollBack.trans h.clean.symm)

/-- Nothing is pending without a backup. -/
theorem Consistent.hasBackup (h : roster.Consistent) (hpending : roster.hasPending = true) :
    roster.hasBackup = true := by
  unfold Roster.hasBackup
  unfold hasPending at hpending
  cases hbackup : roster.backup with
  | some backup => rfl
  | none =>
    rw [h.clean hbackup] at hpending
    cases hpending

/-! ### Runs of a batch -/

/-- The batch of a roster that began clean, after any steps. -/
theorem since_run (hpending : roster.pending = []) (hbackup : roster.backup = none)
    (hconsistent : roster.Consistent) (steps : List RosterStep) :
    (roster.run (RosterStep.settled steps)).Since (RosterStep.unsettled steps)
      (roster.run steps) := by
  induction steps using List.reverseRecOn with
  | nil => exact since_self hpending hbackup hconsistent
  | append_singleton steps step ih =>
    cases hstep : step.settles with
    | true =>
      obtain ⟨hsettled, hunsettled⟩ := RosterStep.concat_of_settles steps hstep
      obtain ⟨hpending, hbackup⟩ := clean_perform (roster.run steps) hstep
      rw [hsettled, hunsettled, run_concat]
      exact since_self hpending hbackup ((hconsistent.run steps).perform step)
    | false =>
      obtain ⟨hsettled, hunsettled⟩ := RosterStep.concat_of_not_settles steps hstep
      rw [hsettled, hunsettled, run_concat]
      exact ih.perform hstep

/-- The pending changes of a roster are the given ones.  They lead from the registry at the given
point to that of now, and rolling back leads back to that point. -/
structure Batched (point : Roster) (changes : List Change) (roster : Roster) : Prop where
  pending : roster.pending = changes
  replayed : point.registry.replay changes = roster.registry
  guarded : roster.hasPending = true → roster.hasBackup = true
  restored : point.Alike roster.rollBack
  clean : roster.rollBack.hasPending = false ∧ roster.rollBack.hasBackup = false

/-- Whatever steps are taken on a roster from a record, the changes since they were settled last are
pending, as a batch. -/
theorem batched_run (record : RosterRecord) (steps : List RosterStep) :
    ((ofRecord record).run (RosterStep.settled steps)).Batched (RosterStep.unsettled steps)
      ((ofRecord record).run steps) := by
  have hstart := consistent_ofRecord record
  have hsince := since_run rfl rfl hstart steps
  refine ⟨hsince.pending, hsince.replay_eq, hsince.consistent.hasBackup,
    hsince.alike_rollBack (hstart.run _), ?_, ?_⟩
  · unfold hasPending
    rw [pending_rollBack]
    rfl
  · unfold hasBackup
    rw [backup_rollBack]
    rfl

/-- So every actor has what the last pending change for it leaves it with, and what it had at the
given point if none is for it. -/
theorem rightsOf?_run (record : RosterRecord) (steps : List RosterStep) (actor : Actor) :
    ((∀ change ∈ RosterStep.unsettled steps, change.actor.normalize ≠ actor.normalize) →
      ((ofRecord record).run steps).registry.rightsOf? actor =
        ((ofRecord record).run (RosterStep.settled steps)).registry.rightsOf? actor) ∧
    ∀ before change later, RosterStep.unsettled steps = before ++ change :: later →
      change.actor.normalize = actor.normalize →
      (∀ other ∈ later, other.actor.normalize ≠ actor.normalize) →
        ((ofRecord record).run steps).registry.rightsOf? actor = change.leaves := by
  have hreplay := (since_run rfl rfl (consistent_ofRecord record) steps).replay_eq
  have htidy := ((tidy_ofRecord record).run (RosterStep.settled steps)).registry
  refine ⟨fun hothers => ?_, fun before change later hchanges hconcerns hlater => ?_⟩
  · rw [← hreplay, Registry.rightsOf?_replay_of_normalize_ne hothers]
  · rw [← hreplay, hchanges, htidy.rightsOf?_replay_of_last hconcerns hlater]

example (granted revoked : Change) (actor : Actor) : RosterStep.unsettled
    [.change granted, .commit, .backUp, .change revoked, .lookup actor, .change granted] =
      [revoked, granted] := rfl

end Roster

end AccessRights
