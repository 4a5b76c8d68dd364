/-
AccessRights/Proofs/Handover.lean

What is changed while a roster is handed to the store.

To be persisted, a roster hands over its record and its pending changes, and
commits once the store has acknowledged them.  Others may work on it between the
two.  A commit settles whatever is pending by then, and so what was changed
meanwhile is settled as well, though the store was not handed it.

A ledger keeps a roster together with the record that was acknowledged last, and
it is balanced if the pending changes lead from that record to the live one.
What brings a ledger out of balance is a change that is made while another batch
is handed over, and nothing else does.

Main results: `Anchored.step` and `balanced_persist_iff` (a turn),
`handed_over_iff` (a run) and `not_forall_handed_over`.
-/
import AccessRights.Proofs.Batch

namespace AccessRights

/-! ### Records and changes -/

/-- The record after the changes in the order of the list. -/
def RosterRecord.replay (record : RosterRecord) (changes : List Change) : RosterRecord :=
  let registry := (Registry.ofRecord record).replay changes
  ⟨record.policyId, registry.everyone, registry.cells⟩

theorem Registry.replay_append (registry : Registry) (changes later : List Change) :
    registry.replay (changes ++ later) = (registry.replay changes).replay later :=
  List.foldl_append

namespace Roster

variable {roster : Roster}

/-- A record with changes is the record of a roster exactly if it is about the same policy and the
changes lead to the registry of the roster. -/
theorem replay_eq_record_iff {record : RosterRecord} {changes : List Change} :
    record.replay changes = roster.record ↔
      record.policyId = roster.policyId ∧
        (Registry.ofRecord record).replay changes = roster.registry := by
  show RosterRecord.mk _ _ _ = RosterRecord.mk _ _ _ ↔ _
  rw [RosterRecord.mk.injEq]
  refine and_congr_right fun _ => ⟨fun ⟨heveryone, hcells⟩ => ?_, fun hregistry => ?_⟩
  · exact congrArg₂ Registry.mk heveryone hcells
  · exact ⟨congrArg Registry.everyone hregistry, congrArg Registry.cells hregistry⟩

/-- A step that settles nothing does to the registry what it changes. -/
theorem registry_perform (roster : Roster) {step : RosterStep} (hstep : step.settles = false) :
    (roster.perform step).2.registry = roster.registry.replay step.change?.toList := by
  cases step with
  | change change => exact roster.registry_change change
  | rollBack | commit => cases hstep
  | lookup actor => exact (roster.within_lookup actor).registry
  | backUp => exact roster.registry_backUp
  | forgetCalculated | record | update => rfl

end Roster

/-! ### Windows -/

/-- What is done with a roster while nobody settles its changes. -/
structure Window where
  steps : List RosterStep
  unsettled : ∀ step ∈ steps, step.settles = false

/-- The changes that are made. -/
def Window.changes (window : Window) : List Change :=
  window.steps.filterMap RosterStep.change?

/-- The changes of a window are applied and are pending after those that were before. -/
theorem Roster.run_window (roster : Roster) (window : Window) :
    (roster.run window.steps).pending = roster.pending ++ window.changes ∧
      (roster.run window.steps).registry = roster.registry.replay window.changes ∧
      (roster.run window.steps).policyId = roster.policyId := by
  obtain ⟨steps, hsteps⟩ := window
  induction steps generalizing roster with
  | nil => exact ⟨(List.append_nil _).symm, rfl, rfl⟩
  | cons step steps ih =>
    obtain ⟨hstep, hsteps⟩ := List.forall_mem_cons.1 hsteps
    have hchanges : (step :: steps).filterMap RosterStep.change? =
        step.change?.toList ++ steps.filterMap RosterStep.change? := by
      rw [List.filterMap_cons]
      cases step.change? <;> rfl
    obtain ⟨hpending, hregistry, hid⟩ := ih (roster.perform step).2 hsteps
    unfold Window.changes at hpending hregistry ⊢
    rw [hchanges]
    refine ⟨hpending.trans ?_, hregistry.trans ?_, hid.trans (roster.policyId_perform step)⟩
    · rw [roster.pending_perform hstep, List.append_assoc]
    · rw [roster.registry_perform hstep, Registry.replay_append]

/-! ### Ledgers -/

/-- What happens to a roster next: a step that makes nothing final, or that the roster is
persisted, with what others do with it before the store has acknowledged. -/
inductive Turn where
  | step (step : RosterStep) (revocable : step ≠ .commit)
  | persist (meanwhile : Window)

/-- A roster and the record that the store acknowledged last. -/
structure Ledger where
  roster : Roster
  acknowledged : RosterRecord

namespace Ledger

variable {ledger : Ledger} {window : Window}

/-- The ledger of a roster that was just read from the store. -/
def opened (record : RosterRecord) : Ledger :=
  ⟨.ofRecord record, record⟩

/-- The roster hands itself over, and others work on it. -/
def handOver (ledger : Ledger) (window : Window) : Ledger :=
  { ledger with roster := (ledger.roster.perform .update).2.run window.steps }

/-- The ledger after a turn.  What the store acknowledges is what it was handed. -/
def turn (ledger : Ledger) : Turn → Ledger
  | .step step _ => { ledger with roster := (ledger.roster.perform step).2 }
  | .persist window =>
    { roster := ((ledger.handOver window).roster.perform .commit).2
      acknowledged := ledger.roster.update.record }

/-- The ledger after some turns. -/
def run (ledger : Ledger) (turns : List Turn) : Ledger :=
  turns.foldl turn ledger

theorem run_concat (ledger : Ledger) (turns : List Turn) (turn : Turn) :
    ledger.run (turns ++ [turn]) = (ledger.run turns).turn turn :=
  List.foldl_concat ..

/-- The acknowledged record with the pending changes is the live record. -/
def Balanced (ledger : Ledger) : Prop :=
  ledger.acknowledged.replay ledger.roster.pending = ledger.roster.record

/-- Others do not bring a ledger out of balance as long as nothing is settled. -/
theorem Balanced.handOver (h : ledger.Balanced) (window : Window) :
    (ledger.handOver window).Balanced := by
  obtain ⟨hid, hregistry⟩ := Roster.replay_eq_record_iff.1 h
  obtain ⟨hpending', hregistry', hid'⟩ := ledger.roster.run_window window
  refine Roster.replay_eq_record_iff.2 ⟨hid.trans hid'.symm, ?_⟩
  show (Registry.ofRecord ledger.acknowledged).replay (ledger.roster.run window.steps).pending =
    (ledger.roster.run window.steps).registry
  rw [hpending', hregistry', Registry.replay_append, hregistry]

/-- After a persist nothing is pending, and the live record has the changes that were made
meanwhile. -/
theorem persist_roster (ledger : Ledger) (window : Window) :
    (ledger.turn (.persist window)).roster.pending = [] ∧
      (ledger.turn (.persist window)).roster.registry =
        ledger.roster.registry.replay window.changes :=
  ⟨rfl, (ledger.roster.run_window window).2.1⟩

/-- A persist leaves the ledger balanced exactly if what was changed meanwhile makes no
difference. -/
theorem balanced_persist_iff (htidy : ledger.roster.Tidy) :
    (ledger.turn (.persist window)).Balanced ↔
      ledger.roster.registry.replay window.changes = ledger.roster.registry := by
  obtain ⟨hpending, hregistry⟩ := ledger.persist_roster window
  have hid : (ledger.turn (.persist window)).roster.policyId = ledger.roster.policyId :=
    (ledger.roster.run_window window).2.2
  unfold Balanced
  rw [Roster.replay_eq_record_iff, hpending, hregistry, hid]
  show ledger.roster.policyId = ledger.roster.policyId ∧
    Registry.ofRecord ledger.roster.record = _ ↔ _
  rw [htidy.ofRecord_record]
  exact ⟨fun h => h.2.symm, fun h => ⟨rfl, h.symm⟩⟩

theorem tidy_turn (htidy : ledger.roster.Tidy) (turn : Turn) : (ledger.turn turn).roster.Tidy := by
  cases turn with
  | step step => exact htidy.perform step
  | persist window => exact ((htidy.perform .update).run window.steps).perform .commit

/-! ### Anchored ledgers -/

/-- Rolled back, the roster is what the store has acknowledged. -/
structure Anchored (ledger : Ledger) : Prop where
  consistent : ledger.roster.Consistent
  tidy : ledger.roster.Tidy
  record : ledger.acknowledged.replay [] = ledger.roster.rollBack.record

theorem anchored_opened (record : RosterRecord) : (opened record).Anchored where
  consistent := Roster.consistent_ofRecord record
  tidy := Roster.tidy_ofRecord record
  record := rfl

theorem Anchored.balanced (h : ledger.Anchored) : ledger.Balanced := by
  obtain ⟨hid, hregistry⟩ := Roster.replay_eq_record_iff.1 h.record
  refine Roster.replay_eq_record_iff.2 ⟨hid.trans ledger.roster.policyId_rollBack, ?_⟩
  rw [← h.consistent.replay_rollBack, ← hregistry]
  rfl

/-- Whatever is not final can be rolled back to what was acknowledged. -/
theorem Anchored.step (h : ledger.Anchored) {step : RosterStep} (hstep : step ≠ .commit) :
    (ledger.turn (.step step hstep)).Anchored where
  consistent := h.consistent.perform step
  tidy := h.tidy.perform step
  record := h.record.trans (ledger.roster.rollBack_record_perform hstep).symm

/-- What a persist made final was acknowledged, if it leaves the ledger balanced. -/
theorem Anchored.persist (h : ledger.Anchored)
    (hbalanced : (ledger.turn (.persist window)).Balanced) :
    (ledger.turn (.persist window)).Anchored where
  consistent := ((h.consistent.perform .update).run window.steps).perform .commit
  tidy := tidy_turn h.tidy _
  record := hbalanced

theorem tidy_run (record : RosterRecord) (turns : List Turn) :
    ((opened record).run turns).roster.Tidy := by
  induction turns using List.reverseRecOn with
  | nil => exact Roster.tidy_ofRecord record
  | append_singleton turns turn ih =>
    rw [run_concat]
    exact tidy_turn ih turn

/-- A run whose persists all leave the ledger balanced keeps it anchored. -/
theorem anchored_run {record : RosterRecord} {turns : List Turn}
    (h : ∀ before window, before ++ [.persist window] <+: turns →
      ((opened record).run (before ++ [.persist window])).Balanced) :
    ((opened record).run turns).Anchored := by
  induction turns using List.reverseRecOn with
  | nil => exact anchored_opened record
  | append_singleton turns turn ih =>
    have hbefore : ((opened record).run turns).Anchored :=
      ih fun before window hpart => h before window (hpart.trans (List.prefix_append turns _))
    rw [run_concat]
    cases turn with
    | step step hstep => exact hbefore.step hstep
    | persist window =>
      have hbalanced := h turns window (List.prefix_refl _)
      rw [run_concat] at hbalanced
      exact hbefore.persist hbalanced

theorem balanced_run_persist_iff (record : RosterRecord) (before : List Turn) (window : Window) :
    ((opened record).run (before ++ [.persist window])).Balanced ↔
      ((opened record).run before).roster.registry.replay window.changes =
        ((opened record).run before).roster.registry := by
  rw [run_concat]
  exact balanced_persist_iff (tidy_run record before)

/-- No change is lost when a roster is persisted exactly if none is made before the store has
acknowledged; and the ledger is in balance at every point of a run, also while the roster is handed
over, exactly if the changes that are made meanwhile make no difference. -/
theorem handed_over_iff (record : RosterRecord) (turns : List Turn) :
    ((∀ before window, before ++ [.persist window] <+: turns → ∀ change ∈ window.changes,
        change ∈ ((opened record).run (before ++ [.persist window])).roster.pending) ↔
      ∀ window, .persist window ∈ turns → window.changes = []) ∧
    ((∀ before, before <+: turns → ∀ window,
        (((opened record).run before).handOver window).Balanced) ↔
      ∀ before window, before ++ [.persist window] <+: turns →
        ((opened record).run before).roster.registry.replay window.changes =
          ((opened record).run before).roster.registry) := by
  refine ⟨⟨fun h window hmem => ?_, fun h before window hpart => ?_⟩,
    fun h before window hpart => ?_, fun h before hpart window => ?_⟩
  · obtain ⟨before, after, rfl⟩ := List.append_of_mem hmem
    have hlost := h before window ⟨after, by rw [List.append_assoc]; rfl⟩
    rw [run_concat, (persist_roster _ window).1] at hlost
    exact List.eq_nil_iff_forall_not_mem.2 fun change hchange =>
      List.not_mem_nil (hlost change hchange)
  · rw [h window (hpart.subset (by simp))]
    intro change hchange
    cases hchange
  · -- the empty window is the point right after the persist
    exact (balanced_run_persist_iff record before window).1 (h _ hpart ⟨[], by simp⟩)
  · refine ((anchored_run fun earlier window hearlier => ?_).balanced).handOver window
    exact (balanced_run_persist_iff record earlier window).2
      (h earlier window (hearlier.trans hpart))

/-- A grant to a user that is made while the roster is handed over. -/
def interleaved : List Turn :=
  [.persist ⟨[.change ⟨.set, .user 5, .view⟩], by decide⟩]

/-- A change that is made while the roster is handed over need not be pending afterwards. -/
theorem not_forall_handed_over : ¬ ∀ (record : RosterRecord) (turns : List Turn),
    (∀ before window, before ++ [.persist window] <+: turns → ∀ change ∈ window.changes,
        change ∈ ((opened record).run (before ++ [.persist window])).roster.pending) ∧
      ∀ before, before <+: turns → ∀ window,
        (((opened record).run before).handOver window).Balanced := by
  intro h
  have hpending := (h (.empty 1) interleaved).1 [] _ (List.prefix_refl _) _ List.mem_cons_self
  cases hpending

end Ledger

end AccessRights
