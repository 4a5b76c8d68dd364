/-
AccessRights/Proofs/Transparency.lean

Rosters answer as if they remembered nothing.

The table of a roster is filled by look-ups, emptied by one kind of step,
outdated actor by actor by another, and brought back from a backup by a third.
None of this shows: a plain roster, which has no table and whose backup is a bare
registry, gives the same answer to every step of every run.

The step lemma needs the consistency of the roster only where the table is read.
That is also where the table of a backup comes in, since a rollback makes it the
table that the next look-up reads.

Main results: `Consistent.perform_plain` (a step), `answers_plain` (a run) and
`transparent_run`.
-/
import AccessRights.Proofs.Handover

namespace AccessRights

/-! ### Plain rosters -/

/-- A roster that remembers no answers. -/
structure PlainRoster where
  policyId : UInt64
  registry : Registry
  pending : List Change
  backup : Option Registry
deriving DecidableEq

namespace PlainRoster

/-- The plain roster of a stored record. -/
def ofRecord (record : RosterRecord) : PlainRoster :=
  { policyId := record.policyId, registry := .ofRecord record, pending := [], backup := none }

/-- The record that would be stored now. -/
def record (plain : PlainRoster) : RosterRecord :=
  ⟨plain.policyId, plain.registry.everyone, plain.registry.cells⟩

/-- Performs a step.  Looking up reads the registry, and there is nothing to forget. -/
def perform (plain : PlainRoster) : RosterStep → RosterAnswer × PlainRoster
  | .change change => (.done, { plain with
      registry := plain.registry.apply change
      pending := plain.pending ++ [change]
      backup := some (plain.backup.getD plain.registry) })
  | .lookup actor => (.rights (plain.registry.rightsOf? actor), plain)
  | .backUp => (.flag plain.backup.isNone,
      { plain with backup := some (plain.backup.getD plain.registry) })
  | .rollBack => (.flag plain.backup.isSome, { plain with
      registry := plain.backup.getD plain.registry, pending := [], backup := none })
  | .commit => (.done, { plain with pending := [], backup := none })
  | .forgetCalculated => (.done, plain)
  | .record => (.record plain.record, plain)
  | .update => (.update ⟨plain.record, plain.pending⟩, plain)

/-- What the roster answers to some steps, one after the other. -/
def answers (plain : PlainRoster) : List RosterStep → List RosterAnswer
  | [] => []
  | step :: steps => (plain.perform step).1 :: (plain.perform step).2.answers steps

end PlainRoster

namespace Roster

variable {roster : Roster} {actor : Actor} {rights : Rights}

/-- What the roster answers to some steps, one after the other. -/
def answers (roster : Roster) : List RosterStep → List RosterAnswer
  | [] => []
  | step :: steps => (roster.perform step).1 :: (roster.perform step).2.answers steps

/-- The roster without what it remembers. -/
def plain (roster : Roster) : PlainRoster :=
  { policyId := roster.policyId, registry := roster.registry, pending := roster.pending
    backup := roster.backup.map RosterBackup.registry }

theorem plain_lookup (roster : Roster) (actor : Actor) :
    (roster.lookup actor).2.plain = roster.plain := by
  have hwithin := roster.within_lookup actor
  unfold plain
  rw [hwithin.policyId, hwithin.registry, hwithin.pending, hwithin.backup]

theorem plain_backUp (roster : Roster) : roster.backUp.plain =
    { roster.plain with backup := some (roster.plain.backup.getD roster.plain.registry) } := by
  unfold plain backUp
  split
  · rename_i backup hbackup
    simp [hbackup]
  · rename_i hnone
    simp [hnone]

theorem plain_rollBack (roster : Roster) : roster.rollBack.plain =
    { roster.plain with
      registry := roster.plain.backup.getD roster.plain.registry, pending := [], backup := none } := by
  unfold plain rollBack
  split
  · rename_i backup hbackup
    simp [hbackup]
  · rename_i hnone
    simp [hnone]

/-- A change is the same change without the table. -/
theorem plain_change (roster : Roster) (change : Change) :
    (roster.change change).plain = (roster.plain.perform (.change change)).2 := by
  have hbackup : roster.backUp.backup.map RosterBackup.registry =
      some (roster.plain.backup.getD roster.plain.registry) :=
    congrArg PlainRoster.backup roster.plain_backUp
  unfold PlainRoster.perform
  dsimp only
  rw [← hbackup]
  unfold plain
  rw [policyId_change, registry_change, pending_change]
  rfl

/-- A step on a consistent roster is the same step without the table, and so is the answer. -/
theorem Consistent.perform_plain (h : roster.Consistent) (step : RosterStep) :
    (roster.perform step).1 = (roster.plain.perform step).1 ∧
      (roster.perform step).2.plain = (roster.plain.perform step).2 := by
  cases step with
  | change change => exact ⟨rfl, roster.plain_change change⟩
  | lookup actor =>
    exact ⟨congrArg RosterAnswer.rights (h.lookup_fst actor), roster.plain_lookup actor⟩
  | backUp =>
    refine ⟨congrArg RosterAnswer.flag ?_, roster.plain_backUp⟩
    unfold Roster.hasBackup plain
    cases roster.backup <;> rfl
  | rollBack =>
    refine ⟨congrArg RosterAnswer.flag ?_, roster.plain_rollBack⟩
    unfold Roster.hasBackup plain
    cases roster.backup <;> rfl
  | commit | forgetCalculated | record | update => exact ⟨rfl, rfl⟩

/-- What was remembered makes no difference to what is answered, over any run. -/
theorem Consistent.answers_plain (h : roster.Consistent) (steps : List RosterStep) :
    roster.answers steps = roster.plain.answers steps := by
  induction steps generalizing roster with
  | nil => rfl
  | cons step steps ih =>
    obtain ⟨hanswer, hplain⟩ := h.perform_plain step
    unfold answers PlainRoster.answers
    rw [hanswer, ih (h.perform step), hplain]

/-! ### Transparency -/

/-- The table of calculated answers does not show in what is looked up, and has nothing that the
cells do not have. -/
structure Transparent (roster : Roster) : Prop where
  /-- The public has the rights of everyone, whatever number it carries. -/
  everyone {actor : Actor} : actor.kind = .everyone →
    (roster.lookup actor).1 = some roster.everyone
  cell {actor : Actor} {rights : Rights} : actor.kind ≠ .everyone →
    ((roster.lookup actor).1 = some rights ↔ ⟨actor, rights⟩ ∈ roster.cells)
  noCell {actor : Actor} : actor.kind ≠ .everyone →
    ((roster.lookup actor).1 = none ↔ ∀ rights, ⟨actor, rights⟩ ∉ roster.cells)
  remembered {actor : Actor} {rights : Rights} : roster.calculated[actor]? = some rights →
    actor.kind ≠ .everyone ∧ ⟨actor, rights⟩ ∈ roster.cells

theorem Tidy.rightsOf?_eq_some_iff (h : roster.Tidy) (hactor : actor.isEveryone = false) :
    roster.registry.rightsOf? actor = some rights ↔ ⟨actor, rights⟩ ∈ roster.cells := by
  unfold Registry.rightsOf?
  rw [if_neg (Bool.not_eq_true _ ▸ hactor)]
  exact findRights?_eq_some_iff h.registry.nodup

/-- Agreement with the cells, and one cell an actor, are all it takes. -/
theorem Consistent.transparent (h : roster.Consistent) (htidy : roster.Tidy) :
    roster.Transparent := by
  have hkind {actor : Actor} (hactor : actor.kind ≠ .everyone) : actor.isEveryone = false :=
    beq_eq_false_iff_ne.2 hactor
  refine ⟨fun hactor => ?_, fun hactor => ?_, fun hactor => ?_, fun hfound => ?_⟩
  · rw [h.lookup_fst]
    exact if_pos (beq_iff_eq.2 hactor)
  · rw [h.lookup_fst]
    exact htidy.rightsOf?_eq_some_iff (hkind hactor)
  · rw [h.lookup_fst, Option.eq_none_iff_forall_ne_some]
    exact forall_congr' fun rights => not_congr (htidy.rightsOf?_eq_some_iff (hkind hactor))
  · obtain ⟨hactor, hrights⟩ := h.calculated _ _ hfound
    exact ⟨beq_eq_false_iff_ne.1 hactor, (htidy.rightsOf?_eq_some_iff hactor).1 hrights⟩

/-- Whatever record a roster is started from and whatever is done with it, its table is transparent,
and every answer on the way is that of a roster without a table. -/
theorem transparent_run (record : RosterRecord) (steps : List RosterStep) :
    ((ofRecord record).run steps).Transparent ∧
      (ofRecord record).answers steps = (PlainRoster.ofRecord record).answers steps := by
  have hconsistent := consistent_ofRecord record
  exact ⟨(hconsistent.run steps).transparent ((tidy_ofRecord record).run steps),
    hconsistent.answers_plain steps⟩

end Roster

end AccessRights
