/-
AccessRights/Proofs/Reloading.lean

What is lost when a roster is read from a record, and when it is written to one.

A record may list an actor several times and the public as if it were an actor.
Of all this the last mention counts: the cells of the roster are those of the
actors in the order of their first mention, each with the rights it is listed
with last, and everyone has what the public is listed with last.

Whatever is done with a roster afterwards, it lists every actor once and the
public never.  The last mention is then the only one, and so a roster that is
written to the store and read again is the same roster, in the same order.

Main results: `condenses_ofRecord` (reading), `Tidy.reloads` (writing and reading)
and `reloaded_run`.
-/
import AccessRights.Proofs.Handover

namespace AccessRights

/-! ### What a record says last -/

/-- The rights in the last of the cells whose actor is wanted. -/
def lastRights? (wanted : Actor → Bool) (cells : List Cell) : Option Rights :=
  ((cells.filter fun cell => wanted cell.actor).getLast?).map Cell.rights

/-- The last cell decides. -/
theorem lastRights?_concat (wanted : Actor → Bool) (cells : List Cell) (cell : Cell) :
    lastRights? wanted (cells ++ [cell]) =
      if wanted cell.actor then some cell.rights else lastRights? wanted cells := by
  unfold lastRights?
  rw [List.filter_append]
  split
  · rename_i hwanted
    simp [hwanted]
  · rename_i hwanted
    simp [hwanted]

/-- The actors that have cells of their own, in the order in which they are first listed. -/
def listedActors (cells : List Cell) : List Actor :=
  ((cells.map Cell.actor).filter fun actor => !actor.isEveryone).eraseDups

theorem eraseDups_concat (actors : List Actor) (actor : Actor) :
    (actors ++ [actor]).eraseDups =
      if actor ∈ actors then actors.eraseDups else actors.eraseDups ++ [actor] := by
  rw [List.eraseDups_append]
  split
  · rename_i hmem
    simp [List.removeAll, hmem]
  · rename_i hnew
    simp [List.removeAll, hnew, List.eraseDups_cons]

/-- An actor that is listed once more is not listed anew. -/
theorem listedActors_concat (cells : List Cell) (cell : Cell) :
    listedActors (cells ++ [cell]) =
      if cell.actor.isEveryone ∨ cell.actor ∈ listedActors cells then listedActors cells
      else listedActors cells ++ [cell.actor] := by
  unfold listedActors
  rw [List.map_append, List.filter_append]
  cases hactor : cell.actor.isEveryone with
  | true => simp [hactor]
  | false => simp [hactor, eraseDups_concat]

/-! ### Reading a record -/

namespace Registry

variable {registry : Registry} {record : RosterRecord}

/-- The registry has what the record says last of every actor and of the public. -/
structure Condenses (registry : Registry) (record : RosterRecord) : Prop where
  actors : registry.cells.map Cell.actor = listedActors record.cells
  cell {actor : Actor} {rights : Rights} : ⟨actor, rights⟩ ∈ registry.cells ↔
    actor.kind ≠ .everyone ∧ lastRights? (· == actor) record.cells = some rights
  everyone : registry.everyone = (lastRights? Actor.isEveryone record.cells).getD record.everyone

/-- The registry of a record with one more cell is the one without it, changed by that cell. -/
theorem ofRecord_concat (policyId : UInt64) (rights : Rights) (cells : List Cell) (cell : Cell) :
    ofRecord ⟨policyId, rights, cells ++ [cell]⟩ =
      (ofRecord ⟨policyId, rights, cells⟩).apply ⟨.set, cell.actor, cell.rights⟩ := by
  unfold ofRecord
  rw [List.map_append, replay_append]
  rfl

theorem everyone_apply_set (registry : Registry) (actor : Actor) (rights : Rights) :
    (registry.apply ⟨.set, actor, rights⟩).everyone =
      if actor.isEveryone then rights else registry.everyone := by
  unfold apply
  cases actor.isEveryone <;> rfl

/-- Whoever is set for the first time comes last. -/
theorem actors_apply_set (registry : Registry) (actor : Actor) (rights : Rights) :
    (registry.apply ⟨.set, actor, rights⟩).cells.map Cell.actor =
      if actor.isEveryone ∨ actor ∈ registry.cells.map Cell.actor then
        registry.cells.map Cell.actor
      else registry.cells.map Cell.actor ++ [actor] := by
  unfold apply
  cases actor.isEveryone with
  | true => rfl
  | false =>
    dsimp only
    rw [actors_setCell]
    simp only [Bool.false_eq_true, false_or]

/-- Of several cells of an actor in a record the last one counts. -/
theorem rightsOf?_ofRecord (policyId : UInt64) (rights : Rights) (cells : List Cell)
    {actor : Actor} (hactor : actor.isEveryone = false) :
    (ofRecord ⟨policyId, rights, cells⟩).rightsOf? actor = lastRights? (· == actor) cells := by
  induction cells using List.reverseRecOn with
  | nil => simp [ofRecord, replay, rightsOf?, hactor, lastRights?]
  | append_singleton cells cell ih =>
    rw [ofRecord_concat, lastRights?_concat, ← ih]
    split
    · rename_i hsame
      rw [beq_iff_eq.1 hsame]
      exact rightsOf?_apply_set
    · rename_i hne
      refine rightsOf?_apply_of_ne (fun heq => hne (beq_iff_eq.2 heq)) fun hpublic => ?_
      rw [hactor] at hpublic
      cases hpublic.2

/-- Reading a record keeps what it says last and nothing else. -/
theorem condenses_ofRecord (record : RosterRecord) : (ofRecord record).Condenses record := by
  obtain ⟨policyId, rights, cells⟩ := record
  refine ⟨?_, fun {actor found} => ?_, ?_⟩
  · induction cells using List.reverseRecOn with
    | nil => rfl
    | append_singleton cells cell ih =>
      rw [ofRecord_concat, actors_apply_set, listedActors_concat, ih]
  · have htidy := tidy_ofRecord ⟨policyId, rights, cells⟩
    refine ⟨fun hmem => ?_, fun ⟨hkind, hlast⟩ => ?_⟩
    · have hactor := htidy.closed actor (List.mem_map_of_mem hmem)
      refine ⟨beq_eq_false_iff_ne.1 hactor, ?_⟩
      rw [← rightsOf?_ofRecord policyId rights cells hactor, rightsOf?, hactor]
      exact (findRights?_eq_some_iff htidy.nodup).2 hmem
    · have hactor : actor.isEveryone = false := beq_eq_false_iff_ne.2 hkind
      rw [← rightsOf?_ofRecord policyId rights cells hactor, rightsOf?, hactor] at hlast
      exact (findRights?_eq_some_iff htidy.nodup).1 hlast
  · induction cells using List.reverseRecOn with
    | nil => rfl
    | append_singleton cells cell ih =>
      rw [ofRecord_concat, everyone_apply_set, lastRights?_concat, ih]
      split <;> rfl

end Registry

/-! ### Writing a roster and reading it again -/

namespace Roster

variable {roster : Roster}

/-- The roster lists every actor once and the public never, and nothing is lost when it is written
to the store and read again. -/
structure Reloads (roster : Roster) : Prop where
  nodup : (roster.cells.map Cell.actor).Nodup
  closed : ∀ cell ∈ roster.cells, cell.actor.kind ≠ .everyone
  record : (ofRecord roster.record).record = roster.record
  stored {policy : Policy} {tables after : PolicyTables} : policy.id = roster.policyId →
    PolicyTables.update policy roster.update tables = .ok ((), after) →
    ∃ stored, after.roster? roster.policyId = some stored ∧
      (ofRecord stored).record = roster.record ∧ roster.commit.Alike (ofRecord stored)

/-- A tidy roster comes back from its record as it was. -/
theorem Tidy.record_ofRecord (h : roster.Tidy) :
    (ofRecord roster.record).record = roster.record := by
  have hreplay : roster.record.replay [] = roster.record :=
    replay_eq_record_iff.2 ⟨rfl, h.ofRecord_record⟩
  exact hreplay

/-- What is read again looks like the roster once its changes are settled. -/
theorem Tidy.alike_ofRecord (h : roster.Tidy) (hconsistent : roster.Consistent) :
    roster.commit.Alike (ofRecord roster.record) :=
  alike_of_registry hconsistent.commit (consistent_ofRecord roster.record) h.ofRecord_record rfl

/-- So a tidy roster can be reloaded at any time. -/
theorem Tidy.reloads (h : roster.Tidy) (hconsistent : roster.Consistent) : roster.Reloads := by
  refine ⟨h.registry.nodup, fun cell hmem => ?_, h.record_ofRecord, fun hid hupdate => ?_⟩
  · exact beq_eq_false_iff_ne.1 (h.registry.closed _ (List.mem_map_of_mem hmem))
  · obtain ⟨-, -, rfl⟩ := PolicyTables.update_eq_ok hupdate
    refine ⟨roster.record, ?_, h.record_ofRecord, h.alike_ofRecord hconsistent⟩
    unfold PolicyTables.roster?
    -- the store writes the number of the policy into the record, and it is already there
    rw [PolicyTables.rosters_put, if_pos hid, hid]
    rfl

/-- Reading a record keeps what it says last, and whatever is done with the roster afterwards,
writing it to the store and reading it again loses nothing. -/
theorem reloaded_run (record : RosterRecord) (steps : List RosterStep) :
    (ofRecord record).registry.Condenses record ∧ ((ofRecord record).run steps).Reloads :=
  ⟨Registry.condenses_ofRecord record,
    ((tidy_ofRecord record).run steps).reloads ((consistent_ofRecord record).run steps)⟩

example : (ofRecord ⟨7, ∅, [⟨.user 1, .view⟩, ⟨⟨.everyone, 9⟩, .view⟩, ⟨.user 1, .change⟩]⟩).record =
    ⟨7, .view, [⟨.user 1, .change⟩]⟩ := by decide +kernel

end Roster

end AccessRights
