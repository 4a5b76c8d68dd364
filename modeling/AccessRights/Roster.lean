/-
AccessRights/Roster.lean

The live rights of one policy.

A roster is a registry with three attachments.  Pending changes have been
applied but not stored yet.  A backup, taken before the first change since
the last commit, allows all of them to be rolled back as one unit.  A table
of calculated answers remembers the cells that were looked up.

Looking up changes the table, so it gives the roster back; what it answers
does not depend on the table as long as every change goes through `change`.
-/
import AccessRights.Roster.Record
import Std.Data.ExtTreeMap

namespace AccessRights

/-- The part of a roster that a rollback brings back. -/
structure RosterBackup where
  registry : Registry
  calculated : Std.ExtTreeMap Actor Rights

/-- The live rights of one policy. -/
structure Roster where
  policyId : UInt64
  registry : Registry
  calculated : Std.ExtTreeMap Actor Rights
  pending : List Change
  backup : Option RosterBackup

namespace Roster

/-! ### Making rosters and reading them -/

/-- The roster of a stored record. -/
def ofRecord (record : RosterRecord) : Roster :=
  { policyId := record.policyId, registry := .ofRecord record, calculated := ∅
    pending := [], backup := none }

/-- The rights of everyone. -/
def everyone (roster : Roster) : Rights :=
  roster.registry.everyone

/-- The cells in the order in which they were first set. -/
def cells (roster : Roster) : List Cell :=
  roster.registry.cells

/-- The record that would be stored now. -/
def record (roster : Roster) : RosterRecord :=
  ⟨roster.policyId, roster.everyone, roster.cells⟩

/-- The record that would be stored now and the changes since the last commit. -/
def update (roster : Roster) : RosterUpdate :=
  ⟨roster.record, roster.pending⟩

/-- Whether changes wait to be stored. -/
def hasPending (roster : Roster) : Bool :=
  !roster.pending.isEmpty

/-- Whether a backup is held. -/
def hasBackup (roster : Roster) : Bool :=
  roster.backup.isSome

/-! ### Looking up -/

/-- The rights of an actor, `none` when it has no cell.  An answer from a cell is
remembered; the absence of a cell is not. -/
def lookup (actor : Actor) (roster : Roster) : Option Rights × Roster :=
  if actor.isEveryone then (some roster.everyone, roster)
  else match roster.calculated[actor]? with
    | some rights => (some rights, roster)
    | none =>
      match findRights? actor roster.cells with
      | some rights =>
        (some rights, { roster with calculated := roster.calculated.insert actor rights })
      | none => (none, roster)

/-- Forgets every calculated answer. -/
def forgetCalculated (roster : Roster) : Roster :=
  { roster with calculated := ∅ }

/-! ### Changing, rolling back and committing -/

/-- Takes a backup unless one is held. -/
def backUp (roster : Roster) : Roster :=
  match roster.backup with
  | some _ => roster
  | none => { roster with backup := some ⟨roster.registry, roster.calculated⟩ }

/-- Applies a change and queues it, with a backup from before the first one. -/
def change (change : Change) (roster : Roster) : Roster :=
  let roster := roster.backUp
  { roster with
    registry := roster.registry.apply change
    calculated := roster.calculated.erase change.actor
    pending := roster.pending ++ [change] }

/-- Goes back to the backup, if one is held, and drops the pending changes. -/
def rollBack (roster : Roster) : Roster :=
  match roster.backup with
  | some backup =>
    { roster with
      registry := backup.registry, calculated := backup.calculated
      pending := [], backup := none }
  | none => { roster with pending := [] }

/-- Settles the pending changes: they are stored now, and the backup is dropped. -/
def commit (roster : Roster) : Roster :=
  { roster with pending := [], backup := none }

end Roster

/-! ### Steps -/

/-- What can be asked of a roster, one at a time. -/
inductive RosterStep where
  | change (change : Change)
  | lookup (actor : Actor)
  | backUp
  | rollBack
  | commit
  | forgetCalculated
  | record
  | update
deriving DecidableEq, Inhabited

/-- What a roster answers to a step. -/
inductive RosterAnswer where
  | done
  | rights (found : Option Rights)
  /-- Whether a backup was taken or restored. -/
  | flag (value : Bool)
  | record (record : RosterRecord)
  | update (update : RosterUpdate)
deriving DecidableEq, Inhabited

/-- Performs a step. -/
def Roster.perform (roster : Roster) : RosterStep → RosterAnswer × Roster
  | .change change => (.done, roster.change change)
  | .lookup actor =>
    let (found, roster) := roster.lookup actor
    (.rights found, roster)
  | .backUp => (.flag !roster.hasBackup, roster.backUp)
  | .rollBack => (.flag roster.hasBackup, roster.rollBack)
  | .commit => (.done, roster.commit)
  | .forgetCalculated => (.done, roster.forgetCalculated)
  | .record => (.record roster.record, roster)
  | .update => (.update roster.update, roster)

end AccessRights
