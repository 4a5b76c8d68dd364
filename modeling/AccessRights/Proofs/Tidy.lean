/-
AccessRights/Proofs/Tidy.lean

Live rosters are tidy.

A live roster begins as what a stored record unfolds to, which is tidy
whatever the record lists, and from then on it is changed cell by cell.  So no
roster at a reached site ever has two cells for one actor, or a cell for the
public, in its registry or in its backup.

Main results: `Event.tidy` and `Reached.tidy`.
-/
import AccessRights.Proofs.Reached
import AccessRights.Proofs.Registry

namespace AccessRights

namespace Roster

variable {roster other : Roster}

/-! ### Tidy rosters -/

/-- The registry of the roster is tidy, and so is the one it can be rolled back to. -/
structure Tidy (roster : Roster) : Prop where
  registry : roster.registry.Tidy
  backup {backup : RosterBackup} : roster.backup = some backup → backup.registry.Tidy

/-- A record is read so that each actor has one cell. -/
theorem tidy_ofRecord (record : RosterRecord) : (ofRecord record).Tidy :=
  ⟨Registry.tidy_ofRecord record, nofun⟩

/-- The record of a tidy roster unfolds to its registry. -/
theorem Tidy.ofRecord_record (h : roster.Tidy) :
    Registry.ofRecord roster.record = roster.registry :=
  Registry.Tidy.ofRecord_eq h.registry

/-- Learning answers leaves a roster tidy. -/
theorem Tidy.within (h : roster.Tidy) (hwithin : roster.Within other) : other.Tidy :=
  ⟨hwithin.registry ▸ h.registry, fun hbackup => h.backup (hwithin.backup ▸ hbackup)⟩

/-- The backup is as tidy as what it was taken of. -/
theorem Tidy.backUp (h : roster.Tidy) : roster.backUp.Tidy := by
  unfold Roster.backUp
  split
  · exact h
  · refine ⟨h.registry, ?_⟩
    rintro _ ⟨⟩
    exact h.registry

/-- A change edits the cell that is there, if there is one. -/
theorem Tidy.change (h : roster.Tidy) (change : Change) : (roster.change change).Tidy :=
  ⟨h.backUp.registry.apply change, h.backUp.backup⟩

theorem Tidy.rollBack (h : roster.Tidy) : roster.rollBack.Tidy := by
  unfold Roster.rollBack
  split
  · rename_i backup hbackup
    exact ⟨h.backup hbackup, nofun⟩
  · exact ⟨h.registry, h.backup⟩

theorem Tidy.commit (h : roster.Tidy) : roster.commit.Tidy :=
  ⟨h.registry, nofun⟩

theorem Tidy.forgetCalculated (h : roster.Tidy) : roster.forgetCalculated.Tidy :=
  ⟨h.registry, h.backup⟩

/-- Every step leaves a roster tidy. -/
theorem Tidy.perform (h : roster.Tidy) (step : RosterStep) : (roster.perform step).2.Tidy := by
  cases step with
  | change change => exact h.change change
  | lookup actor => exact h.within (roster.within_lookup actor)
  | backUp => exact h.backUp
  | rollBack => exact h.rollBack
  | commit => exact h.commit
  | forgetCalculated => exact h.forgetCalculated
  | record | update => exact h

end Roster

namespace Site

open Call

variable {rules : Rules} {licence : Licence} {n : Nat} {site after : Site}

/-! ### Sites with tidy rosters -/

/-- Every live roster is tidy. -/
structure Tidy (site : Site) : Prop where
  live {id : UInt64} {roster : Roster} : site.node.rosters[id]? = some roster → roster.Tidy

/-- A tidy roster can take any place among tidy ones. -/
theorem Tidy.insert (h : site.Tidy) {policyId : UInt64} {roster : Roster} (hroster : roster.Tidy) :
    Tidy { site with node := { site.node with
      rosters := site.node.rosters.insert policyId roster } } := by
  refine ⟨fun {id found} hfound => ?_⟩
  obtain ⟨-, rfl⟩ | ⟨-, hold⟩ := of_lookup_insert hfound
  · exact hroster
  · exact h.live hold

/-- What is learned is tidy. -/
theorem Learn.tidy (h : site.Learn after) (htidy : site.Tidy) : after.Tidy := by
  cases h with
  | fault | policy | group | cache => exact ⟨htidy.live⟩
  | roster => exact htidy.insert (Roster.tidy_ofRecord _)
  | answers live within => exact htidy.insert ((htidy.live live).within within)

/-- Every event leaves rosters tidy: what takes the place of a live roster is an edit of it. -/
theorem Event.tidy (h : site.Event licence n after) (htidy : site.Tidy) : after.Tidy := by
  cases h with
  | learn learn => exact learn.tidy htidy
  | policyStored | groupSlippedIn | groupStored | relationDropped | groupDeleted | related
  | unrelated | loaded | linked | regrouped => exact ⟨htidy.live⟩
  | policyUpdated _ _ _ _ live _ _ _ edit =>
    obtain rfl | rfl := edit
    · exact ⟨(htidy.insert (htidy.live live).commit).live⟩
    · exact ⟨(htidy.insert (htidy.live live).commit.forgetCalculated).live⟩
  | policyDeleted =>
    refine ⟨fun {id roster} hroster => ?_⟩
    rw [lookup_erase] at hroster
    split at hroster
    · cases hroster
    · exact htidy.live hroster
  | rosterBackedUp live => exact htidy.insert (htidy.live live).backUp
  | rosterChanged live _ _ edit =>
    obtain rfl | ⟨change, rfl, -⟩ := edit
    · exact ⟨(htidy.insert (htidy.live live).rollBack).live⟩
    · exact ⟨(htidy.insert ((htidy.live live).change change)).live⟩

/-- At a reached site every live roster is tidy, whoever has worked on it. -/
theorem Reached.tidy (h : site.Reached rules) : site.Tidy := by
  have hblank (config : Config) (backend : Backend) : Tidy ⟨.blank config, backend⟩ :=
    ⟨fun hroster => by simp [Node.blank] at hroster⟩
  exact h.keeps (fun config => hblank config _) (fun config _ => hblank config _)
    (fun _ htidy => ⟨htidy.live⟩) (fun hevent _ _ htidy => hevent.tidy htidy)
    fun _ _ hlive htidy => htidy.insert ((htidy.live hlive).perform _)

/-- The roster that is found for a policy at a site with tidy rosters has a tidy registry. -/
theorem Tidy.roster? (htidy : site.Tidy) {id : UInt64} {roster : Roster}
    (hroster : site.roster? id = some roster) : roster.registry.Tidy := by
  unfold Site.roster? at hroster
  split at hroster
  · cases hroster
  · split at hroster
    · rename_i live hlive
      cases hroster
      exact (htidy.live hlive).registry
    · obtain ⟨record, -, rfl⟩ := Option.map_eq_some_iff.1 hroster
      exact Registry.tidy_ofRecord record

end Site

end AccessRights
