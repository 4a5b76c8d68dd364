/-
AccessRights/Proofs/Genuine.lean

Rights without a name are never held by anybody.

A request for rights may name any bits, and what is granted is put into the roster
as it was asked for.  Nothing masks the other bits off: the only barrier is that a
grantor has to have what it hands on (`Site.Event.rosterChanged`).  So two facts
support each other.  As long as all rosters hold named rights only, these are all
that resolves from them, through groups, parents and ownership (`View.Genuine.effective`);
and as long as these are all that anybody has, no grant puts others into a roster.

Answers that were cached long ago may decide about a grant, so the cache is part of
the invariant, and so are backups and pending changes, which may come to life again.

Main results: `View.Genuine.effective`, `Event.genuine` and `run_genuine`.
-/
import AccessRights.Proofs.Moves

namespace AccessRights

/-! ### Genuine rights -/

namespace Rights

variable {a b : Rights}

/-- There are only rights with a name. -/
def Genuine (rights : Rights) : Prop :=
  rights ⊆ .full

/-- The empty rights are genuine, for there is no bit that could lack a name. -/
theorem genuine_empty : (∅ : Rights).Genuine :=
  empty_subset full

/-- All rights with a name together are genuine. -/
theorem genuine_full : full.Genuine :=
  subset_iff.2 fun _ => id

/-- Genuine rights stay genuine together. -/
theorem Genuine.union (ha : a.Genuine) (hb : b.Genuine) : (a ∪ b).Genuine :=
  subset_iff.2 fun i hi => (mem_union.1 hi).elim (subset_iff.1 ha i) (subset_iff.1 hb i)

end Rights

/-! ### Records, registries and rosters -/

/-- Everyone and all cells have genuine rights. -/
structure RosterRecord.Genuine (record : RosterRecord) : Prop where
  everyone : record.everyone.Genuine
  cells : ∀ cell ∈ record.cells, cell.rights.Genuine

namespace Registry

variable {registry : Registry}

structure Genuine (registry : Registry) : Prop where
  everyone : registry.everyone.Genuine
  cells : ∀ cell ∈ registry.cells, cell.rights.Genuine

/-- Whoever is asked for has genuine rights in a genuine registry. -/
theorem Genuine.rightsOf? (h : registry.Genuine) {actor : Actor} {rights : Rights}
    (hrights : registry.rightsOf? actor = some rights) : rights.Genuine := by
  unfold Registry.rightsOf? findRights? at hrights
  split at hrights
  · cases hrights
    exact h.everyone
  · obtain ⟨cell, hcell, rfl⟩ := Option.map_eq_some_iff.1 hrights
    exact h.cells cell (List.mem_of_find?_eq_some hcell)

/-- To write genuine rights into a cell keeps all cells genuine, old and new. -/
theorem genuine_setCell {actor : Actor} {rights : Rights} {cells : List Cell}
    (hrights : rights.Genuine) (hcells : ∀ cell ∈ cells, cell.rights.Genuine) :
    ∀ cell ∈ setCell actor rights cells, cell.rights.Genuine := by
  induction cells with
  | nil => simpa [setCell] using hrights
  | cons cell cells ih =>
    obtain ⟨hcell, hcells⟩ := List.forall_mem_cons.1 hcells
    unfold setCell
    split
    · exact List.forall_mem_cons.2 ⟨hrights, hcells⟩
    · exact List.forall_mem_cons.2 ⟨hcell, ih hcells⟩

/-- A change that gives genuine rights keeps a registry genuine. -/
theorem Genuine.apply (h : registry.Genuine) {change : Change} (hchange : change.rights.Genuine) :
    (registry.apply change).Genuine := by
  unfold Registry.apply
  -- set or unset, for everyone or in a cell
  split
  · exact ⟨hchange, h.cells⟩
  · exact ⟨Rights.genuine_empty, h.cells⟩
  · exact ⟨h.everyone, genuine_setCell hchange h.cells⟩
  · exact ⟨h.everyone, fun cell hcell => h.cells cell (List.mem_of_mem_eraseP hcell)⟩

/-- So do several such changes, one after the other. -/
theorem Genuine.replay (h : registry.Genuine) {changes : List Change}
    (hchanges : ∀ change ∈ changes, change.rights.Genuine) : (registry.replay changes).Genuine := by
  induction changes generalizing registry with
  | nil => exact h
  | cons change changes ih =>
    obtain ⟨hchange, hchanges⟩ := List.forall_mem_cons.1 hchanges
    exact ih (h.apply hchange) hchanges

/-- A genuine record is read into a genuine registry. -/
theorem genuine_ofRecord {record : RosterRecord} (h : record.Genuine) :
    (ofRecord record).Genuine := by
  have hstart : Genuine ⟨record.everyone, []⟩ := ⟨h.everyone, by simp⟩
  refine hstart.replay fun change hchange => ?_
  obtain ⟨cell, hcell, rfl⟩ := List.mem_map.1 hchange
  exact h.cells cell hcell

end Registry

namespace Roster

variable {roster other : Roster}

/-- Whatever the roster holds is genuine: its cells, what it remembers of them, the changes that
wait to be stored and the backup. -/
structure Genuine (roster : Roster) : Prop where
  registry : roster.registry.Genuine
  calculated {actor : Actor} {rights : Rights} :
    roster.calculated[actor]? = some rights → rights.Genuine
  pending : ∀ change ∈ roster.pending, change.rights.Genuine
  backup {backup : RosterBackup} : roster.backup = some backup → backup.registry.Genuine ∧
    ∀ (actor : Actor) (rights : Rights), backup.calculated[actor]? = some rights → rights.Genuine

theorem genuine_ofRecord {record : RosterRecord} (h : record.Genuine) :
    (ofRecord record).Genuine where
  registry := Registry.genuine_ofRecord h
  calculated hrights := by simp [ofRecord] at hrights
  pending := by simp [ofRecord]
  backup hbackup := by cases hbackup

/-- What a genuine roster writes down is genuine. -/
theorem Genuine.record (h : roster.Genuine) : roster.record.Genuine :=
  ⟨h.registry.everyone, h.registry.cells⟩

/-- What a roster learns it learns from its cells. -/
theorem Genuine.within (h : roster.Genuine) (hwithin : roster.Within other)
    (hconsistent : other.Consistent) : other.Genuine := by
  have hregistry : other.registry.Genuine := hwithin.registry ▸ h.registry
  refine ⟨hregistry, fun {actor rights} hrights => ?_, hwithin.pending ▸ h.pending,
    fun hbackup => h.backup (hwithin.backup ▸ hbackup)⟩
  exact hregistry.rightsOf? (hconsistent.calculated actor rights hrights).2

/-- A genuine roster recalls genuine rights. -/
theorem Genuine.recalled? (h : roster.Genuine) {actor : Actor} {rights : Rights}
    (hrights : roster.recalled? actor = some (some rights)) : rights.Genuine := by
  unfold Roster.recalled? at hrights
  split at hrights
  · cases hrights
    exact h.registry.everyone
  · split at hrights
    · rename_i hcalculated
      cases hrights
      exact h.calculated hcalculated
    · cases hrights
    · cases hrights

/-- To look somebody up remembers a cell, which is genuine. -/
theorem Genuine.lookup (h : roster.Genuine) (actor : Actor) :
    (roster.lookup actor).2.Genuine := by
  unfold Roster.lookup
  split
  · exact h
  · rename_i hactor
    split
    · exact h
    · split
      · rename_i rights hcell
        -- what is remembered now is the cell of the actor
        have hfound : roster.registry.rightsOf? actor = some rights := (if_neg hactor).trans hcell
        have hrights := h.registry.rightsOf? hfound
        refine { h with calculated := fun {other found} hfound => ?_ }
        obtain ⟨-, rfl⟩ | ⟨-, hold⟩ := of_lookup_insert hfound
        · exact hrights
        · exact h.calculated hold
      · exact h

theorem Genuine.forgetCalculated (h : roster.Genuine) : roster.forgetCalculated.Genuine :=
  { h with calculated := fun hrights => by simp [Roster.forgetCalculated] at hrights }

theorem Genuine.commit (h : roster.Genuine) : roster.commit.Genuine :=
  { h with pending := by simp [Roster.commit], backup := fun hbackup => by cases hbackup }

/-- A backup is taken of what is there, which is genuine. -/
theorem Genuine.backUp (h : roster.Genuine) : roster.backUp.Genuine := by
  unfold Roster.backUp
  split
  · -- there is a backup already, which stays
    exact h
  · refine ⟨h.registry, h.calculated, h.pending, ?_⟩
    rintro _ ⟨⟩
    exact ⟨h.registry, fun _ _ => h.calculated⟩

/-- What comes back from a backup is genuine, as it was when the backup was taken. -/
theorem Genuine.rollBack (h : roster.Genuine) : roster.rollBack.Genuine := by
  unfold Roster.rollBack
  split
  · -- cells and remembered answers are those of the backup again
    rename_i backup hbackup
    obtain ⟨hregistry, hcalculated⟩ := h.backup hbackup
    exact ⟨hregistry, hcalculated _ _, by simp, fun hnone => by cases hnone⟩
  · exact { h with pending := by simp }

/-- A change that gives genuine rights keeps a roster genuine, with the backup it takes
and the change that waits to be stored. -/
theorem Genuine.change (h : roster.Genuine) {change : Change} (hchange : change.rights.Genuine) :
    (roster.change change).Genuine := by
  have hbacked := h.backUp
  -- whoever the change concerns is forgotten, and all others are remembered as before
  refine ⟨hbacked.registry.apply hchange, fun {actor rights} hrights => ?_, ?_, hbacked.backup⟩
  · replace hrights : (roster.backUp.calculated.erase change.actor)[actor]? = some rights := hrights
    rw [lookup_erase] at hrights
    split at hrights
    · cases hrights
    · exact hbacked.calculated hrights
  · intro other hother
    obtain hold | hnew := List.mem_append.1 hother
    · exact hbacked.pending other hold
    · rwa [List.mem_singleton.1 hnew]

end Roster

/-- If the step changes anybody's rights, it gives genuine rights. -/
def RosterStep.Honest : RosterStep → Prop
  | .change edit => edit.rights.Genuine
  | _ => True

/-- Every step on a roster keeps it genuine, provided that changes give genuine rights. -/
theorem Roster.Genuine.perform {roster : Roster} (h : roster.Genuine) {step : RosterStep}
    (hstep : step.Honest) : (roster.perform step).2.Genuine := by
  cases step with
  | change change => exact h.change hstep
  | lookup actor => exact h.lookup actor
  | backUp => exact h.backUp
  | rollBack => exact h.rollBack
  | commit => exact h.commit
  | forgetCalculated => exact h.forgetCalculated
  | record | update => exact h

/-! ### Resolved rights -/

namespace View

variable {view : View}

/-- All rights that the view answers with are genuine. -/
structure Genuine (view : View) : Prop where
  everyone {id : UInt64} {rights : Rights} : view.everyone? id = some rights → rights.Genuine
  cell {id : UInt64} {actor : Actor} {rights : Rights} :
    view.cell? id actor = some (some rights) → rights.Genuine

/-- The nearest cell has genuine rights if all cells have. -/
theorem FirstCell.genuine {cell? : Actor → Option (Option Rights)} {actors : List Actor}
    {found : Option Rights}
    (hcell : ∀ {actor rights}, cell? actor = some (some rights) → rights.Genuine)
    (h : FirstCell cell? actors found) : (found.getD ∅).Genuine := by
  induction h with
  | none => exact Rights.genuine_empty
  | here cell => exact hcell cell
  | later _ _ ih => exact ih

/-- A group has genuine rights, as the nearest cell above it has. -/
theorem Genuine.ofGroup (h : view.Genuine) {policyId groupId : UInt64} {rights : Rights}
    (hrights : view.OfGroup policyId groupId rights) : rights.Genuine := by
  obtain ⟨-, nearest⟩ := hrights
  exact nearest.genuine h.cell

/-- Several groups together have genuine rights. -/
theorem Genuine.ofGroups (h : view.Genuine) {policyId : UInt64} {groupIds : List UInt64}
    {rights : Rights} (hrights : view.OfGroups policyId groupIds rights) : rights.Genuine := by
  induction hrights with
  | nil => exact Rights.genuine_empty
  | cons first _ ih => exact (h.ofGroup first).union ih

/-- An owner has all rights with a name, and nobody else any. -/
theorem genuine_ofOwner (policy : Policy) (userId : UInt64) : (ofOwner policy userId).Genuine := by
  unfold ofOwner
  split
  · exact Rights.genuine_full
  · exact Rights.genuine_empty

/-- What a policy gives by itself is genuine, from whatever it is made up. -/
theorem Genuine.own (h : view.Genuine) {policy : Policy} {actor : Actor} {rights : Rights}
    (hrights : view.Own policy actor rights) : rights.Genuine := by
  cases hrights with
  | everyone _ everyone => exact h.everyone everyone
  | @user _ _ ofCell _ everyone groups cell =>
    have hcell : (ofCell.getD ∅).Genuine := by
      cases ofCell with
      | none => exact Rights.genuine_empty
      | some rights => exact h.cell cell
    -- everyone's rights, those of the groups, those of the user, and ownership
    exact (((h.everyone everyone).union (h.ofGroups groups)).union hcell).union
      (genuine_ofOwner _ _)
  | group _ everyone group => exact (h.everyone everyone).union (h.ofGroup group)

/-- From genuine rights only genuine rights resolve. -/
theorem Genuine.effective (h : view.Genuine) {actor : Actor} {policyId : UInt64} {rights : Rights}
    (hrights : view.Effective actor policyId rights) : rights.Genuine := by
  induction hrights with
  | inherited _ _ _ ih => exact ih
  | extended _ _ _ gives _ ih => exact (h.own gives).union ih
  | alone _ _ _ gives => exact h.own gives

end View

/-! ### Sites and events -/

/-- All stored rosters are genuine. -/
def Store.Genuine (store : Store) : Prop :=
  ∀ ⦃id : UInt64⦄ ⦃record : RosterRecord⦄, store.policies.roster? id = some record → record.Genuine

/-- All live rosters are genuine, and so are all answers in the cache. -/
structure Node.Genuine (node : Node) : Prop where
  roster {id : UInt64} {roster : Roster} : node.rosters[id]? = some roster → roster.Genuine
  cached {cache : RightsCache} {question : RightsQuestion} {entry : CachedRights} :
    node.cache = some cache → cache.entries[question]? = some entry → entry.rights.Genuine

/-- A store stays genuine when a genuine roster is stored with a policy. -/
theorem Store.Genuine.put {store : Store} (h : store.Genuine) (policy : Policy)
    {record : RosterRecord} (hrecord : record.Genuine) :
    Genuine { store with policies := store.policies.put policy record } := by
  intro id found hfound
  replace hfound := (PolicyTables.rosters_put _ _ _ _).symm.trans hfound
  split at hfound
  · cases hfound
    exact ⟨hrecord.everyone, hrecord.cells⟩
  · exact h hfound

namespace Node

variable {node : Node}

/-- A node that has just been started has nothing. -/
theorem genuine_blank (config : Config) : (Node.blank config).Genuine := by
  refine ⟨fun hlive => by simp [blank] at hlive, fun {cache question entry} hcache hentry => ?_⟩
  unfold blank RightsCache.ofConfig? at hcache
  split at hcache
  · cases hcache
    simp [RightsCache.ofCapacity] at hentry
  · cases hcache

/-- A node stays genuine when a genuine roster is put in. -/
theorem Genuine.insert (h : node.Genuine) (id : UInt64) {roster : Roster}
    (hroster : roster.Genuine) :
    Genuine { node with rosters := node.rosters.insert id roster } := by
  refine ⟨fun {other found} hfound => ?_, h.cached⟩
  obtain ⟨-, rfl⟩ | ⟨-, hold⟩ := of_lookup_insert hfound
  · exact hroster
  · exact h.roster hold

/-- A genuine node recalls genuine rights only. -/
theorem Genuine.recalled (h : node.Genuine) : node.recalled.Genuine where
  everyone {id rights} hrights := by
    simp only [Node.recalled] at hrights
    split at hrights
    · cases hrights
    · obtain ⟨roster, hroster, rfl⟩ := Option.map_eq_some_iff.1 hrights
      exact (h.roster hroster).registry.everyone
  cell {id actor rights} hrights := by
    simp only [Node.recalled] at hrights
    split at hrights
    · cases hrights
    · obtain ⟨roster, hroster, hrecall⟩ := Option.bind_eq_some_iff.1 hrights
      exact (h.roster hroster).recalled? hrecall

/-- Nobody has rights other than genuine ones, as far as the node can say. -/
theorem Genuine.holds (h : node.Genuine) {question : RightsQuestion} {rights : Rights}
    (hrights : node.Holds question rights) : rights.Genuine := by
  cases hrights with
  | recalled effective => exact h.recalled.effective effective
  | cached present answered => exact h.cached present answered

end Node

namespace Site

variable {licence : Licence} {n : Nat} {site after : Site}

/-- What is learned from a genuine store is genuine, and so is what is resolved to be
cached. -/
theorem Learn.genuine (h : site.Learn after) (hstore : site.backend.store.Genuine)
    (hnode : site.node.Genuine) : after.node.Genuine := by
  cases h with
  | fault | policy | group => exact ⟨hnode.roster, hnode.cached⟩
  | roster _ stored => exact hnode.insert _ (Roster.genuine_ofRecord (hstore stored))
  | answers live within consistent =>
    exact hnode.insert _ ((hnode.roster live).within within consistent)
  | cache cache _ held =>
    exact ⟨hnode.roster, fun hcache hentry => hnode.holds (held hcache hentry)⟩

/-- Every event keeps all rights genuine: what a grant hands out somebody has. -/
theorem Event.genuine (h : site.Event licence n after) (hstore : site.backend.store.Genuine)
    (hnode : site.node.Genuine) : after.backend.store.Genuine ∧ after.node.Genuine := by
  cases h with
  | learn learn => exact ⟨learn.still.store ▸ hstore, learn.genuine hstore hnode⟩
  | groupSlippedIn | groupStored | relationDropped | groupDeleted | related | unrelated | loaded
  | linked | regrouped => exact ⟨hstore, hnode.roster, hnode.cached⟩
  | @policyStored policy record stored policies _ created bare =>
    obtain ⟨stored, storedRecord⟩ := stored
    obtain ⟨-, rfl, -, rfl⟩ := PolicyTables.create_eq_ok created
    subst bare
    -- a new policy starts with a roster without any cell
    have hempty : (RosterRecord.empty 0).Genuine := ⟨Rights.genuine_empty, by simp [RosterRecord.empty]⟩
    exact ⟨fun id found hfound => hstore.put _ hempty hfound, hnode⟩
  | @policyUpdated policy current update policies before roster _ _ _ updated live _ _ handed edit =>
    obtain ⟨-, -, rfl⟩ := PolicyTables.update_eq_ok updated
    subst handed
    -- the stored roster is the record of the live one
    have hbefore := hnode.roster live
    have hroster : roster.Genuine := by
      obtain rfl | rfl := edit
      · exact hbefore.commit
      · exact hbefore.commit.forgetCalculated
    have hnode' := hnode.insert policy.id hroster
    exact ⟨hstore.put policy hbefore.record, hnode'.roster, hnode'.cached⟩
  | @policyDeleted id policies deleted =>
    obtain ⟨-, rfl⟩ := PolicyTables.delete_eq_ok deleted
    exact ⟨fun id found hfound => hstore (Table.of_lookup_erase hfound),
      fun hlive => hnode.roster (Table.of_lookup_erase hlive), hnode.cached⟩
  | rosterBackedUp live => exact ⟨hstore, hnode.insert _ (hnode.roster live).backUp⟩
  | @rosterChanged id before roster live _ _ edit =>
    have hroster : roster.Genuine := by
      -- rolled back, or changed by somebody who holds what the change gives
      obtain rfl | ⟨change, rfl, grantor, held, hheld, hgiven⟩ := edit
      · exact (hnode.roster live).rollBack
      · exact (hnode.roster live).change (Rights.subset_trans hgiven (hnode.holds hheld))
    have hnode' := hnode.insert id hroster
    exact ⟨hstore, hnode'.roster, hnode'.cached⟩

/-- However much is learned from a genuine store, the node stays genuine. -/
theorem Learns.genuine (h : site.Learns after) (hstore : site.backend.store.Genuine)
    (hnode : site.node.Genuine) : after.node.Genuine := by
  induction h with
  | refl => exact hnode
  | step first _ ih => exact ih (first.still.store ▸ hstore) (first.genuine hstore hnode)

end Site

/-! ### Clusters -/

namespace Cluster

open Site

variable {cluster next : Cluster} {number : Nat} {rights : Rights} {moves : List Move}

/-- That all is genuine lasts through everything that may happen to a cluster. -/
theorem genuine_lasting : Lasting Store.Genuine Node.Genuine RosterStep.Honest where
  blank := Node.genuine_blank
  event h _ _ hstore hnode := h.genuine hstore hnode
  step hstep hlive hnode := hnode.insert _ ((hnode.roster hlive).perform hstep)

/-- A reading call gives genuine rights if no others follow from what a genuine node recalls. -/
theorem Throughout.genuine_of_reads (h : cluster.Throughout Store.Genuine Node.Genuine)
    (hreachable : cluster.Reachable) {call : Call Rights} {post : Rights → Site → Prop}
    (hreads : ∀ {site : Site}, site.Keyed → call.Reads site post)
    (hpost : ∀ {last : Site}, last.node.Genuine → post rights last → rights.Genuine)
    (hgives : cluster.onNode? number call = some (.ok rights, next)) : rights.Genuine := by
  obtain ⟨node, hnode, hresult, -⟩ := onNode?_eq_some_iff.1 hgives
  have hread := hreads (hreachable.site_sound hnode).keyed
  exact hpost (hread.learns.genuine h.store (h.node hnode)) (hread.post rights hresult)

/-- Rights cannot be forged.  Whatever bits are asked for in grants, on however many nodes over one
store that was empty at first, rosters hold no others than those with a name, and no node gives
anybody others, as long as nobody writes them into a live roster past the rules for grants. -/
theorem run_genuine (hroomy : Roomy {} moves)
    (hhonest : ∀ move ∈ moves, move.Steps RosterStep.Honest) :
    (run {} moves).Throughout Store.Genuine Node.Genuine ∧
    ∀ number rights next,
      (∀ policyId actor,
        (run {} moves).onNode? number (effectiveAccess policyId actor) = some (.ok rights, next) →
          rights.Genuine) ∧
      (∀ policyId userId,
        (run {} moves).onNode? number (summarizedUserAccess policyId userId) =
          some (.ok rights, next) → rights.Genuine) ∧
      (∀ policyId groupId,
        (run {} moves).onNode? number (groupAccess policyId groupId) = some (.ok rights, next) →
          rights.Genuine) := by
  have hreachable := Reachable.empty.run_of_roomy hroomy
  have hempty : Store.Genuine {} := fun id record hstored => by
    simp [PolicyTables.roster?] at hstored
  have hstart : Throughout Store.Genuine Node.Genuine {} := ⟨hempty, fun hnode => by simp at hnode⟩
  have hgenuine := hstart.run genuine_lasting .empty hroomy hhonest
  refine ⟨hgenuine, fun number rights next => ⟨?_, ?_, ?_⟩⟩
  · -- an answer may come from the cache, which is genuine as well
    intro policyId actor
    have hreads {site : Site} (hkeyed : site.Keyed) :
        (effectiveAccess policyId actor).Reads site fun rights last =>
          last.node.Holds ⟨policyId, actor.normalize⟩ rights :=
      (reads_effectiveAccess hkeyed policyId actor).mono fun _ _ _ => And.left
    exact hgenuine.genuine_of_reads hreachable hreads fun hnode => hnode.holds
  · intro policyId userId
    refine hgenuine.genuine_of_reads hreachable
      (fun hkeyed => reads_summarizedUserAccess hkeyed policyId userId) ?_
    rintro last hnode ⟨policy, -, hown⟩
    exact hnode.recalled.own hown
  · intro policyId groupId
    exact hgenuine.genuine_of_reads hreachable
      (fun hkeyed => reads_groupAccess hkeyed policyId groupId) fun hnode => hnode.recalled.ofGroup

/-- The owner of a policy lets a user see it and manage its rights, which is stored, and the user
tries to hand out every bit there is. -/
def forgery : List Move :=
  [.launch {}, .answer 0 default (.createPolicy (some "page") 1 0 none .empty),
    .answer 0 default (.grantAccess 1 (.user 1) (.user 5) (.view ∪ .manageAccess)),
    .answer 0 default (.movePolicy 1 0),
    .answer 0 default (.grantAccess 1 (.user 5) (.user 6) ⟨0xFFFFFFFF⟩)]

/-- The grant of every bit is refused, and the rights that were handed on before are
genuine. -/
theorem run_genuine_forgery :
    (∃ record, (run {} forgery).backend.store.policies.roster? 1 = some record ∧
      record.cells = [⟨.user 5, .view ∪ .manageAccess⟩] ∧ record.Genuine) ∧
    ∃ rights next, (run {} forgery).onNode? 0 (effectiveAccess 1 (.user 5)) =
      some (.ok rights, next) ∧ rights = .view ∪ .manageAccess ∧ rights.Genuine := by
  have hroomy : Roomy {} forgery := Reachable.empty.roomy ⟨by decide +kernel, by decide +kernel⟩
  have hhonest : ∀ move ∈ forgery, move.Steps RosterStep.Honest := by
    simp [forgery, Move.Steps]
  obtain ⟨hgenuine, hgiven⟩ := run_genuine hroomy hhonest
  have hcells : ((run {} forgery).backend.store.policies.roster? 1).map RosterRecord.cells =
      some [⟨.user 5, .view ∪ .manageAccess⟩] := by decide +kernel
  have hanswer : ((run {} forgery).onNode? 0 (effectiveAccess 1 (.user 5))).map Prod.fst =
      some (.ok (.view ∪ .manageAccess)) := by decide +kernel
  obtain ⟨record, hstored, hcells⟩ := Option.map_eq_some_iff.1 hcells
  obtain ⟨⟨_, next⟩, hdone, rfl⟩ := Option.map_eq_some_iff.1 hanswer
  exact ⟨⟨record, hstored, hcells, hgenuine.store hstored⟩, _, next, hdone, rfl,
    (hgiven 0 _ next).1 1 (.user 5) hdone⟩

end Cluster

end AccessRights
