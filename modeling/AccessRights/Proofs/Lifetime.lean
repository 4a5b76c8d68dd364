/-
AccessRights/Proofs/Lifetime.lean

The life of a live roster.

A live roster comes to life from a stored record.  Whatever requests do to it
afterwards they do in steps: a grant is a change, a refusal a rollback, storing
its policy a commit.  Only learning needs an argument, since what is known of a
resolution is that the roster remembers more answers than before.  Looking up
the actors of these answers, one after the other, comes to the same.

So what holds of every run of steps holds of every live roster, whatever was
asked of the node that holds it.

Main result: `Reachable.lived`.
-/
import AccessRights.Proofs.Batch
import AccessRights.Proofs.Moves

namespace AccessRights

namespace Roster

variable {roster other : Roster}

/-! ### Learning as looking up -/

/-- Rosters that have learned from each other are equal. -/
theorem Within.antisymm (h : roster.Within other) (h' : other.Within roster) : other = roster := by
  have hcalculated : other.calculated = roster.calculated := by
    refine Std.ExtTreeMap.ext_getElem? fun actor => ?_
    cases hfound : roster.calculated[actor]? with
    | some rights => exact h.calculated actor rights hfound
    | none =>
      refine Option.eq_none_iff_forall_ne_some.2 fun rights hother => ?_
      cases hfound.symm.trans (h'.calculated actor rights hother)
  obtain ⟨id, registry, calculated, pending, backup⟩ := other
  obtain ⟨hid, hregistry, hpending, hbackup, -⟩ := h
  dsimp only at *
  rw [hid, hregistry, hcalculated, hpending, hbackup]

/-- Whoever looks up what the other roster remembers learns nothing that the other does not know. -/
theorem Within.lookup (h : roster.Within other) (hconsistent : other.Consistent) {actor : Actor}
    {rights : Rights} (hremembered : other.calculated[actor]? = some rights) :
    (roster.lookup actor).2.Within other ∧
      (roster.lookup actor).2.calculated[actor]? = some rights := by
  obtain ⟨hactor, hcell⟩ := hconsistent.calculated actor rights hremembered
  have hpublic : ¬ actor.isEveryone = true := by rw [hactor]; exact Bool.false_ne_true
  rw [Registry.rightsOf?, if_neg hpublic, h.registry] at hcell
  unfold Roster.lookup
  rw [if_neg hpublic]
  split
  · rename_i found hfound
    exact ⟨h, hfound.trans ((h.calculated actor found hfound).symm.trans hremembered)⟩
  · have hcell : findRights? actor roster.cells = some rights := hcell
    rw [hcell]
    refine ⟨⟨h.policyId, h.registry, h.pending, h.backup, fun asked found hfound => ?_⟩,
      Std.ExtTreeMap.getElem?_insert_self⟩
    obtain ⟨rfl, rfl⟩ | ⟨-, hold⟩ := of_lookup_insert hfound
    · exact hremembered
    · exact h.calculated asked found hold

/-- A roster that remembers less catches up when it is asked for what the other one
remembers. -/
theorem Within.run_lookups (h : roster.Within other) (hconsistent : other.Consistent)
    (actors : List Actor) (hremembered : ∀ actor ∈ actors, actor ∈ other.calculated) :
    (roster.run (actors.map .lookup)).Within other ∧
      ∀ actor ∈ actors, actor ∈ (roster.run (actors.map .lookup)).calculated := by
  induction actors using List.reverseRecOn with
  | nil => exact ⟨h, fun _ hmem => absurd hmem List.not_mem_nil⟩
  | append_singleton actors actor ih =>
    obtain ⟨hwithin, hknown⟩ := ih fun asked hasked => hremembered asked (List.mem_append_left _ hasked)
    have hlast := hremembered actor (List.mem_append_right _ (List.mem_singleton_self actor))
    obtain ⟨hnext, hnew⟩ := hwithin.lookup hconsistent (Std.ExtTreeMap.getElem?_eq_some_getElem hlast)
    rw [List.map_append, List.map_singleton, run_concat]
    refine ⟨hnext, fun asked hasked => ?_⟩
    obtain hbefore | hsame := List.mem_append.1 hasked
    · -- what was remembered before the last look-up is still remembered
      have hkept := (within_lookup (roster.run (actors.map .lookup)) actor).calculated asked _
        (Std.ExtTreeMap.getElem?_eq_some_getElem (hknown asked hbefore))
      exact Std.ExtTreeMap.mem_iff_isSome_getElem?.2 (Option.isSome_of_eq_some hkept)
    · rw [List.mem_singleton.1 hsame]
      exact Std.ExtTreeMap.mem_iff_isSome_getElem?.2 (Option.isSome_of_eq_some hnew)

/-- What a roster has learned it could have learned by looking some actors up. -/
theorem Within.exists_run (h : roster.Within other) (hconsistent : other.Consistent) :
    ∃ actors : List Actor, other = roster.run (actors.map .lookup) := by
  obtain ⟨hwithin, hknown⟩ := h.run_lookups hconsistent other.calculated.keys
    fun actor hactor => Std.ExtTreeMap.mem_keys.1 hactor
  refine ⟨other.calculated.keys, hwithin.antisymm ?_⟩
  refine ⟨hwithin.policyId.symm, hwithin.registry.symm, hwithin.pending.symm, hwithin.backup.symm,
    fun actor rights hfound => ?_⟩
  -- the run remembers an answer for the actor, and it is the one that the other roster has
  have hactor : actor ∈ other.calculated :=
    Std.ExtTreeMap.mem_iff_isSome_getElem?.2 (Option.isSome_of_eq_some hfound)
  have hrun := Std.ExtTreeMap.getElem?_eq_some_getElem (hknown actor (Std.ExtTreeMap.mem_keys.2 hactor))
  rw [hrun, ← hwithin.calculated actor _ hrun, hfound]

/-! ### Rosters that began as a record -/

theorem run_append (roster : Roster) (first rest : List RosterStep) :
    roster.run (first ++ rest) = (roster.run first).run rest :=
  List.foldl_append

/-- The roster is what some steps have made of a record. -/
def Lived (roster : Roster) : Prop :=
  ∃ record steps, roster = (ofRecord record).run steps

theorem lived_ofRecord (record : RosterRecord) : (ofRecord record).Lived :=
  ⟨record, [], rfl⟩

/-- A roster that has lived goes on living. -/
theorem Lived.run (h : roster.Lived) (steps : List RosterStep) : (roster.run steps).Lived := by
  obtain ⟨record, first, rfl⟩ := h
  exact ⟨record, first ++ steps, (run_append _ _ _).symm⟩

theorem Lived.perform (h : roster.Lived) (step : RosterStep) : (roster.perform step).2.Lived :=
  h.run [step]

/-- To remember more of its own cells is to have been asked more. -/
theorem Lived.within (h : roster.Lived) (hwithin : roster.Within other)
    (hconsistent : other.Consistent) : other.Lived := by
  obtain ⟨actors, rfl⟩ := hwithin.exists_run hconsistent
  exact h.run _

end Roster

/-! ### Nodes whose rosters began as records -/

/-- Every live roster of the node is what some steps have made of a record. -/
def Node.Lived (node : Node) : Prop :=
  ∀ (id : UInt64) (roster : Roster), node.rosters[id]? = some roster → roster.Lived

namespace Node

variable {node : Node}

theorem blank_lived (config : Config) : (blank config).Lived :=
  fun id roster hroster => by simp [blank] at hroster

theorem Lived.insert (h : node.Lived) (policyId : UInt64) {roster : Roster} (hroster : roster.Lived) :
    Lived { node with rosters := node.rosters.insert policyId roster } := by
  intro id found hfound
  obtain ⟨-, rfl⟩ | ⟨-, hold⟩ := of_lookup_insert hfound
  · exact hroster
  · exact h id found hold

end Node

namespace Site

variable {licence : Licence} {n : Nat} {site after : Site}

/-- A roster that is learned is a record, and one that learns was asked something. -/
theorem Learn.lived (h : site.Learn after) (hlived : site.node.Lived) : after.node.Lived := by
  cases h with
  | fault | policy | group | cache => exact hlived
  | roster => exact hlived.insert _ (Roster.lived_ofRecord _)
  | answers live within consistent =>
    exact hlived.insert _ ((hlived _ _ live).within within consistent)

/-- What a request does to a live roster it does in steps. -/
theorem Event.lived (h : site.Event licence n after) (hlived : site.node.Lived) :
    after.node.Lived := by
  cases h with
  | learn learn => exact learn.lived hlived
  | policyStored | groupSlippedIn | groupStored | relationDropped | groupDeleted | related
  | unrelated | loaded | linked | regrouped => exact hlived
  | policyUpdated _ _ _ _ live _ _ _ edit =>
    obtain rfl | rfl := edit
    · exact hlived.insert _ ((hlived _ _ live).perform .commit)
    · exact hlived.insert _ ((hlived _ _ live).run [.commit, .forgetCalculated])
  | policyDeleted =>
    intro id roster hroster
    rw [lookup_erase] at hroster
    split at hroster
    · cases hroster
    · exact hlived id roster hroster
  | rosterBackedUp live => exact hlived.insert _ ((hlived _ _ live).perform .backUp)
  | rosterChanged live _ _ edit =>
    obtain rfl | ⟨change, rfl, -⟩ := edit
    · exact hlived.insert _ ((hlived _ _ live).perform .rollBack)
    · exact hlived.insert _ ((hlived _ _ live).perform (.change change))

/-- The roster that is found for a policy is live, or begins as a record. -/
theorem lived_of_roster? (hlived : site.node.Lived) {id : UInt64} {roster : Roster}
    (hroster : site.roster? id = some roster) : roster.Lived := by
  unfold roster? at hroster
  split at hroster
  · cases hroster
  · split at hroster
    · rename_i live hlive
      cases hroster
      exact hlived id _ hlive
    · obtain ⟨record, -, rfl⟩ := Option.map_eq_some_iff.1 hroster
      exact Roster.lived_ofRecord record

end Site

namespace Cluster

variable {cluster : Cluster} {number : Nat} {node : Node}

/-- Every live roster of a node of a reachable cluster is what some steps have made of a record. -/
theorem Reachable.lived (h : cluster.Reachable) (hnode : cluster.nodes[number]? = some node) :
    node.Lived := by
  have hlasting : Lasting (fun _ => True) Node.Lived fun _ => True :=
    { blank := Node.blank_lived
      event := fun hevent _ _ _ hlived => ⟨trivial, hevent.lived hlived⟩
      step := fun _ hlive hlived => hlived.insert _ ((hlived _ _ hlive).perform _) }
  exact (h.throughout trivial hlasting).node hnode

end Cluster

end AccessRights
