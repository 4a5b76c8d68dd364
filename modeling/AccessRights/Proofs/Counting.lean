/-
AccessRights/Proofs/Counting.lean

Changes are counted, and the rest only adds.

The counter of a node stands for everything that resolved rights depend on.
An event at a node that does not lag behind either raises it, or takes nothing
away from what the node recalls and would find (`Site.Extends`): what had an
answer before has the same answer after.  So rights that were resolved before
can be resolved to something else only where the counter has moved, and a
cache that drops what is not current stays faithful.

Main results: `Passes.counted_or_extends` and `Passes.faithful`.
-/
import AccessRights.Proofs.Event

namespace AccessRights

namespace Site

variable {licence : Licence} {site middle after last : Site} {m n : Nat}

/-- Nothing was counted, and whatever had an answer still has it. -/
structure Extends (site after : Site) : Prop where
  changes : after.node.changes = site.node.changes
  view : site.view.Le after.view
  recalled : site.node.recalled.Le after.node.recalled

theorem Extends.refl (site : Site) : site.Extends site :=
  ⟨rfl, .refl _, .refl _⟩

theorem Extends.trans (h : site.Extends after) (h' : after.Extends last) : site.Extends last where
  changes := h'.changes.trans h.changes
  view := h.view.trans h'.view
  recalled := h.recalled.trans h'.recalled

/-! ### What only the store gets -/

theorem or_eq_some_of_imp {α : Type} {known stored later : Option α} {value : α}
    (h : known.or stored = some value) (himp : stored = some value → later = some value) :
    known.or later = some value := by
  cases known with
  | some known => exact h
  | none =>
    rw [Option.none_or] at h ⊢
    exact himp h

/-- Rows that are added to the store answer what had no answer. -/
theorem view_le_of_store {store : Store} {faults : FaultPlan}
    (hpolicy : ∀ (id : UInt64) (policy : Policy),
      site.backend.store.policies.byId? id = some policy → store.policies.byId? id = some policy)
    (hroster : ∀ (id : UInt64) (record : RosterRecord),
      site.backend.store.policies.roster? id = some record →
        store.policies.roster? id = some record)
    (hgroup : ∀ (id : UInt64) (group : Group),
      site.backend.store.groups.byId? id = some group → store.groups.byId? id = some group) :
    site.view.Le { site with backend := ⟨store, faults⟩ : Site }.view := by
  -- a roster that is found is live, or comes from a record that stays
  have hlive {id : UInt64} {roster : Roster} (h : site.roster? id = some roster) :
      { site with backend := ⟨store, faults⟩ : Site }.roster? id = some roster := by
    unfold roster? at h ⊢
    split at h
    · cases h
    · rename_i hid
      rw [if_neg hid]
      dsimp only
      split at h
      · exact h
      · obtain ⟨record, hrecord, rfl⟩ := Option.map_eq_some_iff.1 h
        obtain ⟨hstored, hown⟩ := Option.filter_eq_some_iff.1 hrecord
        rw [hroster id record hstored, Option.filter_some, if_pos hown, Option.map_some]
  refine ⟨?_, ?_, ?_, ?_, fun _ => rfl⟩
  · intro id policy h
    simp only [view] at h ⊢
    split at h
    · cases h
    · rename_i hid
      rw [if_neg hid]
      exact or_eq_some_of_imp h (hpolicy id policy)
  · intro id rights h
    obtain ⟨roster, hroster, rfl⟩ := Option.map_eq_some_iff.1 h
    exact Option.map_eq_some_iff.2 ⟨roster, hlive hroster, rfl⟩
  · intro id actor cell h
    obtain ⟨roster, hroster, rfl⟩ := Option.map_eq_some_iff.1 h
    exact Option.map_eq_some_iff.2 ⟨roster, hlive hroster, rfl⟩
  · intro id group h
    simp only [view] at h ⊢
    split at h
    · cases h
    · rename_i hid
      rw [if_neg hid]
      exact or_eq_some_of_imp h (hgroup id group)

/-! ### What the node gets without counting -/

/-- To take in a group as it is known changes no answer. -/
theorem extends_insertGroup {id : UInt64} {group : Group} (hid : group.id = id)
    (hknown : site.node.groups.group? id = some group) :
    site.Extends { site with node := { site.node with
      groups := site.node.groups.insert group } } := by
  subst hid
  have hgroup := GroupIndex.group?_insert_known hknown
  have hgroups (actor : Actor) :
      (site.node.groups.insert group).joined actor = site.node.groups.joined actor := by
    unfold GroupIndex.joined
    rw [GroupIndex.groupsOf_insert, funext hgroup]
  refine ⟨rfl, ⟨fun h => h, fun h => h, fun h => h, ?_, ?_⟩,
    ⟨fun h => h, fun h => h, fun h => h, ?_, ?_⟩⟩
  · intro other found h
    simp only [view, hgroup] at h ⊢
    exact h
  · exact fun actor => (hgroups actor).symm
  · intro other found h
    simp only [Node.recalled, hgroup] at h ⊢
    exact h
  · exact fun actor => (hgroups actor).symm

/-- A backup changes nothing that anybody can ask a roster for. -/
theorem extends_backUp {id : UInt64} {roster : Roster}
    (live : site.node.rosters[id]? = some roster) :
    site.Extends { site with node := { site.node with
      rosters := site.node.rosters.insert id roster.backUp } } := by
  have heveryone : roster.backUp.everyone = roster.everyone := by
    rw [Roster.everyone, Roster.registry_backUp, Roster.everyone]
  -- whatever a backup does not change is the same of all rosters
  have hsame {β : Type} (f : Roster → β) (hf : f roster.backUp = f roster) (other : UInt64) :
      (roster? { site with node := { site.node with
          rosters := site.node.rosters.insert id roster.backUp } } other).map f =
        (site.roster? other).map f := by
    rw [roster?_insert]
    split
    · rename_i hid
      obtain ⟨rfl, hid⟩ := hid
      rw [roster?_of_live live, if_neg hid, Option.map_some, Option.map_some, hf]
    · rfl
  refine ⟨rfl, ⟨fun h => h, ?_, ?_, fun h => h, fun _ => rfl⟩, ?_⟩
  · intro other rights h
    exact (hsame _ heveryone other).trans h
  · intro other actor cell h
    exact (hsame _ (by rw [Roster.registry_backUp]) other).trans h
  · apply recalled_le_insert
    intro other hother
    obtain rfl := Option.some.inj (live.symm.trans hother)
    exact ⟨heveryone, fun actor cell hrecall => (roster.recalled?_backUp actor).trans hrecall⟩

/-! ### What is counted -/

/-- An event at a node that does not lag behind is counted, or adds answers only. -/
theorem Event.counted_or_extends (h : site.Event licence n after) (hsound : site.Sound)
    (hroom : site.backend.store.HasRoom n) (hlag : ¬ licence.lags) :
    site.node.changes < after.node.changes ∨ site.Extends after := by
  cases h with
  | policyUpdated | policyDeleted | rosterChanged | groupStored | groupDeleted | related
  | unrelated | loaded => exact .inl (Nat.lt_succ_self _)
  | linked lagging => exact absurd lagging hlag
  | regrouped lagging stored =>
    -- a node that keeps up can only be given the version that it has
    have hknown := Classical.byContradiction fun h => hlag (lagging h)
    exact .inr (extends_insertGroup (hsound.keyed.group stored) hknown)
  | learn learn =>
    refine .inr ⟨learn.still.changes, ?_, learn.recalled_le hsound.keyed⟩
    rw [learn.view_eq hsound.keyed]
    exact .refl _
  | policyStored new created =>
    -- the new row has a number that no row had, and the node does not know it yet
    obtain ⟨hpolicy, hroster⟩ := hsound.store.policies.create_keeps hroom.policies created
    exact .inr ⟨rfl, view_le_of_store hpolicy hroster fun _ _ h => h, .refl _⟩
  | groupSlippedIn new upserted =>
    refine .inr ⟨rfl, view_le_of_store (fun _ _ h => h) (fun _ _ h => h) fun id group h => ?_,
      .refl _⟩
    exact hsound.store.groups.upsert_keeps hroom.groups new upserted h
  | relationDropped =>
    exact .inr ⟨rfl, view_le_of_store (fun _ _ h => h) (fun _ _ h => h) fun _ _ h => h, .refl _⟩
  | rosterBackedUp live => exact .inr (extends_backUp live)

/-- What a request does at a node that does not lag behind is counted, or adds answers
only. -/
theorem Passes.counted_or_extends (h : Passes licence n site after) (hsound : site.Sound)
    (hroom : site.backend.store.HasRoom n) (hlag : ¬ licence.lags) :
    site.node.changes < after.node.changes ∨ site.Extends after := by
  induction h with
  | refl => exact .inr (.refl _)
  | step first rest ih =>
    have hfirst := hroom.mono (Nat.le_add_right _ _)
    obtain hcounted | hextends := first.counted_or_extends hsound hfirst hlag
    · exact .inl (Nat.lt_of_lt_of_le hcounted rest.changes_le)
    · obtain hcounted | hextends' := ih (first.sound hsound hfirst).1 (first.hasRoom hroom)
      · rw [hextends.changes] at hcounted
        exact .inl hcounted
      · exact .inr (hextends.trans hextends')

/-! ### The cache -/

theorem Event.faithful (h : site.Event licence n after) (hsound : site.Sound)
    (hroom : site.backend.store.HasRoom n) (hlag : ¬ licence.lags) (hfaithful : site.node.Faithful) :
    after.node.Faithful := by
  have hcounted := h.counted_or_extends hsound hroom hlag
  -- counting outdates all entries; where nothing is counted more is recalled
  have hkept (hcache : after.node.cache = site.node.cache) : after.node.Faithful := by
    obtain hcounted | hextends := hcounted
    · exact hfaithful.of_lt hcache hcounted
    · exact hfaithful.mono hcache hextends.changes hextends.recalled
  cases h with
  | learn learn => exact learn.faithful hsound.keyed hfaithful
  | linked lagging => exact absurd lagging hlag
  | policyStored | policyUpdated | policyDeleted | rosterBackedUp | rosterChanged
  | groupSlippedIn | groupStored | relationDropped | groupDeleted | related | unrelated
  | loaded | regrouped => exact hkept rfl

/-- The cache of a node that does not lag behind serves only what it recalls. -/
theorem Passes.faithful (h : Passes licence n site after) (hsound : site.Sound)
    (hroom : site.backend.store.HasRoom n) (hlag : ¬ licence.lags) (hfaithful : site.node.Faithful) :
    after.node.Faithful := by
  induction h with
  | refl => exact hfaithful
  | step first _ ih =>
    have hfirst := hroom.mono (Nat.le_add_right _ _)
    exact ih (first.sound hsound hfirst).1 (first.hasRoom hroom)
      (first.faithful hsound hfirst hlag hfaithful)

end Site

end AccessRights
