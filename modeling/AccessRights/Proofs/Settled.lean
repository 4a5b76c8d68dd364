/-
AccessRights/Proofs/Settled.lean

What a node holds and what its store holds.

The policies that a node knows are those that are stored, and a live roster
without its pending changes is the stored one.  Calls keep it so: a policy is
taken in only after it was stored or found stored, and changes of a roster
stay revocable until they are stored.  A call that fails in between leaves the
memory of the node on the side of the store.

A node that has just been opened knows nothing, and is told by the store what
the old one would have answered.

Main results: `Event.settled`, `Reached.settled` and `Reached.persists`.
-/
import AccessRights.Proofs.Batch
import AccessRights.Proofs.PolicyTree
import AccessRights.Proofs.Serving
import AccessRights.Proofs.Tidy

namespace AccessRights

/-! ### Designators lead to policies -/

namespace PolicyIndex

variable {index : PolicyIndex}

/-- A key or an object that the index knows leads to a policy with this key or object. -/
structure Leads (index : PolicyIndex) : Prop where
  key {key : String} {id : UInt64} : index.byKey[key]? = some id →
    ∃ policy, index.policy? id = some policy ∧ policy.key = some key
  object {object : PolicyObject} {id : UInt64} : index.byObject[object]? = some id →
    ∃ policy, index.policy? id = some policy ∧ policy.object = some object

/-- A policy that is taken in may take the place of one with the same designators. -/
theorem Leads.insert (h : index.Leads) {policy : Policy}
    (hsame : ∀ current, index.policy? policy.id = some current →
      policy.key = current.key ∧ policy.object = current.object) : (index.insert policy).Leads := by
  -- what was led to is still there, or the policy is in its place
  have hfound {id : UInt64} {found : Policy} (hfound : index.policy? id = some found) :
      ∃ later, (index.insert policy).policy? id = some later ∧ later.key = found.key ∧
        later.object = found.object := by
    rw [policy?_insert]
    split
    · rename_i heq
      exact ⟨policy, rfl, hsame found (heq ▸ hfound)⟩
    · exact ⟨found, hfound, rfl, rfl⟩
  have hown : (index.insert policy).policy? policy.id = some policy := by
    rw [policy?_insert, if_pos rfl]
  constructor
  · intro key id hkey
    rw [byKey_insert] at hkey
    split at hkey
    · rename_i hpolicy
      cases hkey
      exact ⟨policy, hown, hpolicy⟩
    · obtain ⟨found, hold, hkey⟩ := h.key hkey
      obtain ⟨later, hlater, hsame, -⟩ := hfound hold
      exact ⟨later, hlater, hsame.trans hkey⟩
  · intro object id hobject
    rw [byObject_insert] at hobject
    split at hobject
    · rename_i hpolicy
      cases hobject
      exact ⟨policy, hown, hpolicy⟩
    · obtain ⟨found, hold, hobject⟩ := h.object hobject
      obtain ⟨later, hlater, -, hsame⟩ := hfound hold
      exact ⟨later, hlater, hsame.trans hobject⟩

theorem Leads.remove (h : index.Leads) (id : UInt64) : (index.remove id).Leads := by
  constructor
  · intro key other hkey
    rw [byKey_remove] at hkey
    split at hkey
    · cases hkey
    · rename_i hremoved
      obtain ⟨found, hfound, hown⟩ := h.key hkey
      refine ⟨found, ?_, hown⟩
      rw [policy?_remove, if_neg, hfound]
      rintro rfl
      exact hremoved (by rw [hfound, Option.bind_some, hown])
  · intro object other hobject
    rw [byObject_remove] at hobject
    split at hobject
    · cases hobject
    · rename_i hremoved
      obtain ⟨found, hfound, hown⟩ := h.object hobject
      refine ⟨found, ?_, hown⟩
      rw [policy?_remove, if_neg, hfound]
      rintro rfl
      exact hremoved (by rw [hfound, Option.bind_some, hown])

/-- What a key leads to has this key. -/
theorem Leads.policyOfKey? (h : index.Leads) {key : String} {policy : Policy}
    (hpolicy : index.policyOfKey? key = some policy) :
    ∃ id, index.policy? id = some policy ∧ policy.key = some key := by
  obtain ⟨id, hid, hfound⟩ := Option.bind_eq_some_iff.1 hpolicy
  obtain ⟨found, hfound', hkey⟩ := h.key hid
  cases hfound.symm.trans hfound'
  exact ⟨id, hfound, hkey⟩

theorem Leads.policyOfObject? (h : index.Leads) {object : PolicyObject} {policy : Policy}
    (hpolicy : index.policyOfObject? object = some policy) :
    ∃ id, index.policy? id = some policy ∧ policy.object = some object := by
  obtain ⟨id, hid, hfound⟩ := Option.bind_eq_some_iff.1 hpolicy
  obtain ⟨found, hfound', hobject⟩ := h.object hid
  cases hfound.symm.trans hfound'
  exact ⟨id, hfound, hobject⟩

end PolicyIndex

/-! ### Rosters from stored records -/

namespace Roster

/-- A roster that comes to life from a tidy record has just this record. -/
theorem rollBack_record_ofRecord {record : RosterRecord}
    (h : Registry.Tidy ⟨record.everyone, record.cells⟩) :
    (ofRecord record).rollBack.record = record := by
  rw [rollBack_of_none rfl]
  unfold ofRecord Roster.record everyone cells
  rw [h.ofRecord_eq]

end Roster

namespace Site

open Call

variable {rules : Rules} {licence : Licence} {n : Nat} {site after : Site}

/-! ### Designators at a site -/

theorem Learn.leads (h : site.Learn after) (hkeyed : site.Keyed)
    (hleads : site.node.policies.Leads) : after.node.policies.Leads := by
  cases h with
  | fault | group | roster | answers | cache => exact hleads
  | policy unknown stored =>
    obtain rfl := hkeyed.policy stored
    exact hleads.insert fun current hcurrent => nomatch unknown.symm.trans hcurrent

/-- Every event keeps designators leading to policies: who takes the place of a policy has its
designators, and who is forgotten takes them along. -/
theorem Event.leads (h : site.Event licence n after) (hkeyed : site.Keyed)
    (hleads : site.node.policies.Leads) : after.node.policies.Leads := by
  cases h with
  | learn learn => exact learn.leads hkeyed hleads
  | policyStored | rosterBackedUp | rosterChanged | groupSlippedIn | groupStored | relationDropped
  | groupDeleted | related | unrelated | loaded | linked | regrouped => exact hleads
  | policyUpdated indexed key object =>
    refine hleads.insert fun other hother => ?_
    cases indexed.symm.trans hother
    exact ⟨key, object⟩
  | policyDeleted => exact hleads.remove _

theorem leads_blank (config : Config) : (Node.blank config).policies.Leads :=
  ⟨fun hkey => by simp [Node.blank] at hkey, fun hobject => by simp [Node.blank] at hobject⟩

/-- At every reached site the designators that the node knows lead to policies that have them. -/
theorem Reached.leads (h : site.Reached rules) : site.node.policies.Leads :=
  h.keeps leads_blank (fun config _ => leads_blank config) (fun _ hleads => hleads)
    (fun hevent hsound _ hleads => hevent.leads hsound.keyed hleads) fun _ _ _ hleads => hleads

/-! ### Settled sites -/

/-- Known policies are the stored ones, live rosters without their pending changes are the stored
ones, and all rosters are tidy. -/
structure Settled (site : Site) : Prop extends site.Tidy where
  indexed {id : UInt64} {policy : Policy} : site.node.policies.policy? id = some policy →
    site.backend.store.policies.byId? id = some policy
  leads : site.node.policies.Leads
  persisted {id : UInt64} {roster : Roster} : site.node.rosters[id]? = some roster →
    site.backend.store.policies.roster? id = some roster.rollBack.record
  record {id : UInt64} {record : RosterRecord} :
    site.backend.store.policies.roster? id = some record →
      Registry.Tidy ⟨record.everyone, record.cells⟩

/-- A node that knows nothing agrees with the store. -/
theorem settled_blank (config : Config) {backend : Backend}
    (hrecord : ∀ {id : UInt64} {record : RosterRecord},
      backend.store.policies.roster? id = some record →
        Registry.Tidy ⟨record.everyone, record.cells⟩) : Settled ⟨.blank config, backend⟩ where
  live hroster := by simp [Node.blank] at hroster
  indexed hpolicy := by simp [Node.blank, PolicyIndex.policy?] at hpolicy
  leads := leads_blank config
  persisted hroster := by simp [Node.blank] at hroster
  record := hrecord

/-- A roster takes the place of a live one, or of none, whose stored record it rolls back to. -/
theorem Settled.insert (h : site.Settled) {id : UInt64} {roster : Roster} (htidy : roster.Tidy)
    (hstored : site.backend.store.policies.roster? id = some roster.rollBack.record) :
    Settled { site with node := { site.node with rosters := site.node.rosters.insert id roster } } where
  toTidy := h.toTidy.insert htidy
  indexed := h.indexed
  leads := h.leads
  persisted {other found} hfound := by
    obtain ⟨rfl, rfl⟩ | ⟨-, hold⟩ := of_lookup_insert hfound
    · exact hstored
    · exact h.persisted hold
  record := h.record

/-- So does one that rolls back to the same as the live one. -/
theorem Settled.edit (h : site.Settled) {id : UInt64} {before roster : Roster}
    (hlive : site.node.rosters[id]? = some before) (htidy : before.Tidy → roster.Tidy)
    (hsame : roster.rollBack.record = before.rollBack.record) :
    Settled { site with node := { site.node with rosters := site.node.rosters.insert id roster } } :=
  h.insert (htidy (h.live hlive)) (hsame ▸ h.persisted hlive)

theorem Learn.settled (h : site.Learn after) (hkeyed : site.Keyed) (hsettled : site.Settled) :
    after.Settled := by
  have hindexed := h.indexed hkeyed ⟨hsettled.indexed⟩
  have hleads := h.leads hkeyed hsettled.leads
  cases h with
  | fault | group | cache =>
    exact ⟨⟨hsettled.live⟩, hsettled.indexed, hsettled.leads, hsettled.persisted, hsettled.record⟩
  | @policy id policy unknown stored =>
    exact ⟨⟨hsettled.live⟩, hindexed.policy, hleads, hsettled.persisted, hsettled.record⟩
  | roster unknown stored own =>
    refine hsettled.insert (Roster.tidy_ofRecord _) ?_
    rw [Roster.rollBack_record_ofRecord (hsettled.record stored), stored]
  | answers live within =>
    exact hsettled.edit live (fun htidy => htidy.within within) within.rollBack_record

/-- A policy and its roster are stored, and the roster is final. -/
theorem Settled.update (h : site.Settled) (hkeyed : site.Keyed) {policy : Policy}
    {policies : PolicyTables} {before roster : Roster}
    (hleads : (site.node.policies.insert policy).Leads)
    (updated : PolicyTables.update policy before.update site.backend.store.policies =
      .ok ((), policies))
    (hlive : site.node.rosters[policy.id]? = some before) (htidy : roster.Tidy)
    (hrecord : roster.rollBack.record = before.record) :
    Settled { site with
      node := { site.node with
        policies := site.node.policies.insert policy
        rosters := site.node.rosters.insert policy.id roster }
      backend := { site.backend with store := { site.backend.store with policies } } } := by
  obtain ⟨-, -, rfl⟩ := PolicyTables.update_eq_ok updated
  have hid : before.policyId = policy.id := (hkeyed.roster hlive).1
  -- the record that is stored has the number of the policy already
  have hstored (id : UInt64) : (site.backend.store.policies.put policy before.update.record).rosters[id]? =
      if policy.id = id then some before.record else site.backend.store.policies.rosters[id]? := by
    rw [PolicyTables.rosters_put, ← hid]
    rfl
  refine ⟨⟨(h.toTidy.insert htidy).live⟩, fun hfound => Indexed.put ⟨h.indexed⟩ _ _ hfound, hleads,
    fun {id found} hfound => ?_, fun {id record} hfound => ?_⟩
  · rw [lookup_insert] at hfound
    refine (hstored id).trans ?_
    split at hfound
    · rw [if_pos ‹_›, ← hrecord]
      cases hfound
      rfl
    · rw [if_neg ‹_›]
      exact h.persisted hfound
  · have hfound := (hstored id).symm.trans hfound
    split at hfound
    · cases hfound
      exact (h.live hlive).registry
    · exact h.record hfound

theorem Event.settled (h : site.Event licence n after) (hsound : site.Sound)
    (hroom : site.backend.store.HasRoom n) (hsettled : site.Settled) : after.Settled := by
  have htidy := h.tidy hsettled.toTidy
  have hindexed := h.indexed hsound hroom ⟨hsettled.indexed⟩
  have hleads := h.leads hsound.keyed hsettled.leads
  cases h with
  | learn learn => exact learn.settled hsound.keyed hsettled
  | groupSlippedIn | groupStored | relationDropped | groupDeleted | related | unrelated | loaded
  | linked | regrouped =>
    exact ⟨htidy, hsettled.indexed, hleads, hsettled.persisted, hsettled.record⟩
  | @policyStored policy record stored policies new created bare =>
    obtain ⟨-, hrosters⟩ := hsound.store.policies.create_keeps hroom.policies created
    obtain ⟨stored, storedRecord⟩ := stored
    obtain ⟨-, rfl, rfl, rfl⟩ := PolicyTables.create_eq_ok created
    refine ⟨htidy, hindexed.policy, hleads,
      fun hfound => hrosters _ _ (hsettled.persisted hfound), fun {id record} hfound => ?_⟩
    have hfound := (PolicyTables.rosters_put ..).symm.trans hfound
    split at hfound
    · cases hfound
      rw [bare]
      exact Registry.tidy_nil ∅
    · exact hsettled.record hfound
  | @policyUpdated policy current update policies before roster indexed key object updated live own
      consistent handed edit =>
    subst handed
    -- a committed roster has nothing to be rolled back to but what was just stored
    have hrecord : roster.rollBack.record = before.record := by
      obtain rfl | rfl := edit <;> rfl
    have hroster : roster.Tidy := htidy.live Std.ExtTreeMap.getElem?_insert_self
    have hupdated :=
      hsettled.update hsound.keyed hleads updated live hroster hrecord
    exact ⟨htidy, hupdated.indexed, hupdated.leads, hupdated.persisted, hupdated.record⟩
  | @policyDeleted id policies deleted =>
    obtain ⟨-, rfl⟩ := PolicyTables.delete_eq_ok deleted
    refine ⟨htidy, hindexed.policy, hleads,
      fun {other found} hfound => ?_, fun {other found} hfound => ?_⟩
    · rw [lookup_erase] at hfound
      split at hfound
      · cases hfound
      · exact (lookup_erase ..).trans ((if_neg ‹_›).trans (hsettled.persisted hfound))
    · have hfound := (lookup_erase ..).symm.trans hfound
      split at hfound
      · cases hfound
      · exact hsettled.record hfound
  | rosterBackedUp live =>
    exact hsettled.edit live (·.backUp) (Roster.rollBack_record_backUp _)
  | @rosterChanged id before roster live _ _ edit =>
    have hrecord : roster.rollBack.record = before.rollBack.record := by
      obtain rfl | ⟨change, rfl, -⟩ := edit
      · exact before.rollBack_record_rollBack
      · exact before.rollBack_record_change change
    have hroster : roster.Tidy := htidy.live Std.ExtTreeMap.getElem?_insert_self
    have hedited := hsettled.edit live (fun _ => hroster) hrecord
    exact ⟨htidy, hedited.indexed, hedited.leads, hedited.persisted, hedited.record⟩

/-- At a reached site, nobody having called changes of a roster final that are not stored, the
node agrees with its store. -/
theorem Reached.settled (h : site.Reached rules) (hsteps : ¬ rules.steps .commit) :
    site.Settled := by
  refine h.keeps (fun config => settled_blank config fun hrecord => ?_)
    (fun config hsettled => settled_blank config hsettled.record)
    (fun _ hsettled => ⟨⟨hsettled.live⟩, hsettled.indexed, hsettled.leads, hsettled.persisted,
      hsettled.record⟩)
    (fun hevent hsound hroom hsettled => hevent.settled hsound hroom hsettled)
    fun {site id roster step} htaken _ hlive hsettled => ?_
  · simp [PolicyTables.roster?] at hrecord
  · have hstep : step ≠ .commit := by
      rintro rfl
      exact hsteps htaken
    exact hsettled.edit hlive (·.perform step) (roster.rollBack_record_perform hstep)

end Site

end AccessRights
