/-
AccessRights/Proofs/Creation.lean

When a policy can be created.

Whether a key or an object is free is decided by the index of the node where that
knows the designator, and by the store where it does not.  An entry that was left
behind would keep a free name from being used, and one that was missing would be
made up for by the store.  Neither makes a difference at a site that a node and its
store get into.  The index leads only to policies that are stored, with the
designators they are stored with, so it never says anything else than the store.

What is asked of the store alone is then the whole condition: the designators are
those of no stored policy, and the parent is stored.  A designator that was freed by
a removal satisfies it as a new one does.

Main results: `Informed.createPolicy_cases` (what a creation comes to),
`Informed.perform_deletePolicy` (a removal) and `Reached.creates_releases`.
-/
import AccessRights.Proofs.Persistence
import AccessRights.Proofs.Renewal

namespace AccessRights

/-! ### Drafts -/

/-- The designators of a proper policy are accepted again, for a policy without a parent. -/
theorem Policy.Proper.exists_draft {policy : Policy} (h : policy.Proper) (now : Timestamp)
    (ownerId : UInt64) :
    ∃ draft, Policy.draft now policy.key ownerId 0 policy.object .empty = .ok draft := by
  have hkey : policy.key.filter (· != "") = policy.key := by
    cases hnamed : policy.key with
    | none => rfl
    | some key => exact Option.filter_some_pos (by simpa using h.key key hnamed)
  have hflags : ¬ (PolicyFlags.empty.contains .inherit = true ∧
      PolicyFlags.empty.contains .extend = true) := by decide
  refine ⟨_, Policy.draft_eq_ok_iff.2 ⟨rfl, Policy.validate_eq_ok_iff.2 ⟨hflags,
    fun hflagged => absurd rfl hflagged, fun hparented => absurd rfl hparented,
    fun object hobject => h.isDesignator hobject, ?_⟩⟩⟩
  rw [hkey]
  exact h.isDesignated

/-! ### Tables that have a place for a policy -/

namespace PolicyTables

variable {tables : PolicyTables}

/-- Nothing is found by a key that no stored policy has. -/
theorem Sound.byKey?_eq_none_iff (h : tables.Sound) {key : String} :
    tables.byKey? key = none ↔
      ∀ {id : UInt64} {stored : Policy}, tables.byId? id = some stored → stored.key ≠ some key := by
  rw [Option.eq_none_iff_forall_ne_some]
  refine ⟨fun hnone id stored hstored hshared => ?_, fun hnone stored hfound => ?_⟩
  · exact hnone stored (h.byKey?_eq_some_iff.2 ⟨id, hstored, hshared⟩)
  · obtain ⟨id, hstored, hshared⟩ := h.byKey?_eq_some_iff.1 hfound
    exact hnone hstored hshared

theorem Sound.byObject?_eq_none_iff (h : tables.Sound) {object : PolicyObject} :
    tables.byObject? object = none ↔
      ∀ {id : UInt64} {stored : Policy}, tables.byId? id = some stored →
        stored.object ≠ some object := by
  rw [Option.eq_none_iff_forall_ne_some]
  refine ⟨fun hnone id stored hstored hshared => ?_, fun hnone stored hfound => ?_⟩
  · exact hnone stored (h.byObject?_eq_some_iff.2 ⟨id, hstored, hshared⟩)
  · obtain ⟨id, hstored, hshared⟩ := h.byObject?_eq_some_iff.1 hfound
    exact hnone hstored hshared

/-- No stored policy has the designators, and the parent is stored.  An empty key is none. -/
structure HasPlace (tables : PolicyTables) (key : Option String) (object : Option PolicyObject)
    (parentId : UInt64) : Prop where
  key {value : String} : key = some value → value ≠ "" →
    ∀ {id : UInt64} {stored : Policy}, tables.byId? id = some stored → stored.key ≠ some value
  object {value : PolicyObject} : object = some value →
    ∀ {id : UInt64} {stored : Policy}, tables.byId? id = some stored → stored.object ≠ some value
  parent : parentId = 0 ∨ ∃ parent, tables.byId? parentId = some parent

/-- Checks that nothing is found by a designator. -/
def checkUnused {Designator : Type} (find : Designator → Option Policy)
    (refusal : Designator → AccessError) (designator : Designator) : Except AccessError Unit :=
  if (find designator).isSome then .error (refusal designator) else .ok ()

theorem elim_checkUnused_eq_ok_iff {Designator : Type} {find : Designator → Option Policy}
    {refusal : Designator → AccessError} {designator? : Option Designator} :
    designator?.elim (.ok ()) (checkUnused find refusal) = .ok () ↔
      ∀ designator, designator? = some designator → find designator = none := by
  cases designator? with
  | none => simp
  | some designator => cases hfound : find designator <;> simp [checkUnused, hfound]

/-- Checks that a new policy has designators of its own. -/
def checkDesignators (tables : PolicyTables) (draft : Policy) : Except AccessError Unit := do
  draft.key.elim (.ok ()) (checkUnused tables.byKey? .policyKeyTaken)
  draft.object.elim (.ok ())
    (checkUnused tables.byObject? fun object => .policyObjectConflict object.text)

theorem checkDesignators_eq_ok_iff {draft : Policy} : tables.checkDesignators draft = .ok () ↔
    (∀ key, draft.key = some key → tables.byKey? key = none) ∧
      ∀ object, draft.object = some object → tables.byObject? object = none := by
  unfold checkDesignators
  rw [← elim_checkUnused_eq_ok_iff, ← elim_checkUnused_eq_ok_iff]
  cases draft.key.elim (.ok ()) (checkUnused tables.byKey? .policyKeyTaken) with
  | error error => exact iff_of_false nofun fun h => nomatch h.1
  | ok => exact (and_iff_right rfl).symm

/-- A policy with designators of its own conflicts with none. -/
theorem conflict?_of_checkDesignators (hsound : tables.Sound) {draft : Policy}
    (hfree : tables.checkDesignators draft = .ok ()) : tables.conflict? draft = none := by
  obtain ⟨hkey, hobject⟩ := checkDesignators_eq_ok_iff.1 hfree
  refine List.findSome?_eq_none_iff.2 fun other hother => ?_
  obtain ⟨id, hid⟩ := Table.mem_rows.1 hother
  have hkey (key : String) (hown : draft.key = some key) : other.key ≠ some key := fun hshared => by
    cases (hkey key hown).symm.trans (hsound.byKey?_eq_some_iff.2 ⟨id, hid, hshared⟩)
  have hobject (object : PolicyObject) (hown : draft.object = some object) :
      other.object ≠ some object := fun hshared => by
    cases (hobject object hown).symm.trans (hsound.byObject?_eq_some_iff.2 ⟨id, hid, hshared⟩)
  unfold sharedDesignator?
  split
  · rfl
  · cases hdraftKey : draft.key <;> cases hdraftObject : draft.object <;>
      simp_all [sharedDesignator?.sharedObject?]

/-- There is a place for a new policy if its designators are its own and its parent is stored. -/
theorem hasPlace_iff (hsound : tables.Sound) {now : Timestamp} {key : Option String}
    {ownerId parentId : UInt64} {object : Option PolicyObject} {flags : PolicyFlags} {draft : Policy}
    (hdraft : Policy.draft now key ownerId parentId object flags = .ok draft) :
    tables.HasPlace key object parentId ↔ tables.checkDesignators draft = .ok () ∧
      (parentId = 0 ∨ ∃ parent, tables.byId? parentId = some parent) := by
  obtain ⟨rfl, -⟩ := Policy.draft_eq_ok_iff.1 hdraft
  have hown (value : String) :
      key.filter (· != "") = some value ↔ key = some value ∧ value ≠ "" := by
    rw [Option.filter_eq_some_iff, bne_iff_ne]
  rw [checkDesignators_eq_ok_iff]
  refine ⟨fun h => ⟨⟨fun value hvalue => ?_, fun value hvalue => ?_⟩, h.parent⟩,
    fun h => ⟨fun hvalue hfilled => ?_, fun hvalue => ?_, h.2⟩⟩
  · obtain ⟨hkey, hfilled⟩ := (hown value).1 hvalue
    exact hsound.byKey?_eq_none_iff.2 (h.key hkey hfilled)
  · exact hsound.byObject?_eq_none_iff.2 (h.object hvalue)
  · exact hsound.byKey?_eq_none_iff.1 (h.1.1 _ ((hown _).2 ⟨hvalue, hfilled⟩))
  · exact hsound.byObject?_eq_none_iff.1 (h.1.2 _ hvalue)

/-- A policy that was removed leaves its place behind. -/
theorem Sound.hasPlace_of_removed (h : tables.Sound) {id : UInt64} {policy : Policy}
    (hstored : tables.byId? id = some policy) {tables' : PolicyTables}
    (hremoved : ∀ other, tables'.byId? other = if id = other then none else tables.byId? other)
    (parentId : UInt64) : tables'.HasPlace policy.key policy.object parentId ↔
      parentId = 0 ∨ ∃ parent, tables'.byId? parentId = some parent := by
  have hothers {other : UInt64} {rival : Policy} (hrival : tables'.byId? other = some rival) :
      id ≠ other ∧ tables.byId? other = some rival := by
    rw [hremoved] at hrival
    split at hrival
    · cases hrival
    · exact ⟨‹_›, hrival⟩
  refine ⟨HasPlace.parent, fun hparent => ⟨fun hkey _ _ _ hrival hshared => ?_,
    fun hobject _ _ hrival hshared => ?_, hparent⟩⟩
  · obtain ⟨hne, hrival⟩ := hothers hrival
    exact hne (h.key hstored hrival hkey hshared)
  · obtain ⟨hne, hrival⟩ := hothers hrival
    exact hne (h.object hstored hrival hobject hshared)

/-- The draft under the next number. -/
def numbered (tables : PolicyTables) (draft : Policy) : Policy :=
  { draft with id := tables.lastId + 1 }

end PolicyTables

namespace Site

open Call

variable {rules : Rules} {site after : Site}

/-! ### Informed sites -/

/-- What the node knows of policies is what the store has, under the designators that are stored. -/
structure Informed (site : Site) : Prop extends site.Sound, site.Indexed where
  leads : site.node.policies.Leads

theorem Reached.informed (h : site.Reached rules) : site.Informed :=
  { h.sound, h.rooted.toIndexed with leads := h.leads }

/-- Planned faults have no part in what a node knows. -/
theorem Informed.unfailing (h : site.Informed) : site.unfailing.Informed :=
  ⟨h.toSound.unfailing, ⟨h.policy⟩, h.leads⟩

/-! ### Free designators -/

/-- Whether a designator belongs to a stored policy is what the store finds by it, also where the
index answers. -/
theorem Informed.perform_isTaken (h : site.Informed) (hcalm : site.backend.faults = [])
    {indexed : PolicyIndex → Option UInt64} {look : Store → Option Policy} {named : Policy → Prop}
    (hindexed : ∀ {id}, indexed site.node.policies = some id →
      ∃ policy, site.node.policies.policy? id = some policy ∧ named policy)
    (hlook : ∀ {policy}, look site.backend.store = some policy ↔
      ∃ id, site.backend.store.policies.byId? id = some policy ∧ named policy)
    (method : StoreMethod) (context : String) :
    (isTaken 0 indexed context (Backend.find method look)).perform site =
      (.ok (look site.backend.store).isSome, site) := by
  unfold isTaken
  rw [perform_bind, perform_currentNode]
  dsimp only
  cases hlead : indexed site.node.policies with
  | some id =>
    -- known to the index, so stored, and under another number than a new policy has
    obtain ⟨policy, hknown, hnamed⟩ := hindexed hlead
    have hstored := h.policy hknown
    have hid : id ≠ 0 := (h.store.policies.policy hstored).2.1
    rw [hlook.2 ⟨id, hstored, hnamed⟩]
    exact congrArg (fun taken => (Except.ok taken, site)) (bne_iff_ne.2 hid)
  | none =>
    have htaken : (look site.backend.store).any (fun other => other.id != 0) =
        (look site.backend.store).isSome := by
      cases hfound : look site.backend.store with
      | none => rfl
      | some policy =>
        obtain ⟨id, hstored, -⟩ := hlook.1 hfound
        obtain ⟨rfl, hid, -⟩ := h.store.policies.policy hstored
        exact bne_iff_ne.2 hid
    dsimp only
    rw [perform_bind, perform_ask_of_calm (Backend.looks_find method look) _ hcalm]
    exact congrArg (fun taken => (Except.ok taken, site)) htaken

theorem Informed.perform_checkKeyFree (h : site.Informed) (hcalm : site.backend.faults = [])
    (key : String) : (checkKeyFree 0 key).perform site =
      (PolicyTables.checkUnused site.backend.store.policies.byKey? .policyKeyTaken key, site) := by
  have htaken := @Informed.perform_isTaken site h hcalm (·.byKey[key]?)
    (fun store => store.policies.byKey? key) (·.key = some key) h.leads.key
    h.store.policies.byKey?_eq_some_iff
  unfold checkKeyFree PolicyTables.checkUnused
  rw [perform_bind, Backend.policyByKey, htaken]
  dsimp only
  split <;> rfl

theorem Informed.perform_checkObjectFree (h : site.Informed) (hcalm : site.backend.faults = [])
    (object : PolicyObject) : (checkObjectFree 0 object).perform site =
      (PolicyTables.checkUnused site.backend.store.policies.byObject?
        (fun object => .policyObjectConflict object.text) object, site) := by
  have htaken := @Informed.perform_isTaken site h hcalm (·.byObject[object]?)
    (fun store => store.policies.byObject? object) (·.object = some object) h.leads.object
    h.store.policies.byObject?_eq_some_iff
  unfold checkObjectFree PolicyTables.checkUnused
  rw [perform_bind, Backend.policyByObject, htaken]
  dsimp only
  split <;> rfl

/-- Whether the designators of a new policy are free is for the store to say. -/
theorem Informed.perform_checkDesignatorsFree (h : site.Informed)
    (hcalm : site.backend.faults = []) {draft : Policy} (hnew : draft.id = 0) :
    (checkDesignatorsFree draft).perform site =
      (site.backend.store.policies.checkDesignators draft, site) := by
  refine perform_checkDesignatorsFree_of_still (fun key _ => ?_) fun object _ => ?_
  · rw [hnew, h.perform_checkKeyFree hcalm]
  · rw [hnew, h.perform_checkObjectFree hcalm]

/-- A policy is found by its number exactly where it is stored; where it is not, the site stays as it
is. -/
theorem Informed.policyById_cases (h : site.Informed) (hcalm : site.backend.faults = [])
    {id : UInt64} (hid : id ≠ 0) :
    (site.backend.store.policies.byId? id = none ∧
      (policyById id).perform site = (.error (.policyNotFound (toString id)), site)) ∨
    ∃ policy after, site.backend.store.policies.byId? id = some policy ∧ site.Learns after ∧
      (policyById id).perform site = (.ok policy, after) := by
  unfold policyById readPolicy
  rw [if_neg hid, perform_bind, perform_currentNode]
  dsimp only
  cases hknown : site.node.policies.policy? id with
  | some policy => exact .inr ⟨policy, site, h.policy hknown, .refl _, rfl⟩
  | none =>
    dsimp only
    rw [perform_bind, Backend.policyById, perform_ask_of_calm (Backend.looks_find _ _) _ hcalm]
    cases hstored : site.backend.store.policies.byId? id with
    | none => exact .inl ⟨rfl, rfl⟩
    | some policy => exact .inr ⟨policy, _, rfl, .single (.policy hknown hstored), rfl⟩

/-! ### Storing a policy -/

/-- The site with the policy stored under its number, and taken in with a roster on which nobody has
rights. -/
def enrol (site : Site) (policy : Policy) : Site where
  node := { site.node with
    policies := site.node.policies.insert policy
    rosters := site.node.rosters.insert policy.id (.ofRecord (.empty policy.id)) }
  backend := { site.backend with store := { site.backend.store with
    policies := { site.backend.store.policies.put policy (.empty 0) with lastId := policy.id } } }

/-- The site has gained the policy, under the next number and with a roster on which nobody has
rights.  All else is stored as before. -/
structure Created (before : Store) (policy : Policy) (after : Site) : Prop where
  id : policy.id = before.policies.lastId + 1
  /-- As long as there are numbers, nothing has had this one before. -/
  fresh : before.HasRoom 1 → before.policies.lastId < policy.id ∧
    before.policies.byId? policy.id = none ∧ before.policies.roster? policy.id = none
  policies (id : UInt64) : after.backend.store.policies.byId? id =
    if policy.id = id then some policy else before.policies.byId? id
  rosters (id : UInt64) : after.backend.store.policies.roster? id =
    if policy.id = id then some (.empty policy.id) else before.policies.roster? id
  lastId : after.backend.store.policies.lastId = policy.id
  groups : after.backend.store.groups = before.groups
  known : after.node.policies.policy? policy.id = some policy
  live : after.node.rosters[policy.id]? = some (.ofRecord (.empty policy.id))

theorem created_enrol (hsound : site.Sound) {first : Site} (hlearns : site.Learns first)
    (draft : Policy) :
    Created site.backend.store (site.backend.store.policies.numbered draft)
      (first.enrol (site.backend.store.policies.numbered draft)) where
  id := rfl
  -- all numbers that were handed out are below the next one
  fresh hroom := by
    have hlt : site.backend.store.policies.lastId <
        (site.backend.store.policies.numbered draft).id := lt_next hroom.policies
    have hnew := UInt64.not_le.2 hlt
    refine ⟨hlt, Option.eq_none_iff_forall_ne_some.2 fun stored hstored => hnew ?_,
      Option.eq_none_iff_forall_ne_some.2 fun record hrecord => hnew ?_⟩
    · exact (hsound.store.policies.policy hstored).2.2
    · exact (hsound.store.policies.roster hrecord).2
  policies id := by
    rw [← congrArg Store.policies hlearns.still.store]
    exact PolicyTables.policies_put _ _ (.empty 0) _
  rosters id := by
    rw [← congrArg Store.policies hlearns.still.store]
    exact PolicyTables.rosters_put _ _ _ _
  lastId := rfl
  groups := by rw [← congrArg Store.groups hlearns.still.store, enrol]
  known := (PolicyIndex.policy?_insert _ _ _).trans (if_pos rfl)
  live := Std.ExtTreeMap.getElem?_insert_self

/-- A policy with designators of its own is stored under the next number. -/
theorem perform_storeNewPolicy (hsound : site.Sound) (hcalm : site.backend.faults = [])
    {draft policy : Policy} (hfree : site.backend.store.policies.checkDesignators draft = .ok ())
    (hpolicy : site.backend.store.policies.numbered draft = policy) :
    (storeNewPolicy draft).perform site =
      (.ok (policy, .empty policy.id), { site with backend := (site.enrol policy).backend }) := by
  subst hpolicy
  have hconflict := PolicyTables.conflict?_of_checkDesignators hsound.store.policies hfree
  have hcreate : PolicyTables.create draft (.empty 0) site.backend.store.policies =
      .ok ((site.backend.store.policies.numbered draft,
          .empty (site.backend.store.policies.numbered draft).id),
        (site.enrol (site.backend.store.policies.numbered draft)).backend.store.policies) := by
    unfold PolicyTables.create
    rw [hconflict]
    rfl
  unfold storeNewPolicy
  rw [perform_bind, perform_outcome, perform_ask, Backend.run_createPolicy_of_calm hcalm hcreate]
  rfl

variable {now : Timestamp} {key : Option String} {ownerId parentId : UInt64}
  {object : Option PolicyObject} {flags : PolicyFlags}

/-- What the checks come to where the store does not fail: a draft that has its place is given, and
all else is refused and leaves the site as it is. -/
theorem Informed.policyToCreate_cases (h : site.Informed) (hcalm : site.backend.faults = []) :
    (∃ error, (policyToCreate now key ownerId parentId object flags).perform site =
        (.error error, site) ∧
      ∀ draft, Policy.draft now key ownerId parentId object flags = .ok draft →
        ¬ site.backend.store.policies.HasPlace key object parentId) ∨
    ∃ draft after, Policy.draft now key ownerId parentId object flags = .ok draft ∧
      site.backend.store.policies.HasPlace key object parentId ∧ site.Learns after ∧
      site.backend.store.policies.checkDesignators draft = .ok () ∧
      (policyToCreate now key ownerId parentId object flags).perform site = (.ok draft, after) := by
  unfold policyToCreate
  rw [perform_bind, perform_liftExcept]
  cases hdraft : Policy.draft now key ownerId parentId object flags with
  | error error => exact .inl ⟨error, rfl, fun _ hother => nomatch hother⟩
  | ok draft =>
    have hplace := PolicyTables.hasPlace_iff h.store.policies hdraft
    dsimp only
    rw [perform_bind, h.perform_checkDesignatorsFree hcalm (id_of_policyDraft hdraft).1]
    cases hfree : site.backend.store.policies.checkDesignators draft with
    | error error =>
      refine .inl ⟨error, rfl, fun other hother hhas => ?_⟩
      cases hfree.symm.trans (hplace.1 hhas).1
    | ok =>
      dsimp only
      split
      · rename_i hnonzero
        rw [perform_bind]
        obtain ⟨hnone, hrun⟩ | ⟨parent, first, hparent, hlearns, hrun⟩ :=
          h.policyById_cases hcalm hnonzero <;> rw [hrun]
        · refine .inl ⟨_, rfl, fun other hother hhas => ?_⟩
          obtain hroot | ⟨parent, hparent⟩ := hhas.parent
          · exact hnonzero hroot
          · cases hnone.symm.trans hparent
        · exact .inr ⟨draft, first, rfl, hplace.2 ⟨hfree, .inr ⟨parent, hparent⟩⟩, hlearns, hfree,
            rfl⟩
      · rename_i hroot
        exact .inr ⟨draft, site, rfl, hplace.2 ⟨hfree, .inl (Classical.not_not.1 hroot)⟩,
          .refl site, hfree, rfl⟩

/-- A draft whose designators are free is stored, and taken in. -/
theorem perform_storeDraft (hsound : site.Sound) (hcalm : site.backend.faults = []) {draft : Policy}
    (hfree : site.backend.store.policies.checkDesignators draft = .ok ()) {policy : Policy}
    (hpolicy : site.backend.store.policies.numbered draft = policy) :
    (storeDraft draft).perform site = (.ok policy, site.enrol policy) := by
  unfold storeDraft
  rw [perform_bind, perform_storeNewPolicy hsound hcalm hfree hpolicy]
  dsimp only
  rw [if_neg (not_not_intro (by rfl))]
  rfl

/-- What a creation comes to where the store does not fail: a draft that has its place is stored, and
all else is refused and leaves the site as it is. -/
theorem Informed.createPolicy_cases (h : site.Informed) (hcalm : site.backend.faults = []) :
    (∃ error, (createPolicy now key ownerId parentId object flags).perform site =
        (.error error, site) ∧
      ∀ draft, Policy.draft now key ownerId parentId object flags = .ok draft →
        ¬ site.backend.store.policies.HasPlace key object parentId) ∨
    ∃ draft after, Policy.draft now key ownerId parentId object flags = .ok draft ∧
      site.backend.store.policies.HasPlace key object parentId ∧
      Created site.backend.store (site.backend.store.policies.numbered draft) after ∧
      (createPolicy now key ownerId parentId object flags).perform site =
        (.ok (site.backend.store.policies.numbered draft), after) := by
  rw [createPolicy_eq, perform_bind]
  obtain ⟨error, hrun, hplaceless⟩ | ⟨draft, first, hdraft, hplace, hlearns, hfree, hrun⟩ :=
    h.policyToCreate_cases hcalm <;> rw [hrun]
  · exact .inl ⟨error, rfl, hplaceless⟩
  · have hstored := perform_storeDraft (hlearns.sound h.toSound) (hlearns.still.calm hcalm)
      (hlearns.still.store.symm ▸ hfree) (by rw [hlearns.still.store])
    exact .inr ⟨draft, _, hdraft, hplace, created_enrol h.toSound hlearns draft, hstored⟩

/-! ### Removing a policy -/

/-- What is informed stays so, whatever happens. -/
theorem Event.informed {licence : Licence} {n : Nat} (hevent : site.Event licence n after)
    (h : site.Informed) (hroom : site.backend.store.HasRoom n) : after.Informed :=
  { (hevent.sound h.toSound hroom).1, hevent.indexed h.toSound hroom h.toIndexed with
    leads := hevent.leads h.keyed h.leads }

theorem Learns.informed (h : site.Learns after) (hsite : site.Informed) : after.Informed := by
  have hpasses : Site.Passes False 0 site after := h.passes
  exact hpasses.keeps hsite.toSound (Store.hasRoom_zero _)
    (fun hevent _ hroom hsite => hevent.informed hsite hroom) hsite

/-- Where the store does not fail, a stored policy can be removed, and the designators that it had
are those of no stored policy then. -/
theorem Informed.perform_deletePolicy (h : site.Informed) (hcalm : site.backend.faults = [])
    {id : UInt64} {policy : Policy}
    (hstored : site.backend.store.policies.byId? id = some policy) :
    ∃ after, (deletePolicy id).perform site = (.ok (), after) ∧ after.Informed ∧
      after.backend.faults = [] ∧
      ∀ other, after.backend.store.policies.byId? other =
        if id = other then none else site.backend.store.policies.byId? other := by
  obtain ⟨hnone, -⟩ | ⟨found, first, -, hlearns, hrun⟩ :=
    h.policyById_cases hcalm (h.store.policies.policy hstored).2.1
  · cases hnone.symm.trans hstored
  have hdelete : PolicyTables.delete id first.backend.store.policies = .ok ((),
      { first.backend.store.policies with
        policies := first.backend.store.policies.policies.erase id
        rosters := first.backend.store.policies.rosters.erase id }) := by
    unfold PolicyTables.delete
    rw [hlearns.still.store, hstored]
  have hcalm' := hlearns.still.calm hcalm
  -- that the site is informed afterwards follows from the event that the deletion is
  have hevent : first.Event { lags := False, removes := fun _ => True } 0 _ :=
    .policyDeleted hdelete trivial
  refine ⟨_, ?_, hevent.informed (hlearns.informed h) (Store.hasRoom_zero _), hcalm',
    fun other => ?_⟩
  · unfold deletePolicy Backend.deletePolicy
    rw [perform_bind, hrun]
    dsimp only
    rw [perform_bind, perform_ask, Backend.run_onPolicies_of_calm .deletePolicy hcalm' hdelete]
    rfl
  · rw [← hlearns.still.store]
    exact lookup_erase _ _ _

/-! ### Reached sites -/

/-- Where the store does not fail, a policy is created exactly if the arguments are in order and the
stored policies leave it a place.  It is then stored as it was asked for, and otherwise the site stays
as it is. -/
structure Creates (site : Site) : Prop where
  accepted (now : Timestamp) (key : Option String) (ownerId parentId : UInt64)
    (object : Option PolicyObject) (flags : PolicyFlags) :
    (∃ policy, (createPolicy now key ownerId parentId object flags).gives site = .ok policy) ↔
      (∃ draft, Policy.draft now key ownerId parentId object flags = .ok draft) ∧
        site.backend.store.policies.HasPlace key object parentId
  made {now : Timestamp} {key : Option String} {ownerId parentId : UInt64}
    {object : Option PolicyObject} {flags : PolicyFlags} {policy : Policy} {after : Site} :
    (createPolicy now key ownerId parentId object flags).perform site.unfailing = (.ok policy, after) →
      (∃ draft, Policy.draft now key ownerId parentId object flags = .ok draft ∧
        policy = site.backend.store.policies.numbered draft) ∧ Created site.backend.store policy after
  refused {now : Timestamp} {key : Option String} {ownerId parentId : UInt64}
    {object : Option PolicyObject} {flags : PolicyFlags} {error : AccessError} {after : Site} :
    (createPolicy now key ownerId parentId object flags).perform site.unfailing =
      (.error error, after) → after = site.unfailing

theorem Informed.creates (h : site.Informed) : site.Creates where
  accepted now key ownerId parentId object flags := by
    unfold gives
    obtain ⟨error, hrun, hplaceless⟩ | ⟨draft, after, hdraft, hplace, -, hrun⟩ :=
      h.unfailing.createPolicy_cases rfl <;> rw [hrun]
    · exact iff_of_false (fun ⟨_, hdone⟩ => nomatch hdone)
        fun ⟨⟨draft, hdraft⟩, hplace⟩ => hplaceless draft hdraft hplace
    · exact iff_of_true ⟨_, rfl⟩ ⟨⟨draft, hdraft⟩, hplace⟩
  made {now key ownerId parentId object flags policy after} hmade := by
    obtain ⟨error, hrun, -⟩ | ⟨draft, after, hdraft, -, hcreated, hrun⟩ :=
      h.unfailing.createPolicy_cases rfl <;> cases hrun.symm.trans hmade
    exact ⟨⟨draft, hdraft, rfl⟩, hcreated⟩
  refused {now key ownerId parentId object flags error after} hrefused := by
    obtain ⟨error, hrun, -⟩ | ⟨draft, after, -, -, -, hrun⟩ :=
      h.unfailing.createPolicy_cases rfl <;> cases hrun.symm.trans hrefused
    rfl

/-- A designator is taken as long as a stored policy has it, and free once that is removed. -/
structure Releases (site : Site) : Prop where
  key {id : UInt64} {policy other : Policy} {key : String} :
    site.backend.store.policies.byId? id = some policy → policy.key = some key →
      ∀ {now : Timestamp} {ownerId parentId : UInt64} {object : Option PolicyObject}
        {flags : PolicyFlags},
        (createPolicy now (some key) ownerId parentId object flags).gives site ≠ .ok other
  object {id : UInt64} {policy other : Policy} {object : PolicyObject} :
    site.backend.store.policies.byId? id = some policy → policy.object = some object →
      ∀ {now : Timestamp} {key : Option String} {ownerId parentId : UInt64} {flags : PolicyFlags},
        (createPolicy now key ownerId parentId (some object) flags).gives site ≠ .ok other
  removed {id : UInt64} {policy : Policy} :
    site.backend.store.policies.byId? id = some policy →
      ∃ after, (deletePolicy id).perform site.unfailing = (.ok (), after) ∧
        (∀ other, after.backend.store.policies.byId? other =
          if id = other then none else site.backend.store.policies.byId? other) ∧
        after.Creates ∧
        (∀ parentId, after.backend.store.policies.HasPlace policy.key policy.object parentId ↔
          parentId = 0 ∨ ∃ parent, after.backend.store.policies.byId? parentId = some parent) ∧
        ∀ now ownerId, ∃ again,
          (createPolicy now policy.key ownerId 0 policy.object .empty).gives after = .ok again

/-- Whatever was asked of a node that has its store to itself, and whatever the store failed to do
meanwhile, whether a policy can be created is up to what is stored now. -/
theorem Reached.creates_releases (h : site.Reached rules) : site.Creates ∧ site.Releases := by
  have hinformed := h.informed
  have hcreates := hinformed.creates
  refine ⟨hcreates, fun hstored hkey _ _ _ _ _ hdone => ?_,
    fun hstored hobject _ _ _ _ _ hdone => ?_, fun {id policy} hstored => ?_⟩
  · have hplace := ((hcreates.accepted _ _ _ _ _ _).1 ⟨_, hdone⟩).2
    -- the key of a stored policy is never empty
    exact hplace.key rfl ((h.wellFormed.1 hstored).key _ hkey) hstored hkey
  · have hplace := ((hcreates.accepted _ _ _ _ _ _).1 ⟨_, hdone⟩).2
    exact hplace.object rfl hstored hobject
  · obtain ⟨after, hrun, hafter, -, hremoved⟩ := hinformed.unfailing.perform_deletePolicy rfl hstored
    have hplace := h.sound.store.policies.hasPlace_of_removed hstored hremoved
    refine ⟨after, hrun, hremoved, hafter.creates, hplace, fun now ownerId => ?_⟩
    exact (hafter.creates.accepted now policy.key ownerId 0 policy.object .empty).2
      ⟨(h.wellFormed.1 hstored).exists_draft now ownerId, (hplace 0).2 (.inl rfl)⟩

/-- A policy was removed, and another one has its key since, but not its object. -/
def reissued : Site :=
  (live ⟨.blank {}, {}⟩ [
    (default, .createPolicy (some "doc") 1 0 (some ⟨"file", 7⟩) .empty),
    (default, .createPolicy (some "note") 1 1 none .extend),
    (default, .deletePolicy 1),
    (default, .createPolicy (some "doc") 2 0 none .empty)]).2

theorem reached_reissued : reissued.Reached .calm :=
  (Reached.blank {}).live (fun _ _ _ => trivial) ⟨by decide +kernel, by decide +kernel⟩

/-- The key is taken again, the object is free, and the removed policy is no parent any more. -/
theorem creates_reissued : (reissued.Creates ∧ reissued.Releases) ∧
    (createPolicy default (some "doc") 1 0 none .empty).gives reissued =
        .error (.policyKeyTaken "doc") ∧
      ((createPolicy default none 1 3 (some ⟨"file", 7⟩) .inherit).gives reissued).map Policy.id =
          .ok 4 ∧
        (createPolicy default none 1 1 (some ⟨"file", 7⟩) .inherit).gives reissued =
          .error (.policyNotFound "1") :=
  ⟨reached_reissued.creates_releases, by decide +kernel, by decide +kernel, by decide +kernel⟩

end Site

end AccessRights
