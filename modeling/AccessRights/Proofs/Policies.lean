/-
AccessRights/Proofs/Policies.lean

Calls on policies and on the tree of their parent links, as events.

Finding a policy and checking a change only read, so the first stage of each call does
(`reads_…`).  A change is stored together with the roster of the policy, so `persist` is
spelled out: it ends with the roster committed or rolled back, and counts either way.  The
two ways to change a policy differ in their first stage only, and what they come to is
said once (`amendment_ends`).  A new policy gets a number that no node can know yet, so
taking it in is learning.

Main results: `persist_cases`, `PersistEnds.passes` and `amendment_passes`.
-/
import AccessRights.Proofs.Passing

namespace AccessRights

namespace Site

open Call

variable {licence : Licence} {most count : Nat} {site : Site}

/-! ### Finding policies by what they designate -/

/-- A designator that leads nowhere in the index is not one of a policy that is indexed and
stored. -/
theorem unknown_of_policyOfKey? (hsound : site.Sound) {key : String}
    (hunknown : site.node.policies.policyOfKey? key = none) {policy : Policy}
    (hstored : site.backend.store.policies.byKey? key = some policy) :
    site.node.policies.policy? policy.id = none := by
  obtain ⟨⟨id, hid⟩, hkey⟩ := PolicyTables.byKey?_eq_some hstored
  obtain rfl := hsound.keyed.policy hid
  apply Option.eq_none_iff_forall_ne_some.2
  intro known hknown
  obtain ⟨hsame, -, hindexed, -⟩ := hsound.node.designators hknown hid
  rw [PolicyIndex.policyOfKey?, hindexed key (hsame.symm.trans hkey)] at hunknown
  cases hknown.symm.trans hunknown

theorem unknown_of_policyOfObject? (hsound : site.Sound) {object : PolicyObject}
    (hunknown : site.node.policies.policyOfObject? object = none) {policy : Policy}
    (hstored : site.backend.store.policies.byObject? object = some policy) :
    site.node.policies.policy? policy.id = none := by
  obtain ⟨⟨id, hid⟩, hobject⟩ := PolicyTables.byObject?_eq_some hstored
  obtain rfl := hsound.keyed.policy hid
  apply Option.eq_none_iff_forall_ne_some.2
  intro known hknown
  obtain ⟨-, hsame, -, hindexed⟩ := hsound.node.designators hknown hid
  rw [PolicyIndex.policyOfObject?, hindexed object (hsame.symm.trans hobject)] at hunknown
  cases hknown.symm.trans hunknown

theorem reads_policyByKey (hsound : site.Sound) (key : String) :
    (policyByKey key).Reads site fun _ _ => True := by
  have hread := reads_readPolicy (·.policyOfKey? key) hsound.keyed
    (Backend.looks_find .policyByKey fun store => store.policies.byKey? key)
    (fun policy hpolicy => (PolicyTables.byKey?_eq_some hpolicy).1)
    (fun hunknown policy hpolicy => unknown_of_policyOfKey? hsound hunknown hpolicy)
    ("policy '" ++ key ++ "'") key
  exact hread.mono fun _ _ _ _ => trivial

theorem reads_policyByObject (hsound : site.Sound) (object : PolicyObject) :
    (policyByObject object).Reads site fun _ _ => True := by
  have hread := reads_readPolicy (·.policyOfObject? object) hsound.keyed
    (Backend.looks_find .policyByObject fun store => store.policies.byObject? object)
    (fun policy hpolicy => (PolicyTables.byObject?_eq_some hpolicy).1)
    (fun hunknown policy hpolicy => unknown_of_policyOfObject? hsound hunknown hpolicy)
    ("policy for " ++ object.text) object.text
  exact hread.mono fun _ _ _ _ => trivial

/-! ### Conditions on changes -/

theorem reads_checkDesignatorsFree (hkeyed : site.Keyed) (policy : Policy) :
    (checkDesignatorsFree policy).Reads site fun _ _ => True :=
  (composed_checkDesignatorsFree learning_find policy site).reads hkeyed

/-- Where neither check changes the site, the key is checked and then the object. -/
theorem perform_checkDesignatorsFree_of_still {policy : Policy}
    {ofKey : String → Except AccessError Unit} {ofObject : PolicyObject → Except AccessError Unit}
    (hkey : ∀ key, policy.key = some key →
      (checkKeyFree policy.id key).perform site = (ofKey key, site))
    (hobject : ∀ object, policy.object = some object →
      (checkObjectFree policy.id object).perform site = (ofObject object, site)) :
    (checkDesignatorsFree policy).perform site =
      (do policy.key.elim (.ok ()) ofKey; policy.object.elim (.ok ()) ofObject, site) := by
  unfold checkDesignatorsFree
  cases hasKey : policy.key with
  | none =>
    cases hasObject : policy.object with
    | none => rfl
    | some object => exact hobject object hasObject
  | some key =>
    dsimp only
    rw [perform_bind, hkey key hasKey, Option.elim_some]
    cases ofKey key with
    | error error => rfl
    | ok =>
      cases hasObject : policy.object with
      | none => rfl
      | some object => exact hobject object hasObject

/-- What passes the check leads to no parent at last, and not by way of the policy. -/
theorem reads_checkAcyclicFrom (hkeyed : site.Keyed) (policyId : UInt64) (trail : Trail)
    (nextId : UInt64) : (checkAcyclicFrom policyId trail nextId).Reads site fun _ after =>
      ∃ line, after.node.recalled.policyLinks.Line nextId line ∧ policyId ∉ line := by
  induction trail, nextId using checkAcyclicFrom.induct policyId generalizing site with
  | case1 trail =>
    rw [checkAcyclicFrom, if_pos rfl]
    exact reads_pure ⟨[], .root, List.not_mem_nil⟩
  | case2 trail nonzero =>
    rw [checkAcyclicFrom, if_neg nonzero, if_pos rfl]
    exact reads_throw _ _
  | case3 trail nextId nonzero other fresh ih =>
    rw [checkAcyclicFrom, if_neg nonzero, if_neg other, dif_pos fresh]
    apply (reads_policyById hkeyed nextId).bind hkeyed
    rintro next after _ hkeyed' ⟨hnext, _⟩
    refine (ih next hkeyed').mono ?_
    rintro _ last hlearns ⟨line, hline, hclear⟩
    -- the policy is still recalled when those above it have been read
    have hlink := (hlearns.recalled_le hkeyed').policy hnext
    refine ⟨nextId :: line, .step nonzero (Option.map_eq_some_iff.2 ⟨next, hlink, rfl⟩) hline, ?_⟩
    exact List.not_mem_cons_of_ne_of_not_mem (Ne.symm other) hclear
  | case4 trail nextId nonzero other stale =>
    rw [checkAcyclicFrom, if_neg nonzero, if_neg other, dif_neg stale]
    exact reads_throw _ _

theorem reads_checkAcyclic (hkeyed : site.Keyed) (policyId parentId : UInt64) :
    (checkAcyclic policyId parentId).Reads site fun _ after =>
      ∃ line, after.node.recalled.policyLinks.Line parentId line ∧ policyId ∉ line :=
  reads_checkAcyclicFrom hkeyed policyId _ parentId

/-! ### Storing policies -/

theorem id_of_policyDraft {now : Timestamp} {key : Option String} {ownerId parentId : UInt64}
    {object : Option PolicyObject} {flags : PolicyFlags} {policy : Policy}
    (h : Policy.draft now key ownerId parentId object flags = .ok policy) :
    policy.id = 0 ∧ policy.parentId = parentId := by
  rw [(Policy.draft_eq_ok_iff.1 h).1]
  exact ⟨rfl, rfl⟩

/-- A new policy is stored under the next number, or refused after it was looked up who has
its key or its object.  A rival may have stored another policy before. -/
theorem storeNewPolicy_cases (licence : Licence) (hsound : site.Sound)
    (hroom : site.backend.store.HasRoom 2) {policy : Policy} (hnew : policy.id = 0)
    (hplaced : policy.parentId = 0 ∨
      ∃ parent, site.node.recalled.policy? policy.parentId = some parent)
    (hproper : policy.Proper) :
    ∃ k middle, k ≤ 1 ∧ (site.backend.faults = [] → k = 0) ∧ Site.Passes licence k site middle ∧
      middle.node = site.node ∧
      ((∃ error after, middle.Learns after ∧
          (storeNewPolicy policy).perform site = (.error error, after)) ∨
        ∃ stored storedRecord record policies,
          PolicyTables.create policy (.empty 0) middle.backend.store.policies =
            .ok ((stored, storedRecord), policies) ∧
          (record.policyId = stored.id → record = storedRecord) ∧
          (storeNewPolicy policy).perform site = (.ok (stored, record),
            { middle with backend := { middle.backend with store :=
              { middle.backend.store with policies } } })) := by
  obtain ⟨faults, middle, hcalm, hslip, hcases⟩ :=
    ask_cases (Backend.writes_createPolicy policy (.empty 0)) (.store "new policy") site
  obtain ⟨k, hk, hcalm', hmet⟩ := met_passes licence hcalm hslip (by
    rintro ⟨rival, stored, policies, hrival, hparent, hkept, hcreate, rfl⟩
    exact .policyStored (hrival.trans hnew) hcreate rfl (hparent ▸ hplaced) (hkept hproper))
  refine ⟨k, { site with backend := ⟨middle, faults⟩ }, hk, hcalm', hmet, rfl, ?_⟩
  have hkeyed := (hmet.sound hsound (hroom.mono (by omega))).1.keyed
  unfold storeNewPolicy
  rw [perform_bind, perform_outcome]
  dsimp only
  -- after a conflict the designators are checked again, which is reading
  obtain ⟨error, hrun⟩ | ⟨⟨stored, record⟩, store, ⟨storedRecord, policies, hcreate, rfl, hown⟩,
    hrun⟩ := hcases <;> rw [hrun]
  · refine .inl ?_
    dsimp only
    split
    · rename_i heq
      cases heq
    · have hreads := (reads_checkDesignatorsFree hkeyed policy).learns
      rw [perform_bind]
      generalize (checkDesignatorsFree policy).perform _ = run at hreads ⊢
      obtain ⟨failure | _, after⟩ := run
      · exact ⟨failure, after, hreads, rfl⟩
      · exact ⟨_, after, hreads, rfl⟩
    · exact ⟨_, _, .refl _, rfl⟩
  · exact .inr ⟨stored, storedRecord, record, policies, hcreate, hown, rfl⟩

/-- No node can know a policy yet that was just stored: taking it in with its roster is
learning. -/
theorem learns_created {policy stored : Policy} {record storedRecord : RosterRecord}
    {policies : PolicyTables} (hsound : site.Sound) (hroom : site.backend.store.HasRoom 1)
    (hcreate : PolicyTables.create policy record site.backend.store.policies =
      .ok ((stored, storedRecord), policies)) (faults : FaultPlan) :
    Learns ⟨site.node, ⟨{ site.backend.store with policies }, faults⟩⟩
      ⟨{ site.node with
          policies := site.node.policies.insert stored
          rosters := site.node.rosters.insert storedRecord.policyId (.ofRecord storedRecord) },
        ⟨{ site.backend.store with policies }, faults⟩⟩ := by
  obtain ⟨-, rfl, rfl, rfl⟩ := PolicyTables.create_eq_ok hcreate
  -- whatever a node knows has a number that was handed out before
  have hnew : ¬ site.backend.store.policies.lastId + 1 ≤ site.backend.store.policies.lastId :=
    UInt64.not_le.2 (lt_next hroom.policies)
  refine .step (@Learn.policy _ (site.backend.store.policies.lastId + 1) _ ?_ ?_)
    (.single (.roster ?_ ?_ rfl))
  · refine Option.eq_none_iff_forall_ne_some.2 fun known hknown => hnew ?_
    exact (hsound.node.policy hknown).2
  · exact (PolicyTables.policies_put _ _ record _).trans (if_pos rfl)
  · refine Option.eq_none_iff_forall_ne_some.2 fun live hlive => hnew ?_
    exact (hsound.node.roster hlive).2.1
  · exact (PolicyTables.rosters_put _ _ record _).trans (if_pos rfl)

/-- A draft has no number yet, and its parent is known if it is to have one. -/
theorem reads_policyToCreate (hkeyed : site.Keyed) (now : Timestamp) (key : Option String)
    (ownerId parentId : UInt64) (object : Option PolicyObject) (flags : PolicyFlags) :
    (policyToCreate now key ownerId parentId object flags).Reads site fun draft after =>
      draft.id = 0 ∧ draft.Proper ∧ (draft.parentId = 0 ∨
        ∃ parent, after.node.recalled.policy? draft.parentId = some parent) := by
  unfold policyToCreate
  apply (reads_liftExcept _).bind hkeyed
  rintro draft first _ hkeyed' ⟨hdraft, -⟩
  obtain ⟨hnew, hparent⟩ := id_of_policyDraft hdraft
  have hproper := Policy.proper_draft hdraft
  apply (reads_checkDesignatorsFree hkeyed' draft).bind hkeyed'
  intro _ second _ hkeyed' _
  rw [← hparent]
  dsimp only
  split
  · apply (reads_policyById hkeyed' draft.parentId).bind hkeyed'
    rintro parent third _ _ ⟨hfound, _⟩
    exact reads_pure ⟨hnew, hproper, .inr ⟨parent, hfound⟩⟩
  · rename_i hroot
    exact reads_pure ⟨hnew, hproper, .inl (Classical.not_not.1 hroot)⟩

theorem storeDraft_passes (hsound : site.Sound) (hroom : site.backend.store.HasRoom 2)
    {draft : Policy} (hnew : draft.id = 0) (hproper : draft.Proper)
    (hplaced : draft.parentId = 0 ∨
      ∃ parent, site.node.recalled.policy? draft.parentId = some parent) :
    (storeDraft draft).Passes licence 2 1 site := by
  obtain ⟨k, middle, hk, hcalm, hmet, hnode, hcases⟩ :=
    storeNewPolicy_cases licence hsound hroom hnew hplaced hproper
  rw [← hnode] at hplaced
  unfold storeDraft Call.Passes
  rw [perform_bind]
  obtain ⟨error, after, hlearns, hrun⟩ | ⟨stored, storedRecord, record, policies, hcreate, hown,
    hrun⟩ := hcases <;> rw [hrun]
  · exact ⟨k, by omega, fun h => by have := hcalm h; omega, hmet.trans hlearns.passes⟩
  refine ⟨k + 1, by omega, fun h => by have := hcalm h; omega, ?_⟩
  -- even if the record turns out to be of another policy, the row is in the store
  have hstored := hmet.trans (.single (.policyStored hnew hcreate rfl hplaced hproper))
  dsimp only
  split
  · exact hstored
  · rename_i hsame
    obtain rfl := hown (Classical.not_not.1 hsame)
    have hmiddle : middle.backend.store.HasRoom 1 := hmet.hasRoom (hroom.mono (by omega))
    have hlearns := learns_created (hmet.sound hsound (hroom.mono (by omega))).1 hmiddle hcreate
    exact hstored.trans (hlearns middle.backend.faults).passes

theorem createPolicy_passes (hsound : site.Sound) (hroom : site.backend.store.HasRoom 2)
    (now : Timestamp) (key : Option String) (ownerId parentId : UInt64)
    (object : Option PolicyObject) (flags : PolicyFlags) :
    (createPolicy now key ownerId parentId object flags).Passes licence 2 1 site := by
  rw [createPolicy_eq]
  apply (reads_policyToCreate hsound.keyed now key ownerId parentId object flags).bind_passes
    hsound.keyed
  rintro draft after hlearns _ ⟨hnew, hproper, hplaced⟩
  exact storeDraft_passes (hlearns.sound hsound) (hlearns.still.store ▸ hroom) hnew hproper hplaced

/-! ### Storing a policy with its roster -/

/-- What storing a policy with its roster comes to: the pending changes of the roster are
final or rolled back, and either way that is counted. -/
theorem persist_cases (policy : Policy) (roster : Roster) (site : Site) :
    ∃ faults : FaultPlan, (site.backend.faults = [] → faults = []) ∧
      ((∃ error, (persist policy roster).perform site = (.error error,
          { node := { site.node with
              rosters := site.node.rosters.insert roster.policyId roster.rollBack
              changes := site.node.changes + 1 }
            backend := { site.backend with faults } })) ∨
        ∃ policies, PolicyTables.update policy roster.update site.backend.store.policies =
            .ok ((), policies) ∧
          (persist policy roster).perform site = (.ok (),
            { node := { site.node with
                policies := site.node.policies.insert policy
                rosters := site.node.rosters.insert roster.policyId roster.commit
                changes := site.node.changes + 1 }
              backend := ⟨{ site.backend.store with policies }, faults⟩ })) := by
  obtain ⟨faults, hcalm, hcases⟩ := ask_cases_alone
    (Backend.writes_updatePolicy policy roster.update)
    (.store ("policy " ++ toString policy.id)) site
  refine ⟨faults, hcalm, ?_⟩
  unfold persist
  rw [perform_bind, perform_outcome]
  dsimp only
  obtain ⟨error, hrun⟩ | ⟨_, store, ⟨policies, hupdate, rfl⟩, hrun⟩ := hcases <;> rw [hrun]
  · -- rolled back under the number of its policy
    refine .inl ⟨error, ?_⟩
    rw [← roster.policyId_rollBack]
    rfl
  · exact .inr ⟨policies, hupdate, rfl⟩

/-- How a call ends that stores a policy anew with its live roster: it is refused while it still
reads, the store fails and the roster is rolled back, or both are stored and the roster is
committed. -/
inductive PersistEnds (site : Site) (policyId : UInt64) : Except AccessError Policy × Site → Prop
  | refused {error : AccessError} {after : Site} (learns : site.Learns after) :
      PersistEnds site policyId (.error error, after)
  | rolledBack {error : AccessError} {middle : Site} {roster : Roster}
      (learns : site.Learns middle) (live : middle.node.rosters[policyId]? = some roster) :
      PersistEnds site policyId (.error error, { middle with node := { middle.node with
        rosters := middle.node.rosters.insert policyId roster.rollBack
        changes := middle.node.changes + 1 } })
  | stored {policy current : Policy} {middle : Site} {before roster : Roster}
      {policies : PolicyTables} (learns : site.Learns middle) (own : policy.id = policyId)
      (indexed : middle.node.policies.policy? policyId = some current)
      (key : policy.key = current.key) (object : policy.object = current.object)
      (live : middle.node.rosters[policyId]? = some before)
      (updated : PolicyTables.update policy before.update middle.backend.store.policies =
        .ok ((), policies))
      (edit : roster = before.commit ∨ roster = before.commit.forgetCalculated)
      (placed : policy.parentId = current.parentId ∨
        ∃ line, middle.node.recalled.policyLinks.Line policy.parentId line ∧ policyId ∉ line)
      (created : policy.createdAt = current.createdAt) (proper : current.Proper → policy.Proper) :
      PersistEnds site policyId (.ok policy,
        { node := { middle.node with
            policies := middle.node.policies.insert policy
            rosters := middle.node.rosters.insert policyId roster
            changes := middle.node.changes + 1 }
          backend := { middle.backend with store := { middle.backend.store with policies } } })

/-- Learning before makes no difference to how the call ends. -/
theorem PersistEnds.of_learns {after : Site} {policyId : UInt64}
    {result : Except AccessError Policy × Site} (h : after.PersistEnds policyId result)
    (hlearns : site.Learns after) : site.PersistEnds policyId result := by
  cases h with
  | refused learns => exact .refused (hlearns.trans learns)
  | rolledBack learns live => exact .rolledBack (hlearns.trans learns) live
  | stored learns own indexed key object live updated edit placed created proper =>
    exact .stored (hlearns.trans learns) own indexed key object live updated edit placed created
      proper

/-- Reading first makes no difference either. -/
theorem persistEnds_bind {α : Type} {call : Call α} {next : α → Call Policy}
    {mid : α → Site → Prop} {policyId : UInt64} (h : call.Reads site mid) (hkeyed : site.Keyed)
    (hnext : ∀ value after, site.Learns after → after.Keyed → mid value after →
      after.PersistEnds policyId ((next value).perform after)) :
    site.PersistEnds policyId ((call >>= next).perform site) :=
  h.bind_ends _ hkeyed (fun _ _ hlearns => .refused hlearns)
    fun value after hlearns hkeyed' hvalue =>
      (hnext value after hlearns hkeyed' hvalue).of_learns hlearns

theorem PersistEnds.passes {policyId : UInt64} {result : Except AccessError Policy × Site}
    (h : site.PersistEnds policyId result) (hsound : site.Sound)
    (hallowed : licence.stores policyId) : Site.Passes licence 0 site result.2 := by
  cases h with
  | refused learns => exact learns.passes
  | rolledBack learns live =>
    obtain ⟨hown, -, hconsistent⟩ := (learns.sound hsound).node.roster live
    exact learns.passes.trans (.single (.rosterChanged live
      ((Roster.policyId_rollBack _).trans hown) hconsistent.rollBack (.inl rfl)))
  | @stored policy _ _ before _ _ learns own indexed key object live updated edit placed created
      proper =>
    obtain ⟨hown, -, hconsistent⟩ := (learns.sound hsound).node.roster live
    subst own
    obtain rfl | rfl := edit
    · have hcommit : before.commit.policyId = policy.id := hown
      exact learns.passes.trans (.single (.policyUpdated indexed key object updated live hcommit
        hconsistent.commit rfl (.inl rfl) placed hallowed created proper))
    · have hforget : before.commit.forgetCalculated.policyId = policy.id := hown
      exact learns.passes.trans (.single (.policyUpdated indexed key object updated live hforget
        hconsistent.commit.forgetCalculated rfl (.inr rfl) placed hallowed created proper))

/-- The policy is another version of one that is known.  It has the same designators and the same
age, and hangs below the same parent or one that does not hang below it. -/
structure Revises (site : Site) (policy current : Policy) : Prop where
  known : site.node.recalled.policy? policy.id = some current
  key : policy.key = current.key
  object : policy.object = current.object
  placed : policy.parentId = current.parentId ∨
    ∃ line, site.node.recalled.policyLinks.Line policy.parentId line ∧ policy.id ∉ line
  created : policy.createdAt = current.createdAt
  proper : current.Proper → policy.Proper

theorem Revises.of_learns {after : Site} {policy current : Policy} (h : site.Revises policy current)
    (hkeyed : site.Keyed) (hlearns : site.Learns after) : after.Revises policy current := by
  have hle := hlearns.recalled_le hkeyed
  refine { h with known := hle.policy h.known, placed := h.placed.imp_right ?_ }
  rintro ⟨line, hline, hclear⟩
  exact ⟨line, hline.mono (View.policyLinks_mono hle), hclear⟩

/-- A policy that is recalled is indexed. -/
theorem policy_indexed_of_recalled {node : Node} {policyId : UInt64} {policy : Policy}
    (h : node.recalled.policy? policyId = some policy) :
    node.policies.policy? policyId = some policy := by
  have h : (if policyId = 0 then none else node.policies.policy? policyId) = some policy := h
  split at h
  · cases h
  · exact h

/-- Storing another version of a policy with its live roster.  Afterwards the committed roster may
forget its answers. -/
theorem persist_ends (hsound : site.Sound) {policy current : Policy} {roster : Roster}
    (hrevises : site.Revises policy current) (hlive : site.node.rosters[policy.id]? = some roster)
    {last : Call Policy} (hlast : ∀ site : Site, last.perform site = (.ok policy, site) ∨
      last.perform site = (.ok policy, { site with node := { site.node with
        rosters := site.node.rosters.modify policy.id Roster.forgetCalculated } })) :
    site.PersistEnds policy.id ((persist policy roster >>= fun _ => last).perform site) := by
  obtain ⟨hown, -, -⟩ := hsound.node.roster hlive
  have hindexed := policy_indexed_of_recalled hrevises.known
  obtain ⟨faults, hcalm, hcases⟩ := persist_cases policy roster site
  have hfault : site.Learns { site with backend := { site.backend with faults } } :=
    .single (.fault faults hcalm)
  rw [perform_bind]
  obtain ⟨error, hrun⟩ | ⟨policies, hupdate, hrun⟩ := hcases <;> rw [hrun, hown]
  · exact .rolledBack hfault hlive
  · dsimp only
    obtain hsame | hforgot := hlast ⟨{ site.node with
        policies := site.node.policies.insert policy
        rosters := site.node.rosters.insert policy.id roster.commit
        changes := site.node.changes + 1 }, ⟨{ site.backend.store with policies }, faults⟩⟩
    -- committed as it is, or without what it remembers
    · rw [hsame]
      exact .stored hfault rfl hindexed hrevises.key hrevises.object hlive hupdate (.inl rfl)
        hrevises.placed hrevises.created hrevises.proper
    · dsimp only at hforgot
      rw [hforgot, Table.modify_insert]
      exact .stored hfault rfl hindexed hrevises.key hrevises.object hlive hupdate (.inr rfl)
        hrevises.placed hrevises.created hrevises.proper

/-- Objects that differ in no field are equal. -/
theorem changedObjectField?_eq_none {current requested : Option PolicyObject}
    (h : changedObjectField? current requested = none) : requested = current := by
  unfold changedObjectField? at h
  split at h
  · rfl
  · rename_i current requested
    split at h
    · cases h
    · split at h
      · cases h
      · rename_i hname hid
        obtain ⟨name, id⟩ := current
        obtain ⟨name', id'⟩ := requested
        cases Classical.not_not.1 hname
        cases Classical.not_not.1 hid
        rfl
  · cases h

/-! ### Amendments -/

/-- What is ready to be stored is another version of the policy, with the live roster. -/
theorem reads_ready (hsound : site.Sound) (now : Timestamp) (amendment : Amendment) :
    (amendment.ready now).Reads site fun amended after =>
      amended.policy.id = amendment.policyId ∧ (∃ current, after.Revises amended.policy current) ∧
        amendment.policyId ≠ 0 ∧
          after.node.rosters[amendment.policyId]? = some amended.roster := by
  have hkeyed := hsound.keyed
  -- the roster is found last, and finding it is learning
  have hlive {policy current : Policy} {site : Site} (hkeyed : site.Keyed)
      (hrevises : site.Revises policy current) (forgets : Bool) : (do
        let roster ← rosterOf policy.id
        pure ⟨policy, roster, forgets⟩ : Call Amended).Reads site fun amended after =>
          amended.policy.id = policy.id ∧ (∃ current, after.Revises amended.policy current) ∧
            policy.id ≠ 0 ∧ after.node.rosters[policy.id]? = some amended.roster := by
    apply (reads_rosterOf hkeyed policy.id).bind hkeyed
    rintro roster after hlearns _ ⟨hid, hroster⟩
    exact reads_pure ⟨rfl, ⟨current, hrevises.of_learns hkeyed hlearns⟩, hid, hroster⟩
  cases amendment with
  | update policy =>
    unfold Amendment.ready
    apply (reads_policyById hkeyed policy.id).bind hkeyed
    rintro current first _ hkeyed' ⟨hcurrent, _⟩
    dsimp only
    split
    · exact reads_throw_bind _ _
    rename_i hkey
    cases hfield : changedObjectField? current.object policy.object with
    | some field => exact reads_throw_bind _ _
    | none =>
      apply (reads_liftExcept _).bind hkeyed'
      rintro _ second _ _ ⟨hvalid, hsecond⟩
      subst hsecond
      -- the check passes over empty keys, but the key has not changed
      have hproper (h : current.Proper) : policy.Proper :=
        .of_validate hvalid (Classical.not_not.1 hkey ▸ h.key)
      have hrevises (after : Site) (hlearns : second.Learns after)
          (hplaced : policy.parentId = current.parentId ∨
            ∃ line, after.node.recalled.policyLinks.Line policy.parentId line ∧ policy.id ∉ line) :
          after.Revises { policy with createdAt := current.createdAt, updatedAt := now } current :=
        ⟨(hlearns.recalled_le hkeyed').policy hcurrent, Classical.not_not.1 hkey,
          changedObjectField?_eq_none hfield, hplaced, rfl, fun h => { hproper h with }⟩
      apply (reads_checkDesignatorsFree hkeyed' policy).bind hkeyed'
      intro _ third hlearns hkeyed'' _
      split
      · apply (reads_checkAcyclic hkeyed'' policy.id policy.parentId).bind hkeyed''
        intro _ last hlearns' hkeyed'' hline
        exact hlive hkeyed'' (hrevises last (hlearns.trans hlearns') (.inr hline)) _
      · rename_i hkept
        refine hlive hkeyed'' (hrevises third hlearns ?_) _
        -- without a parent there is no line to check, and a parent that stays is not checked
        by_cases hroot : policy.parentId = 0
        · exact .inr ⟨[], hroot ▸ .root, List.not_mem_nil⟩
        · exact .inl (Classical.not_not.1 fun hmoved => hkept ⟨hroot, hmoved⟩)
  | move policyId parentId =>
    unfold Amendment.ready
    apply (reads_policyById hkeyed policyId).bind hkeyed
    rintro policy first hlearns hkeyed' ⟨hpolicy, _⟩
    obtain ⟨rfl, -⟩ := (hlearns.sound hsound).node.policy (policy_indexed_of_recalled hpolicy)
    -- with the flags that go with the new parent
    have hrevises (flags : PolicyFlags) (after : Site) (hlearns : first.Learns after)
        (hflags : parentId = 0 ∧ flags = policy.flags.detached ∨ parentId ≠ 0 ∧ flags = policy.flags)
        (hplaced : ∃ line, after.node.recalled.policyLinks.Line parentId line ∧ policy.id ∉ line) :
        after.Revises { policy with flags, parentId, updatedAt := now } policy :=
      ⟨(hlearns.recalled_le hkeyed').policy hpolicy, rfl, rfl, .inr hplaced, rfl,
        fun h => h.move rfl rfl hflags⟩
    dsimp only
    split
    · rename_i hroot
      rw [pure_bind]
      exact hlive hkeyed' (hrevises policy.flags.detached first (.refl first) (.inl ⟨hroot, rfl⟩)
        ⟨[], hroot ▸ .root, List.not_mem_nil⟩) _
    · rename_i hchild
      apply (reads_policyById hkeyed' parentId).bind hkeyed'
      intro _ second hlearns' hkeyed'' _
      apply (reads_checkAcyclic hkeyed'' policy.id parentId).bind hkeyed''
      intro _ last hlearns'' hkeyed'' hline
      rw [pure_bind]
      exact hlive hkeyed'' (hrevises policy.flags last (hlearns'.trans hlearns'')
        (.inr ⟨hchild, rfl⟩) hline) _

/-- An update and a move of a policy end alike. -/
theorem amendment_ends (hsound : site.Sound) (now : Timestamp) (amendment : Amendment) :
    site.PersistEnds amendment.policyId ((amendment.call now).perform site) := by
  rw [Amendment.call_eq]
  apply persistEnds_bind (reads_ready hsound now amendment) hsound.keyed
  rintro amended after hlearns _ ⟨hown, ⟨current, hrevises⟩, -, hlive⟩
  rw [← hown] at hlive ⊢
  refine persist_ends (hlearns.sound hsound) hrevises hlive fun site => ?_
  split
  · exact .inr rfl
  · exact .inl rfl

theorem amendment_passes (hsound : site.Sound) (now : Timestamp) (amendment : Amendment)
    (hallowed : licence.stores amendment.policyId) :
    (amendment.call now).Passes licence most count site :=
  passes_of_zero ((amendment_ends hsound now amendment).passes hsound hallowed)

/-! ### Removing policies -/

/-- A deletion is refused, or it goes through after some learning. -/
theorem deletePolicy_cases (hkeyed : site.Keyed) (policyId : UInt64) :
    (∃ error after, site.Learns after ∧
      (deletePolicy policyId).perform site = (.error error, after)) ∨
    ∃ after policies, site.Learns after ∧
      PolicyTables.delete policyId after.backend.store.policies = .ok ((), policies) ∧
      (deletePolicy policyId).perform site = (.ok (),
        { node := { after.node with
            policies := after.node.policies.remove policyId
            rosters := after.node.rosters.erase policyId
            changes := after.node.changes + 1 }
          backend := { after.backend with store := { after.backend.store with policies } } }) := by
  unfold deletePolicy
  rw [perform_bind]
  obtain ⟨error, after, hlearns, hrun⟩ | ⟨_, first, hlearns, -, hrun⟩ :=
    (reads_policyById hkeyed policyId).cases <;> rw [hrun]
  · exact .inl ⟨error, after, hlearns, rfl⟩
  obtain ⟨faults, hcalm, hcases⟩ := ask_cases_alone (Backend.writes_deletePolicy policyId)
    (.store ("policy " ++ toString policyId)) first
  have hfault : first.Learns { first with backend := { first.backend with faults } } :=
    .single (.fault faults hcalm)
  dsimp only
  rw [perform_bind]
  obtain ⟨error, hrun⟩ | ⟨_, store, ⟨policies, hdelete, rfl⟩, hrun⟩ := hcases <;> rw [hrun]
  · exact .inl ⟨error, _, hlearns.trans hfault, rfl⟩
  · exact .inr ⟨_, policies, hlearns.trans hfault, hdelete, rfl⟩

theorem deletePolicy_passes (hkeyed : site.Keyed) {policyId : UInt64}
    (hallowed : licence.removes policyId) :
    (deletePolicy policyId).Passes licence most count site := by
  apply passes_of_zero
  obtain ⟨error, after, hlearns, hrun⟩ | ⟨after, policies, hlearns, hdelete, hrun⟩ :=
    deletePolicy_cases hkeyed policyId <;> rw [hrun]
  · exact hlearns.passes
  · exact hlearns.passes.trans (.single (.policyDeleted hdelete hallowed))

end Site

end AccessRights
