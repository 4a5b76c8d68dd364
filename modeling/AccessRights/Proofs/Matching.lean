/-
AccessRights/Proofs/Matching.lean

The policies of a store and their rosters match.

Whoever has a store can hand it any values.  A roster is put into the row of its
policy all the same, and takes its number from there, so the rosters that are stored
are those of the stored policies, whatever number they came with.

From then on one node may be the only one to write to the store.  It knows no policy
that is not stored, because it takes policies in when they are stored and forgets
them when it removes them.  So as long as the store does not fail, a policy that
exists has a roster of its own, and a new one gets it.

Main results: `PolicyTables.Matched.after`, `Site.Edit.grounded` (a step),
`Site.Attended.grounded` (a run) and `Site.rosters_match_policies`.
-/
import AccessRights.Proofs.Editing
import AccessRights.Proofs.Pairing
import AccessRights.Proofs.Refusals
import AccessRights.Proofs.Uniqueness

namespace AccessRights

/-- A roster was given that belongs to another policy. -/
def AccessError.IsEmptyRoster : AccessError → Prop
  | .emptyRoster _ => True
  | _ => False

/-! ### Tables that match -/

namespace PolicyTables

variable {tables tables' : PolicyTables}

/-- Rosters are stored exactly where policies are, and both carry the numbers they are stored
under. -/
structure Matched (tables : PolicyTables) : Prop where
  paired : tables.Paired
  policy : tables.Numbered
  roster ⦃id : UInt64⦄ ⦃record : RosterRecord⦄ : tables.rosters[id]? = some record →
    record.policyId = id

theorem matched_empty : Matched {} := by
  refine ⟨paired_empty, fun id policy h => ?_, fun id record h => ?_⟩ <;> simp at h

/-- The number that the record came with does not matter. -/
theorem Matched.put (h : tables.Matched) (policy : Policy) (record : RosterRecord) :
    (tables.put policy record).Matched := by
  refine ⟨h.paired.put policy record, h.policy.put policy record, fun id stored hstored => ?_⟩
  rw [rosters_put] at hstored
  split at hstored
  · cases hstored
    assumption
  · exact h.roster hstored

theorem Matched.create (h : tables.Matched) {policy : Policy} {record : RosterRecord}
    {stored : Policy × RosterRecord}
    (hcreate : PolicyTables.create policy record tables = .ok (stored, tables')) :
    tables'.Matched := by
  obtain ⟨-, -, -, rfl⟩ := create_eq_ok hcreate
  obtain ⟨hpaired, hpolicy, hroster⟩ := h.put stored.1 record
  exact ⟨hpaired, hpolicy, hroster⟩

theorem Matched.update (h : tables.Matched) {policy : Policy} {update : RosterUpdate}
    (hupdate : PolicyTables.update policy update tables = .ok ((), tables')) :
    tables'.Matched := by
  obtain ⟨-, -, rfl⟩ := update_eq_ok hupdate
  exact h.put policy update.record

theorem Matched.delete (h : tables.Matched) {id : UInt64}
    (hdelete : PolicyTables.delete id tables = .ok ((), tables')) : tables'.Matched := by
  have hpaired := h.paired.delete hdelete
  obtain ⟨-, rfl⟩ := delete_eq_ok hdelete
  exact ⟨hpaired, fun _ _ hpolicy => h.policy (Table.of_lookup_erase hpolicy),
    fun _ _ hrecord => h.roster (Table.of_lookup_erase hrecord)⟩

/-- Whatever is asked, policies and rosters go on to match. -/
theorem Matched.after (h : tables.Matched) (request : PolicyRequest) :
    (tables.after request).Matched := by
  cases tables.asked_after request with
  | created done => exact h.create done
  | updated done => exact h.update done
  | deleted done => exact h.delete done
  | kept same =>
    rw [same]
    exact h

/-- Where a policy is stored, a roster of that number is. -/
theorem Matched.exists_record (h : tables.Matched) {id : UInt64} {policy : Policy}
    (hpolicy : tables.policies[id]? = some policy) :
    ∃ record, tables.rosters[id]? = some record ∧ record.policyId = id := by
  have hsome : (tables.rosters[id]?).isSome = true := by
    rw [h.paired id, hpolicy, Option.isSome_some]
  obtain ⟨record, hrecord⟩ := Option.isSome_iff_exists.1 hsome
  exact ⟨record, hrecord, h.roster hrecord⟩

end PolicyTables

theorem Store.matched_run {store : Store} (h : store.policies.Matched)
    (requests : List StoreRequest) : (store.run requests).policies.Matched := by
  induction requests generalizing store with
  | nil => exact h
  | cons request requests ih =>
    cases request with
    | policies request => exact ih (h.after request)
    | groups request => exact ih h

namespace Site

open Call

variable {site after : Site}

/-! ### Nodes that know stored policies only -/

/-- The store does not fail, its policies and rosters match, and the node knows no policy that is
not stored. -/
structure Grounded (site : Site) : Prop where
  calm : site.backend.faults = []
  matched : site.backend.store.policies.Matched
  stored {id : UInt64} {policy : Policy} : site.node.policies.policy? id = some policy →
    ∃ stored, site.backend.store.policies.policies[id]? = some stored

/-- Putting a policy into the store removes no other. -/
theorem Grounded.put (h : site.Grounded) (policy : Policy) (record : RosterRecord) {id : UInt64}
    {known : Policy} (hknown : site.node.policies.policy? id = some known) :
    ∃ stored, (site.backend.store.policies.put policy record).policies[id]? = some stored := by
  rw [PolicyTables.policies_put]
  split
  · exact ⟨policy, rfl⟩
  · exact h.stored hknown

/-- No edit gets the node to know more than is stored. -/
theorem Edit.grounded (hedit : site.Edit after) (h : site.Grounded) : after.Grounded := by
  cases hedit with
  | noted node groups policies =>
    exact ⟨h.calm, h.matched, fun hknown => h.stored (policies ▸ hknown)⟩
  | regrouped => exact ⟨h.calm, h.matched, h.stored⟩
  | served backend policies calm =>
    exact ⟨calm h.calm, policies ▸ h.matched, fun hknown => policies ▸ h.stored hknown⟩
  | @takenIn own policy stored =>
    refine ⟨h.calm, h.matched, fun {id known} hknown => ?_⟩
    have hown := h.matched.policy stored
    rw [PolicyIndex.policy?_insert] at hknown
    split at hknown
    · rename_i hid
      exact ⟨policy, (hown.symm.trans hid) ▸ stored⟩
    · exact h.stored hknown
  | @created _ record _ _ created =>
    have hmatched := h.matched.create created
    obtain ⟨-, -, -, rfl⟩ := PolicyTables.create_eq_ok created
    exact ⟨h.calm, hmatched, h.put _ record⟩
  | updated updated =>
    have hmatched := h.matched.update updated
    obtain ⟨-, -, rfl⟩ := PolicyTables.update_eq_ok updated
    exact ⟨h.calm, hmatched, h.put _ _⟩
  | @deleted own policies deleted =>
    refine ⟨h.calm, h.matched.delete deleted, fun {id known} hknown => ?_⟩
    obtain ⟨-, hpolicies⟩ := PolicyTables.delete_eq_ok deleted
    show ∃ stored, policies.policies[id]? = some stored
    rw [hpolicies, lookup_erase]
    -- the policy that was removed has been forgotten with it
    rw [PolicyIndex.policy?_remove] at hknown
    split at hknown
    · cases hknown
    · rw [if_neg ‹_›]
      exact h.stored hknown

/-! ### Runs -/

/-- A state that a node gets into as the only writer of a store that does not fail, and that
anybody may have filled before. -/
inductive Attended : Site → Prop
  /-- The node is new, and the store has been handed any values. -/
  | opened (requests : List StoreRequest) (config : Config) :
      Attended ⟨.blank config, { store := Store.run {} requests }⟩
  /-- The node is closed, and a new one is opened over its store. -/
  | reopened {site : Site} (before : Attended site) (config : Config) :
      Attended { site with node := .blank config }
  /-- A request is answered, or refused. -/
  | answered {site : Site} (before : Attended site) (now : Timestamp) (request : Request) :
      Attended ((answer now request).perform site).2
  /-- Somebody works on a live roster. -/
  | stepped {site : Site} (before : Attended site) (policyId : UInt64) (step : RosterStep) :
      Attended ((rosterStep policyId step).perform site).2

/-- A history is a run of requests. -/
theorem Attended.live (h : site.Attended) (history : History) :
    (site.live history).2.Attended := by
  induction history generalizing site with
  | nil => exact h
  | cons entry history ih => exact ih (h.answered entry.1 entry.2)

/-- Throughout a run the node knows stored policies only, and those have their rosters. -/
theorem Attended.grounded (h : site.Attended) : site.Grounded := by
  have hblank (config : Config) {id : UInt64} {policy : Policy} :
      (Node.blank config).policies.policy? id ≠ some policy := by
    simp [Node.blank, PolicyIndex.policy?]
  induction h with
  | opened requests config =>
    exact ⟨rfl, Store.matched_run PolicyTables.matched_empty requests,
      fun hknown => absurd hknown (hblank config)⟩
  | reopened _ config ih => exact ⟨ih.calm, ih.matched, fun hknown => absurd hknown (hblank config)⟩
  | answered _ now request ih => exact keeps_of_steps (edited_answer now request _) Edit.grounded ih
  | stepped _ policyId step ih =>
    exact keeps_of_steps (edited_rosterStep policyId step _) Edit.grounded ih

/-! ### Rosters of policies that exist -/

/-- The policy is known to the node, or stored. -/
def HasPolicy (site : Site) (id : UInt64) : Prop :=
  (site.node.policies.policy? id).isSome = true ∨
    (site.backend.store.policies.byId? id).isSome = true

theorem Grounded.exists_stored (h : site.Grounded) {id : UInt64} (hexists : site.HasPolicy id) :
    ∃ stored, site.backend.store.policies.policies[id]? = some stored := by
  obtain hknown | hstored := hexists
  · obtain ⟨policy, hknown⟩ := Option.isSome_iff_exists.1 hknown
    exact h.stored hknown
  · exact Option.isSome_iff_exists.1 hstored

/-- The roster of a policy that exists is given, unless it has the number zero. -/
theorem Grounded.eq_zero_of_rosterOf (h : site.Grounded) {id : UInt64} (hexists : site.HasPolicy id)
    {error : AccessError} (hrun : ((rosterOf id).perform site).1 = .error error) :
    id = 0 ∧ error = .zeroPolicyId := by
  unfold rosterOf at hrun
  split at hrun
  · rename_i hid
    cases hrun
    exact ⟨hid, rfl⟩
  rw [perform_bind, perform_currentNode] at hrun
  dsimp only at hrun
  split at hrun
  · cases hrun
  · obtain ⟨policy, hpolicy⟩ := h.exists_stored hexists
    obtain ⟨record, hrecord, hown⟩ := h.matched.exists_record hpolicy
    rw [perform_bind, perform_ask_of_calm (Backend.looks_rosterOfPolicy id) _ h.calm] at hrun
    dsimp only [PolicyTables.roster?] at hrun
    rw [hrecord] at hrun
    dsimp only at hrun
    rw [if_neg (not_not_intro hown)] at hrun
    cases hrun

/-! ### Rosters of new policies -/

/-- What comes second is called where the node knows stored policies only, too. -/
theorem Grounded.avoids_bind {α β : Type} {bad : AccessError → Prop} {call : Call α}
    {next : α → Call β} (h : site.Grounded) (hcall : call.Avoids bad site) (hedits : call.Edits site)
    (hnext : ∀ value after, after.Grounded → (next value).Avoids bad after) :
    (call >>= next).Avoids bad site := by
  refine hcall.bind fun value after hrun => hnext value after ?_
  have hkept := keeps_of_steps hedits Edit.grounded h
  rwa [hrun] at hkept

theorem not_isEmptyRoster_of_validate {policy : Policy} {error : AccessError}
    (h : policy.validate = .error error) : ¬ error.IsEmptyRoster := by
  unfold Policy.validate at h
  grind [AccessError.IsEmptyRoster]

theorem avoids_draft (now : Timestamp) (key : Option String) (ownerId parentId : UInt64)
    (object : Option PolicyObject) (flags : PolicyFlags) :
    (liftExcept (Policy.draft now key ownerId parentId object flags) : Call Policy).Avoids
      AccessError.IsEmptyRoster site := by
  intro error herror
  rw [perform_liftExcept] at herror
  simp only [Policy.draft, Except.map] at herror
  split at herror
  · rename_i hvalid
    cases herror
    exact not_isEmptyRoster_of_validate hvalid
  · cases herror

theorem avoids_isTaken (ownId : UInt64) (indexed : PolicyIndex → Option UInt64)
    (context : String) (fetch : StoreCall (Option Policy)) :
    (isTaken ownId indexed context fetch).Avoids AccessError.IsEmptyRoster site := by
  refine avoids_currentNode.bind fun node _ _ => ?_
  split
  · exact avoids_pure _
  · exact (avoids_ask (fun _ => not_false) _).bind fun _ _ _ => avoids_pure _

theorem avoids_checkKeyFree (ownId : UInt64) (key : String) :
    (checkKeyFree ownId key).Avoids AccessError.IsEmptyRoster site := by
  refine (avoids_isTaken ownId _ _ _).bind fun taken _ _ => ?_
  split
  · exact avoids_throw not_false
  · exact avoids_pure _

theorem avoids_checkObjectFree (ownId : UInt64) (object : PolicyObject) :
    (checkObjectFree ownId object).Avoids AccessError.IsEmptyRoster site := by
  refine (avoids_isTaken ownId _ _ _).bind fun taken _ _ => ?_
  split
  · exact avoids_throw not_false
  · exact avoids_pure _

theorem avoids_checkDesignatorsFree (policy : Policy) :
    (checkDesignatorsFree policy).Avoids AccessError.IsEmptyRoster site := by
  unfold checkDesignatorsFree
  cases policy.key with
  | some key =>
    refine (avoids_checkKeyFree policy.id key).bind fun _ _ _ => ?_
    cases policy.object with
    | some object => exact avoids_checkObjectFree policy.id object
    | none => exact avoids_pure _
  | none =>
    cases policy.object with
    | some object => exact avoids_checkObjectFree policy.id object
    | none => exact avoids_pure _

theorem avoids_storeNewPolicy (policy : Policy) :
    (storeNewPolicy policy).Avoids AccessError.IsEmptyRoster site := by
  refine (avoids_ask (fun _ => not_false) _).bind_outcome (fun created _ _ => avoids_pure _)
    fun error after herror => ?_
  split
  · rename_i heq
    cases heq
  · rename_i heq
    cases heq
    exact (avoids_checkDesignatorsFree policy).bind fun _ _ _ => avoids_throw herror
  · rename_i heq
    cases heq
    exact avoids_throw herror

/-- A store that does not fail gives a new policy back with a record of its own. -/
theorem own_of_storeNewPolicy {policy : Policy} {created : Policy × RosterRecord}
    (hcalm : site.backend.faults = [])
    (hrun : (storeNewPolicy policy).perform site = (.ok created, after)) :
    created.2.policyId = created.1.id := by
  have hbackend := run_of_storeNewPolicy hrun
  cases hcreate : PolicyTables.create policy (.empty 0) site.backend.store.policies with
  | ok done =>
    obtain ⟨⟨stored, record⟩, policies⟩ := done
    rw [Backend.run_createPolicy_of_calm hcalm hcreate] at hbackend
    cases Except.ok.inj (Prod.mk.inj hbackend).1
    obtain ⟨-, hstored, hrecord, -⟩ := PolicyTables.create_eq_ok hcreate
    rw [hstored, hrecord]
  | error error =>
    unfold Backend.createPolicy at hbackend
    rw [Backend.run_bind, Backend.run_meetFault_of_calm _ hcalm] at hbackend
    dsimp only at hbackend
    rw [if_neg (by decide), Backend.run_bind, Backend.run_onPolicies, hcreate] at hbackend
    cases hbackend

/-- A new policy gets its roster. -/
theorem Grounded.avoids_createPolicy (h : site.Grounded) (now : Timestamp) (key : Option String)
    (ownerId parentId : UInt64) (object : Option PolicyObject) (flags : PolicyFlags) :
    (createPolicy now key ownerId parentId object flags).Avoids AccessError.IsEmptyRoster site := by
  have hcheck : (policyToCreate now key ownerId parentId object flags).Avoids
      AccessError.IsEmptyRoster site := by
    refine (avoids_draft now key ownerId parentId object flags).bind fun draft _ _ => ?_
    refine (avoids_checkDesignatorsFree draft).bind fun _ _ _ => ?_
    split
    · exact (avoids_policyById_of not_false (fun _ => not_false) (fun _ _ => not_false)
        parentId).bind fun _ _ _ => avoids_pure _
    · exact avoids_pure _
  rw [createPolicy_eq]
  refine h.avoids_bind hcheck (edited_of_composed (composed_policyToCreate part_find
    composed_policyById now key ownerId parentId object flags site)) fun draft first h => ?_
  -- the record that the store gives is that of the policy it has stored
  refine (avoids_storeNewPolicy draft).bind fun created after hrun => ?_
  dsimp only
  rw [if_neg (not_not_intro (own_of_storeNewPolicy h.calm hrun))]
  exact (avoids_editNode _).bind fun _ _ _ => (avoids_editNode _).bind fun _ _ _ => avoids_pure _

/-! ### The result -/

/-- Whatever a store is handed, it keeps a roster for exactly the policies that it keeps, and both
carry the numbers they are stored under.  If one node writes to it alone from then on, and the
store does not fail, then the node knows only policies whose roster is stored, the roster of a
policy that exists is given unless the number is zero, and no policy is created with a roster that
is not its own. -/
theorem rosters_match_policies :
    (∀ requests, (Store.run {} requests).policies.Matched) ∧
    ∀ site, Attended site →
      site.backend.store.policies.Matched ∧
      (∀ id policy, site.node.policies.policy? id = some policy →
        ∃ record, site.backend.store.policies.roster? id = some record ∧ record.policyId = id) ∧
      (∀ id error, site.HasPolicy id → ((rosterOf id).perform site).1 = .error error →
        id = 0 ∧ error = .zeroPolicyId) ∧
      ∀ now key ownerId parentId object flags id,
        ((createPolicy now key ownerId parentId object flags).perform site).1 ≠
          .error (.emptyRoster id) := by
  refine ⟨Store.matched_run PolicyTables.matched_empty, fun site hsite => ?_⟩
  have hgrounded := hsite.grounded
  refine ⟨hgrounded.matched, fun id policy hknown => ?_, fun id error hexists hrun =>
    hgrounded.eq_zero_of_rosterOf hexists hrun, fun now key ownerId parentId object flags id hrun =>
    hgrounded.avoids_createPolicy now key ownerId parentId object flags _ hrun trivial⟩
  obtain ⟨stored, hstored⟩ := hgrounded.stored hknown
  exact hgrounded.matched.exists_record hstored

/-- A store has been handed three policies: one with the record of another number, one that was
then stored anew with a record of the number zero, and one that was removed.  A node over it has
created a policy and deleted the first one. -/
def inherited : Site :=
  let policy (id : UInt64) (key : String) : Policy :=
    ⟨id, 0, 1, some key, none, .empty, default, default⟩
  let store := Store.run {} [
    .policies (.create (policy 7 "first") (.empty 9)),
    .policies (.create (policy 7 "second") (.empty 2)),
    .policies (.update (policy 2 "renamed") ⟨.empty 0, []⟩),
    .policies (.create (policy 0 "third") (.empty 3)),
    .policies (.delete 3)]
  (live ⟨.blank {}, { store }⟩ [
    (default, .createPolicy (some "fourth") 5 2 none .inherit), (default, .deletePolicy 1)]).2

theorem attended_inherited : inherited.Attended :=
  (Attended.opened _ {}).live _

/-- The policy that was stored anew and the one that was created exist and have their rosters.  The
two that were removed are gone from the node and from the store. -/
theorem rosters_inherited :
    (inherited.HasPolicy 2 ∧ inherited.HasPolicy 4 ∧
      ¬ inherited.HasPolicy 1 ∧ ¬ inherited.HasPolicy 3) ∧
    inherited.backend.store.policies.Matched ∧
    (∃ roster, ((rosterOf 2).perform inherited).1 = .ok roster) ∧
    (∃ roster, ((rosterOf 4).perform inherited).1 = .ok roster) ∧
    ((createPolicy default (some "fifth") 5 2 none .extend).perform inherited).1 ≠
      .error (.emptyRoster 5) := by
  obtain ⟨-, hall⟩ := rosters_match_policies
  obtain ⟨hmatched, -, hroster, hcreate⟩ := hall inherited attended_inherited
  have hgiven {id : UInt64} (hid : id ≠ 0) (hexists : inherited.HasPolicy id) :
      ∃ roster, ((rosterOf id).perform inherited).1 = .ok roster := by
    cases hrun : ((rosterOf id).perform inherited).1 with
    | ok roster => exact ⟨roster, rfl⟩
    | error error => exact absurd (hroster id error hexists hrun).1 hid
  have hsecond : inherited.HasPolicy 2 := by
    unfold HasPolicy
    decide +kernel
  have hfourth : inherited.HasPolicy 4 := by
    unfold HasPolicy
    decide +kernel
  refine ⟨⟨hsecond, hfourth, ?_, ?_⟩, hmatched, hgiven (by decide) hsecond,
    hgiven (by decide) hfourth, hcreate _ _ _ _ _ _ _⟩ <;>
  · unfold HasPolicy
    decide +kernel

end Site

end AccessRights
