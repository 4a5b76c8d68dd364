/-
AccessRights/Proofs/Persistence.lean

What calls find, and what is found after the memory of a node is lost.

A node whose index agrees with the store finds a policy by its number, its
key or its object exactly where the store holds one, and a roster that rolls
back to the stored one.  None of that depends on what the node has read so far,
so a new node over the same store finds the same, save for changes that were
not stored.

Main result: `Reached.persists`.
-/
import AccessRights.Proofs.Settled

namespace AccessRights

namespace Site

open Call

variable {rules : Rules} {site : Site}

/-! ### Finding policies -/

/-- What is answered where a policy was found, or was not. -/
def foundPolicy (designation : String) : Option Policy → Except AccessError Policy
  | some policy => .ok policy
  | none => .error (.policyNotFound designation)

@[simp] theorem foundPolicy_eq_ok_iff {designation : String} {found : Option Policy}
    {policy : Policy} : foundPolicy designation found = .ok policy ↔ found = some policy := by
  cases found <;> simp [foundPolicy]

variable {indexed : PolicyIndex → Option Policy} {look : Store → Option Policy}

/-- An index that knows only what is stored makes no difference to what is found. -/
theorem gives_readPolicy (hknown : ∀ policy, indexed site.node.policies = some policy →
      look site.backend.store = some policy)
    (method : StoreMethod) (context designation : String) :
    (readPolicy indexed context (Backend.find method look) designation).gives site =
      foundPolicy designation (look site.backend.store) := by
  unfold gives readPolicy
  rw [perform_bind, perform_currentNode]
  dsimp only
  cases hindexed : indexed site.node.policies with
  | some policy =>
    rw [hknown policy hindexed, show indexed site.unfailing.node.policies = _ from hindexed]
    rfl
  | none =>
    have hask := @perform_ask_of_calm site.unfailing _ _ _ _ (Backend.looks_find method look)
      (.store context) rfl
    rw [show indexed site.unfailing.node.policies = _ from hindexed, perform_bind, hask]
    have hlook : look site.unfailing.backend.store = look site.backend.store := rfl
    rw [hlook]
    cases look site.backend.store <;> rfl

/-- Whatever goes wrong, no other policy is found than the stored one. -/
theorem stored_of_readPolicy (hknown : ∀ policy, indexed site.node.policies = some policy →
      look site.backend.store = some policy)
    {method : StoreMethod} {context designation : String} {policy : Policy}
    (h : ((readPolicy indexed context (Backend.find method look) designation).perform site).1 =
      .ok policy) : look site.backend.store = some policy := by
  unfold readPolicy at h
  rw [perform_bind, perform_currentNode] at h
  dsimp only at h
  cases hindexed : indexed site.node.policies with
  | some known =>
    rw [hindexed] at h
    cases h
    exact hknown policy hindexed
  | none =>
    rw [hindexed] at h
    dsimp only at h
    rw [perform_bind] at h
    obtain ⟨error, after, -, hrun⟩ | ⟨found, after, -, ⟨hbacked, -⟩, hrun⟩ :=
      (reads_ask (Backend.looks_find method look) (.store context) site).cases <;> rw [hrun] at h
    · cases h
    · cases found with
      | none => cases h
      | some found =>
        cases h
        exact hbacked policy rfl

/-- What the index finds by a key, the store finds by it. -/
theorem Settled.byKey?_of_index (hsettled : site.Settled) (hsound : site.Sound) {key : String}
    (policy : Policy) (h : site.node.policies.policyOfKey? key = some policy) :
    site.backend.store.policies.byKey? key = some policy := by
  obtain ⟨id, hid, hkey⟩ := hsettled.leads.policyOfKey? h
  exact hsound.store.policies.byKey?_eq_some_iff.2 ⟨id, hsettled.indexed hid, hkey⟩

/-- An object that the index knows leads to the stored policy that has it. -/
theorem Settled.byObject?_of_index (hsettled : site.Settled) (hsound : site.Sound)
    {object : PolicyObject} (policy : Policy)
    (h : site.node.policies.policyOfObject? object = some policy) :
    site.backend.store.policies.byObject? object = some policy := by
  obtain ⟨id, hid, hobject⟩ := hsettled.leads.policyOfObject? h
  exact hsound.store.policies.byObject?_eq_some_iff.2 ⟨id, hsettled.indexed hid, hobject⟩

/-- By number a node gives what the store has under it. -/
theorem Settled.gives_policyById (hsettled : site.Settled) (id : UInt64) :
    (policyById id).gives site = if id = 0 then .error .zeroPolicyId
      else foundPolicy (toString id) (site.backend.store.policies.byId? id) := by
  unfold policyById
  split
  · rfl
  · have hknown (policy : Policy) (h : site.node.policies.policy? id = some policy) :
        site.backend.store.policies.byId? id = some policy := hsettled.indexed h
    exact gives_readPolicy hknown _ _ _

/-- By key a node gives what the store finds. -/
theorem Settled.gives_policyByKey (hsettled : site.Settled) (hsound : site.Sound) (key : String) :
    (policyByKey key).gives site = foundPolicy key (site.backend.store.policies.byKey? key) :=
  gives_readPolicy (hsettled.byKey?_of_index hsound) _ _ _

theorem Settled.gives_policyByObject (hsettled : site.Settled) (hsound : site.Sound)
    (object : PolicyObject) : (policyByObject object).gives site =
      foundPolicy object.text (site.backend.store.policies.byObject? object) :=
  gives_readPolicy (hsettled.byObject?_of_index hsound) _ _ _

/-! ### Finding rosters -/

/-- What is answered where a roster was found, or was not. -/
def foundRoster (policyId : UInt64) : Option Roster → Except AccessError Roster
  | some roster => .ok roster
  | none => .error (.nilRoster policyId)

/-- A roster is given live if it is live, and as it is stored otherwise. -/
theorem gives_rosterOf (hsound : site.Sound) (id : UInt64) : (rosterOf id).gives site =
    if id = 0 then .error .zeroPolicyId else foundRoster id (site.roster? id) := by
  unfold rosterOf
  split
  · rfl
  rename_i hid
  unfold gives roster?
  rw [perform_bind, perform_currentNode, if_neg hid]
  dsimp only
  cases hlive : site.node.rosters[id]? with
  | some roster =>
    rw [show site.unfailing.node.rosters[id]? = _ from hlive]
    rfl
  | none =>
    have hask := @perform_ask_of_calm site.unfailing _ _ _ _ (Backend.looks_rosterOfPolicy id)
      (.store ("roster of policy " ++ toString id)) rfl
    rw [show site.unfailing.node.rosters[id]? = _ from hlive]
    dsimp only
    rw [perform_bind, hask]
    have hlook : site.unfailing.backend.store = site.backend.store := rfl
    rw [hlook]
    dsimp only
    cases hstored : site.backend.store.policies.roster? id with
    | none => rfl
    | some record =>
      -- a stored record always has the number under which it is stored
      have hown : record.policyId = id := (hsound.store.policies.roster hstored).1
      rw [Option.filter_some_pos (by simpa using hown)]
      dsimp only
      rw [if_neg fun hne => hne hown]
      rfl

/-- What is found for a roster rolls back to what is stored. -/
theorem Settled.roster?_rollBack (hsettled : site.Settled) (hsound : site.Sound) (id : UInt64) :
    (site.roster? id).map (fun roster => roster.rollBack.record) =
      if id = 0 then none else site.backend.store.policies.roster? id := by
  unfold roster?
  split
  · rfl
  cases hlive : site.node.rosters[id]? with
  | some roster => exact (hsettled.persisted hlive).symm
  | none =>
    dsimp only
    cases hstored : site.backend.store.policies.roster? id with
    | none => rfl
    | some record =>
      have hown : record.policyId = id := (hsound.store.policies.roster hstored).1
      rw [Option.filter_some_pos (by simpa using hown), Option.map_some, Option.map_some,
        Roster.rollBack_record_ofRecord (hsettled.record hstored)]

/-! ### What is found is what is stored -/

/-- The call finds what is held: it gives a policy exactly if it is, as long as no call of the
store fails, and no other policy in any case. -/
structure Finds (site : Site) (call : Call Policy) (held : Policy → Prop) : Prop where
  gives {policy : Policy} : call.gives site = .ok policy ↔ held policy
  answered {policy : Policy} : (call.perform site).1 = .ok policy → held policy

/-- The store holds all that the node has accepted and stored. -/
structure Persists (site : Site) : Prop where
  /-- A known policy is the stored one. -/
  indexed {id : UInt64} {policy : Policy} : site.node.policies.policy? id = some policy →
    site.backend.store.policies.byId? id = some policy
  byId (id : UInt64) : site.Finds (policyById id) fun policy =>
    site.backend.store.policies.byId? id = some policy
  byKey (key : String) : site.Finds (policyByKey key) fun policy =>
    ∃ id, site.backend.store.policies.byId? id = some policy ∧ policy.key = some key
  byObject (object : PolicyObject) : site.Finds (policyByObject object) fun policy =>
    ∃ id, site.backend.store.policies.byId? id = some policy ∧ policy.object = some object
  /-- A live roster without a backup is the stored one. -/
  clean {id : UInt64} {roster : Roster} : site.node.rosters[id]? = some roster →
    roster.backup = none → site.backend.store.policies.roster? id = some roster.record
  /-- Where a backup is held, it is the stored one, cell by cell. -/
  backedUp {id : UInt64} {roster : Roster} {backup : RosterBackup} :
    site.node.rosters[id]? = some roster → roster.backup = some backup →
      site.backend.store.policies.roster? id =
        some ⟨id, backup.registry.everyone, backup.registry.cells⟩
  /-- A new node over the same store finds the same policies. -/
  freshById (config : Config) (id : UInt64) :
    (policyById id).gives ⟨.blank config, site.backend⟩ = (policyById id).gives site
  freshByKey (config : Config) (key : String) :
    (policyByKey key).gives ⟨.blank config, site.backend⟩ = (policyByKey key).gives site
  freshByObject (config : Config) (object : PolicyObject) :
    (policyByObject object).gives ⟨.blank config, site.backend⟩ = (policyByObject object).gives site
  /-- It finds the same rosters rolled back, with nothing pending. -/
  freshRoster (config : Config) (id : UInt64) :
    ((rosterOf id).gives ⟨.blank config, site.backend⟩).map Roster.update =
      ((rosterOf id).gives site).map fun roster => roster.rollBack.update

/-- A policy is found by its number, then and ever after. -/
theorem Settled.finds_policyById (hsettled : site.Settled) (hsound : site.Sound) (id : UInt64) :
    site.Finds (policyById id) fun policy =>
      site.backend.store.policies.byId? id = some policy where
  gives {policy} := by
    rw [hsettled.gives_policyById]
    split
    · rename_i hid
      -- there is no policy with the number zero
      refine iff_of_false nofun fun hstored => ?_
      exact (hsound.store.policies.policy hstored).2.1 hid
    · exact foundPolicy_eq_ok_iff
  answered {policy} h := by
    unfold policyById at h
    split at h
    · cases h
    · have hknown (policy : Policy) (h : site.node.policies.policy? id = some policy) :
          site.backend.store.policies.byId? id = some policy := hsettled.indexed h
      exact stored_of_readPolicy hknown h

theorem Settled.finds_policyByKey (hsettled : site.Settled) (hsound : site.Sound) (key : String) :
    site.Finds (policyByKey key) fun policy =>
      ∃ id, site.backend.store.policies.byId? id = some policy ∧ policy.key = some key where
  gives {policy} := by
    rw [hsettled.gives_policyByKey hsound, foundPolicy_eq_ok_iff,
      hsound.store.policies.byKey?_eq_some_iff]
  answered h := by
    rw [← hsound.store.policies.byKey?_eq_some_iff]
    exact stored_of_readPolicy (hsettled.byKey?_of_index hsound) h

theorem Settled.finds_policyByObject (hsettled : site.Settled) (hsound : site.Sound)
    (object : PolicyObject) : site.Finds (policyByObject object) fun policy =>
      ∃ id, site.backend.store.policies.byId? id = some policy ∧ policy.object = some object where
  gives {policy} := by
    rw [hsettled.gives_policyByObject hsound, foundPolicy_eq_ok_iff,
      hsound.store.policies.byObject?_eq_some_iff]
  answered h := by
    rw [← hsound.store.policies.byObject?_eq_some_iff]
    exact stored_of_readPolicy (hsettled.byObject?_of_index hsound) h

/-- A new node finds rosters that have just come to life. -/
theorem exists_record_of_blank {config : Config} {backend : Backend} {id : UInt64} {roster : Roster}
    (h : roster? ⟨.blank config, backend⟩ id = some roster) :
    ∃ record, roster = Roster.ofRecord record := by
  unfold roster? at h
  split at h
  · cases h
  · rw [show (⟨.blank config, backend⟩ : Site).node.rosters[id]? = none from
      Std.ExtTreeMap.getElem?_empty] at h
    obtain ⟨record, -, rfl⟩ := Option.map_eq_some_iff.1 h
    exact ⟨record, rfl⟩

/-- So it finds them as they are elsewhere when they are rolled back. -/
theorem Settled.update_rosterOf_blank (hsettled : site.Settled) (hsound : site.Sound)
    (config : Config) (id : UInt64) :
    ((rosterOf id).gives ⟨.blank config, site.backend⟩).map Roster.update =
      ((rosterOf id).gives site).map fun roster => roster.rollBack.update := by
  have hblank : Site.Sound ⟨.blank config, site.backend⟩ :=
    ⟨hsound.store, Cluster.blank_sound config _⟩
  rw [gives_rosterOf hsound, gives_rosterOf hblank]
  split
  · rfl
  rename_i hid
  have hfound := hsettled.roster?_rollBack hsound id
  have hfresh := (settled_blank config hsettled.record).roster?_rollBack hblank id
  rw [if_neg hid] at hfound hfresh
  rw [← hfound] at hfresh
  -- a new node has nothing but the record, which is what the live roster rolls back to
  cases hnew : roster? ⟨.blank config, site.backend⟩ id with
  | none =>
    rw [hnew] at hfresh
    rw [Option.map_eq_none_iff.1 hfresh.symm]
    rfl
  | some fresh =>
    rw [hnew] at hfresh
    obtain ⟨roster, hroster, hsame⟩ := Option.map_eq_some_iff.1 hfresh.symm
    obtain ⟨record, rfl⟩ := exists_record_of_blank hnew
    rw [hroster]
    show Except.ok (Roster.update _) = Except.ok (Roster.update _)
    unfold Roster.update
    rw [hsame, Roster.pending_rollBack]
    rfl

/-- At every reached site the store holds all that the node has accepted and stored, whatever
faults it has met, as long as changes of rosters are made final by requests only. -/
theorem Reached.persists (h : site.Reached rules) (hsteps : ¬ rules.steps .commit) :
    site.Persists := by
  have hsound := h.sound
  have hsettled := h.settled hsteps
  have hsound' (config : Config) : Site.Sound ⟨.blank config, site.backend⟩ :=
    ⟨hsound.store, Cluster.blank_sound config _⟩
  have hsettled' (config : Config) : Settled ⟨.blank config, site.backend⟩ :=
    settled_blank config hsettled.record
  exact
    { indexed := hsettled.indexed
      byId := hsettled.finds_policyById hsound
      byKey := hsettled.finds_policyByKey hsound
      byObject := hsettled.finds_policyByObject hsound
      clean := fun hlive hbackup => by
        rw [hsettled.persisted hlive, Roster.rollBack_of_none hbackup]
      backedUp := fun hlive hbackup => by
        rw [hsettled.persisted hlive, Roster.rollBack_of_some hbackup,
          (hsound.node.roster hlive).1]
      freshById := fun config id => by
        rw [hsettled.gives_policyById, (hsettled' config).gives_policyById]
      freshByKey := fun config key => by
        rw [hsettled.gives_policyByKey hsound, (hsettled' config).gives_policyByKey (hsound' config)]
      freshByObject := fun config object => by
        rw [hsettled.gives_policyByObject hsound,
          (hsettled' config).gives_policyByObject (hsound' config)]
      freshRoster := hsettled.update_rosterOf_blank hsound }

/-- A grant waits to be stored. -/
def drafted : Site :=
  (live ⟨.blank {}, {}⟩ [
    (default, .createPolicy (some "doc") 1 0 none .empty),
    (default, .grantAccess 1 (.user 1) (.user 5) .view)]).2

/-- The call that is to store it fails, and then another grant waits. -/
def stumbled : Site :=
  (live { drafted with backend := { drafted.backend with
      faults := drafted.backend.faults.schedule .updatePolicy (.failure (.backend "disk full")) 1 } } [
    (default, .movePolicy 1 0),
    (default, .grantAccess 1 (.user 1) (.user 6) .view)]).2

theorem reached_drafted : drafted.Reached .requests :=
  (Reached.blank {}).live (fun _ _ _ => trivial) ⟨by decide +kernel, by decide +kernel⟩

theorem reached_stumbled : stumbled.Reached .requests :=
  (Reached.scheduled reached_drafted .updatePolicy trivial 1).live (fun _ _ _ => trivial)
    ⟨by decide +kernel, by decide +kernel⟩

/-- The second grant is pending, and the store has neither. -/
theorem persists_stumbled : stumbled.Persists ∧
    (stumbled.node.rosters[(1 : UInt64)]?).map Roster.pending = some [⟨.set, .user 6, .view⟩] ∧
      stumbled.backend.store.policies.roster? 1 = some (.empty 1) :=
  ⟨reached_stumbled.persists fun h => h, by decide +kernel, by decide +kernel⟩

end Site

end AccessRights
