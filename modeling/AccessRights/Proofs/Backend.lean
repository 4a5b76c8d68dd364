/-
AccessRights/Proofs/Backend.lean

What calls of the store come to, whatever faults are planned.

A call first meets a fault, which may end it; then it looks something up or
performs an operation on the tables.  These lemmas say for each call which
answers it can give and which store it can leave behind; nothing else has to
know how faults are planned.  `Backend.Looks` is for calls that only look: the
store stays as it is, what is found may be relied on, and without planned
faults the call answers.  `Backend.Writes` is for calls that write: a rival may
come first, and then the call fails or has its effect.

Main results: `looks_find`, `writes_createPolicy`, `writes_upsertGroup` and
their companions.
-/
import AccessRights.Proofs.Store
import AccessRights.Store.Backend

namespace AccessRights

namespace Backend

variable {α β : Type}

/-! ### Building blocks -/

/-- The second part of a call sees what the first one has changed, and is left out if the
first one fails. -/
theorem run_bind (request : StoreCall α) (next : α → StoreCall β) (backend : Backend) :
    (request >>= next).run.run backend =
      match request.run.run backend with
      | (.ok value, backend) => (next value).run.run backend
      | (.error error, backend) => (.error error, backend) := by
  simp only [ExceptT.run_bind, StateT.run_bind]
  rcases request.run.run backend with ⟨result | value, after⟩ <;> rfl

theorem run_get (backend : Backend) :
    (get : StoreCall Backend).run.run backend = (.ok backend, backend) := rfl

/-- A planned failure ends the call, and any other fault is passed on. -/
theorem run_meetFault (method : StoreMethod) (backend : Backend) :
    (meetFault method).run.run backend =
      match FaultPlan.next method backend.faults with
      | (.failure error, faults) => (.error error, { backend with faults })
      | (fault, faults) => (.ok fault, { backend with faults }) := by
  unfold meetFault
  rw [run_bind, run_get]
  dsimp only
  rcases FaultPlan.next method backend.faults with ⟨fault, faults⟩
  cases fault <;> rfl

/-- A planned fault ends a call or is handed on, and without a plan there is none. -/
theorem meetFault_cases (method : StoreMethod) (backend : Backend) :
    ∃ faults : FaultPlan, (backend.faults = [] → faults = []) ∧
      ((∃ error, backend.faults ≠ [] ∧
        (meetFault method).run.run backend = (.error error, { backend with faults })) ∨
      ∃ fault, (backend.faults = [] → fault = .harmless) ∧
        (meetFault method).run.run backend = (.ok fault, { backend with faults })) := by
  rw [run_meetFault]
  -- stated before the plan is generalized, while it can still be computed
  have hcalm (h : backend.faults = []) :
      FaultPlan.next method backend.faults = (.harmless, []) := by
    rw [h, FaultPlan.next_nil]
  generalize FaultPlan.next method backend.faults = met at hcalm ⊢
  obtain ⟨fault, faults⟩ := met
  refine ⟨faults, fun h => congrArg Prod.snd (hcalm h), ?_⟩
  cases fault with
  | failure error => exact .inl ⟨error, fun h => absurd (hcalm h) (by simp), rfl⟩
  | harmless | absence | mismatch | rival =>
    exact .inr ⟨_, fun h => congrArg Prod.fst (hcalm h), rfl⟩

/-- What the tables refuse the call refuses, and nothing is stored then. -/
theorem run_onPolicies
    (operation : PolicyTables → Except StoreError (α × PolicyTables)) (backend : Backend) :
    (onPolicies operation).run.run backend =
      match operation backend.store.policies with
      | .error error => (.error error, backend)
      | .ok (value, policies) =>
        (.ok value, { backend with store := { backend.store with policies } }) := by
  unfold onPolicies
  rw [run_bind, run_get]
  dsimp only
  rcases operation backend.store.policies with error | ⟨value, policies⟩ <;> rfl

theorem run_onGroups
    (operation : GroupTables → Except StoreError (α × GroupTables)) (backend : Backend) :
    (onGroups operation).run.run backend =
      match operation backend.store.groups with
      | .error error => (.error error, backend)
      | .ok (value, groups) =>
        (.ok value, { backend with store := { backend.store with groups } }) := by
  unfold onGroups
  rw [run_bind, run_get]
  dsimp only
  rcases operation backend.store.groups with error | ⟨value, groups⟩ <;> rfl

/-! ### Calls of a store that does not fail -/

theorem run_meetFault_of_calm (method : StoreMethod) {backend : Backend}
    (hcalm : backend.faults = []) :
    (meetFault method).run.run backend = (.ok .harmless, backend) := by
  obtain ⟨store, faults⟩ := backend
  cases hcalm
  rw [run_meetFault, FaultPlan.next_nil]

/-- An operation on the policies is performed as soon as the tables take it. -/
theorem run_onPolicies_of_calm (method : StoreMethod) {backend : Backend}
    (hcalm : backend.faults = [])
    {operation : PolicyTables → Except StoreError (α × PolicyTables)} {value : α}
    {policies : PolicyTables} (hdone : operation backend.store.policies = .ok (value, policies)) :
    (meetFault method >>= fun _ => onPolicies operation).run.run backend =
      (.ok value, { backend with store := { backend.store with policies } }) := by
  rw [run_bind, run_meetFault_of_calm method hcalm]
  dsimp only
  rw [run_onPolicies, hdone]

/-- Where no fault is planned, the tables decide. -/
theorem run_createPolicy_of_calm {backend : Backend} (hcalm : backend.faults = []) {policy : Policy}
    {record : RosterRecord} {created : Policy × RosterRecord} {policies : PolicyTables}
    (hcreate : PolicyTables.create policy record backend.store.policies = .ok (created, policies)) :
    (createPolicy policy record).run.run backend =
      (.ok created, { backend with store := { backend.store with policies } }) := by
  unfold createPolicy
  rw [run_bind, run_meetFault_of_calm _ hcalm]
  dsimp only
  rw [if_neg (by decide), run_bind, run_onPolicies, hcreate]
  rfl

/-! ### Calls that look something up -/

/-- The call leaves the store alone.  What it gives is backed by the store (`backed`), and
without planned faults it gives `found`. -/
structure Looks (request : StoreCall α) (backed : Store → α → Prop) (found : Store → α) :
    Prop where
  store (backend : Backend) : (request.run.run backend).2.store = backend.store
  calm (backend : Backend) : backend.faults = [] → (request.run.run backend).2.faults = []
  backed (backend : Backend) (value : α) : (request.run.run backend).1 = .ok value →
    backed backend.store value
  found (backend : Backend) : backend.faults = [] →
    (request.run.run backend).1 = .ok (found backend.store)

/-- What follows a fault decides what a call finds. -/
theorem looks_of_fault (method : StoreMethod) {request : StoreCall α}
    {backed : Store → α → Prop} {found : Store → α} (answer : Fault → Store → α)
    (hrequest : request = do
      let fault ← meetFault method
      pure (answer fault (← get).store))
    (hbacked : ∀ fault store, backed store (answer fault store))
    (hfound : ∀ store, answer .harmless store = found store) : Looks request backed found := by
  have hrun (backend : Backend) : ∃ faults : FaultPlan, (backend.faults = [] → faults = []) ∧
      ((∃ error, backend.faults ≠ [] ∧
        request.run.run backend = (.error error, { backend with faults })) ∨
      ∃ fault, (backend.faults = [] → fault = .harmless) ∧
        request.run.run backend = (.ok (answer fault backend.store), { backend with faults })) := by
    obtain ⟨faults, hfaults, ⟨error, hplanned, hmet⟩ | ⟨fault, hfault, hmet⟩⟩ :=
      meetFault_cases method backend
    · refine ⟨faults, hfaults, .inl ⟨error, hplanned, ?_⟩⟩
      rw [hrequest, run_bind, hmet]
    · refine ⟨faults, hfaults, .inr ⟨fault, hfault, ?_⟩⟩
      rw [hrequest, run_bind, hmet]
      rfl
  -- each of the four facts, for a call that a fault ends and for one that answers
  refine ⟨fun backend => ?_, fun backend hcalm => ?_, fun backend value hvalue => ?_,
    fun backend hcalm => ?_⟩ <;>
    obtain ⟨faults, hfaults, ⟨error, hplanned, heq⟩ | ⟨fault, hfault, heq⟩⟩ := hrun backend
  · rw [heq]
  · rw [heq]
  · rw [heq]
    exact hfaults hcalm
  · rw [heq]
    exact hfaults hcalm
  · rw [heq] at hvalue
    cases hvalue
  · rw [heq] at hvalue
    cases hvalue
    exact hbacked fault backend.store
  · exact absurd hcalm hplanned
  · rw [heq, hfault hcalm, hfound]

/-- What a call finds is there, or it finds nothing. -/
def Backs (look : Store → Option α) (store : Store) (found : Option α) : Prop :=
  ∀ value, found = some value → look store = some value

/-- What is found where an absence may have been planned. -/
def unlessAbsent (absent : α) (look : Store → α) : Fault → Store → α
  | .absence, _ => absent
  | _, store => look store

/-- A search gives what the store has, unless a fault hides it. -/
theorem looks_find (method : StoreMethod) (look : Store → Option α) :
    Looks (find method look) (Backs look) look := by
  apply looks_of_fault method (unlessAbsent none look)
  · unfold find
    congr 1
    funext fault
    cases fault <;> rfl
  · intro fault store value hvalue
    cases fault with
    | absence => cases hvalue
    | harmless | failure | mismatch | rival => exact hvalue
  · intro store
    rfl

/-- The record that is found for a policy where a fault may have been planned. -/
def recordUnlessBent (id : UInt64) : Fault → Store → Option RosterRecord
  | .absence, _ => none
  | .mismatch, _ => some (.empty (id + 1))
  | _, store => store.policies.roster? id

/-- A record that a call gives for a policy is the stored one, or of another policy. -/
theorem looks_rosterOfPolicy (id : UInt64) :
    Looks (rosterOfPolicy id)
      (fun store found => ∀ record, found = some record → record.policyId = id →
        store.policies.roster? id = some record)
      (fun store => store.policies.roster? id) := by
  apply looks_of_fault .rosterOfPolicy (recordUnlessBent id)
  · unfold rosterOfPolicy
    congr 1
    funext fault
    cases fault <;> rfl
  · intro fault store record hrecord hown
    cases fault with
    | absence => cases hrecord
    | mismatch =>
      -- a bent record names the next policy, and numbers do not wrap onto themselves
      cases hrecord
      have : id + 1 = id := hown
      grind
    | harmless | failure | rival => exact hrecord
  · intro store
    rfl

/-- Groups below another one may be hidden by a fault. -/
theorem looks_childGroups (parentId : UInt64) :
    Looks (childGroups parentId) (fun _ _ => True)
      (fun store => store.groups.children parentId) := by
  refine looks_of_fault .childGroups (unlessAbsent [] fun store => store.groups.children parentId)
    ?_ (fun _ _ => trivial) (fun _ => rfl)
  unfold childGroups
  congr 1
  funext fault
  cases fault <;> rfl

theorem looks_allGroups :
    Looks allGroups (fun store found => found = store.groups.all)
      (fun store => store.groups.all) :=
  looks_of_fault .allGroups (fun _ store => store.groups.all) rfl
    (fun _ _ => rfl) (fun _ => rfl)

theorem looks_allRelations :
    Looks allRelations (fun store found => found = store.groups.allRelations)
      (fun store => store.groups.allRelations) :=
  looks_of_fault .allRelations (fun _ store => store.groups.allRelations) rfl
    (fun _ _ => rfl) (fun _ => rfl)

/-- A membership is told as the store has it, if it is told. -/
theorem looks_hasRelation (groupId : UInt64) (asset : Actor) :
    Looks (hasRelation groupId asset)
      (fun store found => found = store.groups.isRelated groupId asset)
      (fun store => store.groups.isRelated groupId asset) :=
  looks_of_fault .hasRelation (fun _ store => store.groups.isRelated groupId asset)
    rfl (fun _ _ => rfl) (fun _ => rfl)

/-! ### Calls that write -/

/-- The call may be preceded by a write of a rival (`slip`), which is impossible without
planned faults.  Then it fails and writes nothing, or it succeeds and has the `effect`. -/
def Writes (request : StoreCall α) (slip : Store → Store → Prop)
    (effect : Store → α → Store → Prop) : Prop :=
  ∀ backend, ∃ (faults : FaultPlan) (middle : Store),
    (backend.faults = [] → faults = [] ∧ middle = backend.store) ∧
    (middle = backend.store ∨ slip backend.store middle) ∧
    ((∃ error, request.run.run backend = (.error error, ⟨middle, faults⟩)) ∨
      ∃ value store, effect middle value store ∧
        request.run.run backend = (.ok value, ⟨store, faults⟩))

/-- A rival that cannot be. -/
abbrev NoRival : Store → Store → Prop := fun _ _ => False

/-- Where no rival can come first, the tables decide and change as a whole. -/
theorem writes_onPolicies (method : StoreMethod)
    (operation : PolicyTables → Except StoreError (α × PolicyTables)) :
    Writes (do
      let _ ← meetFault method
      onPolicies operation) NoRival
      (fun store value store' => ∃ policies,
        operation store.policies = .ok (value, policies) ∧ store' = { store with policies }) := by
  intro backend
  rw [run_bind]
  obtain ⟨faults, hfaults, ⟨error, -, hmet⟩ | ⟨fault, -, hmet⟩⟩ := meetFault_cases method backend <;>
    refine ⟨faults, backend.store, fun h => ⟨hfaults h, rfl⟩, .inl rfl, ?_⟩ <;> rw [hmet]
  · exact .inl ⟨error, rfl⟩
  · dsimp only
    rw [run_onPolicies]
    dsimp only
    rcases operation backend.store.policies with error | ⟨value, policies⟩
    · exact .inl ⟨error, rfl⟩
    · exact .inr ⟨value, _, ⟨policies, rfl, rfl⟩, rfl⟩

theorem writes_onGroups (method : StoreMethod)
    (operation : GroupTables → Except StoreError (α × GroupTables)) :
    Writes (do
      let _ ← meetFault method
      onGroups operation) NoRival
      (fun store value store' => ∃ groups,
        operation store.groups = .ok (value, groups) ∧ store' = { store with groups }) := by
  intro backend
  rw [run_bind]
  obtain ⟨faults, hfaults, ⟨error, -, hmet⟩ | ⟨fault, -, hmet⟩⟩ := meetFault_cases method backend <;>
    refine ⟨faults, backend.store, fun h => ⟨hfaults h, rfl⟩, .inl rfl, ?_⟩ <;> rw [hmet]
  · exact .inl ⟨error, rfl⟩
  · dsimp only
    rw [run_onGroups]
    dsimp only
    rcases operation backend.store.groups with error | ⟨value, groups⟩
    · exact .inl ⟨error, rfl⟩
    · exact .inr ⟨value, _, ⟨groups, rfl, rfl⟩, rfl⟩

theorem writes_updatePolicy (policy : Policy) (update : RosterUpdate) :
    Writes (updatePolicy policy update) NoRival (fun store _ store' => ∃ policies,
      PolicyTables.update policy update store.policies = .ok ((), policies) ∧
        store' = { store with policies }) :=
  writes_onPolicies _ _

theorem writes_deletePolicy (id : UInt64) :
    Writes (deletePolicy id) NoRival (fun store _ store' => ∃ policies,
      PolicyTables.delete id store.policies = .ok ((), policies) ∧
        store' = { store with policies }) :=
  writes_onPolicies _ _

theorem writes_deleteGroup (id : UInt64) :
    Writes (deleteGroup id) NoRival (fun store _ store' => ∃ groups,
      GroupTables.delete id store.groups = .ok ((), groups) ∧ store' = { store with groups }) :=
  writes_onGroups _ _

theorem writes_createRelation (groupId : UInt64) (asset : Actor) :
    Writes (createRelation groupId asset) NoRival (fun store _ store' => ∃ groups,
      GroupTables.relate groupId asset store.groups = .ok ((), groups) ∧
        store' = { store with groups }) :=
  writes_onGroups _ _

/-- A membership can be removed whether or not it is there. -/
theorem writes_deleteRelation (groupId : UInt64) (asset : Actor) :
    Writes (deleteRelation groupId asset) NoRival (fun store _ store' => store' =
      { store with groups := { store.groups with
          relations := store.groups.relations.erase ⟨groupId, asset⟩ } }) := by
  intro backend
  obtain ⟨faults, middle, hcalm, hslip, herror | ⟨value, store, ⟨groups, hgroups, rfl⟩, hrun⟩⟩ :=
    writes_onGroups .deleteRelation (GroupTables.unrelate groupId asset) backend
  · exact ⟨faults, middle, hcalm, hslip, .inl herror⟩
  · cases hgroups
    exact ⟨faults, middle, hcalm, hslip, .inr ⟨(), _, rfl, hrun⟩⟩

/-- A new policy comes back with its record, unless a fault has bent the record: then it
names another policy. -/
theorem writes_createPolicy (policy : Policy) (record : RosterRecord) :
    Writes (createPolicy policy record)
      (fun store middle => ∃ rival stored policies, rival.id = policy.id ∧
        rival.parentId = policy.parentId ∧ (policy.Proper → rival.Proper) ∧
          PolicyTables.create rival (.empty 0) store.policies = .ok (stored, policies) ∧
            middle = { store with policies })
      (fun store created store' => ∃ storedRecord policies,
        PolicyTables.create policy record store.policies =
          .ok ((created.1, storedRecord), policies) ∧
        store' = { store with policies } ∧
        (created.2.policyId = created.1.id → created.2 = storedRecord)) := by
  intro backend
  unfold createPolicy
  rw [run_bind]
  obtain ⟨faults, hfaults, ⟨error, -, hmet⟩ | ⟨fault, hfault, hmet⟩⟩ :=
    meetFault_cases .createPolicy backend <;> rw [hmet]
  · exact ⟨faults, backend.store, fun h => ⟨hfaults h, rfl⟩, .inl rfl, .inl ⟨error, rfl⟩⟩
  dsimp only
  by_cases hrival : fault = .rival
  · -- the rival's own attempt may fail, and ends the call then
    rw [if_pos hrival, run_bind, run_onPolicies]
    dsimp only
    rcases hslip : PolicyTables.create { policy with key := some "rival" } (.empty 0)
      backend.store.policies with error | ⟨stored, policies⟩
    · exact ⟨faults, backend.store, fun h => ⟨hfaults h, rfl⟩, .inl rfl, .inl ⟨error, rfl⟩⟩
    refine ⟨faults, { backend.store with policies }, fun h => ?_, .inr
      ⟨{ policy with key := some "rival" }, stored, policies, rfl, rfl,
        fun h => h.withKey (by decide), hslip, rfl⟩, ?_⟩
    · rw [hfault h] at hrival
      cases hrival
    dsimp only
    rw [run_bind, run_onPolicies]
    dsimp only
    rcases PolicyTables.create policy record policies with error | ⟨⟨created, record'⟩, policies'⟩
    · exact .inl ⟨error, rfl⟩
    · subst hrival
      exact .inr ⟨(created, record'), _, ⟨record', policies', rfl, rfl, fun _ => rfl⟩, rfl⟩
  -- no rival: all that can still go wrong is the record that comes back
  · rw [if_neg hrival, run_bind, run_onPolicies]
    refine ⟨faults, backend.store, fun h => ⟨hfaults h, rfl⟩, .inl rfl, ?_⟩
    dsimp only
    rcases PolicyTables.create policy record backend.store.policies with
      error | ⟨⟨created, record'⟩, policies'⟩
    · exact .inl ⟨error, rfl⟩
    dsimp only
    by_cases hmismatch : fault = .mismatch
    · rw [if_pos hmismatch]
      refine .inr ⟨(created, { record' with policyId := created.id + 1 }), _,
        ⟨record', policies', rfl, rfl, fun h => ?_⟩, rfl⟩
      have : created.id + 1 = created.id := h
      grind
    · rw [if_neg hmismatch]
      exact .inr ⟨(created, record'), _, ⟨record', policies', rfl, rfl, fun _ => rfl⟩, rfl⟩

/-- A rival may store a group of the same kind first, and only then is the own one stored
or refused. -/
theorem writes_upsertGroup (group : Group) :
    Writes (upsertGroup group)
      (fun store middle => ∃ rival stored groups, rival.id = 0 ∧ rival.parentId = 0 ∧
        rival.kind? = group.kind? ∧
          GroupTables.upsert rival store.groups = .ok (stored, groups) ∧
            middle = { store with groups })
      (fun store stored store' => ∃ groups,
        GroupTables.upsert group store.groups = .ok (stored, groups) ∧
          store' = { store with groups }) := by
  intro backend
  unfold upsertGroup
  rw [run_bind]
  obtain ⟨faults, hfaults, ⟨error, -, hmet⟩ | ⟨fault, hfault, hmet⟩⟩ :=
    meetFault_cases .upsertGroup backend <;> rw [hmet]
  · exact ⟨faults, backend.store, fun h => ⟨hfaults h, rfl⟩, .inl rfl, .inl ⟨error, rfl⟩⟩
  dsimp only
  by_cases hrival : fault = .rival
  · -- the rival's group is refused, and so is the own one, or it is stored first
    rw [if_pos hrival, run_bind, run_onGroups]
    dsimp only
    rcases hslip : GroupTables.upsert { group with id := 0, parentId := 0 } backend.store.groups
      with error | ⟨stored, groups⟩
    · exact ⟨faults, backend.store, fun h => ⟨hfaults h, rfl⟩, .inl rfl, .inl ⟨error, rfl⟩⟩
    refine ⟨faults, { backend.store with groups }, fun h => ?_, .inr
      ⟨{ group with id := 0, parentId := 0 }, stored, groups, rfl, rfl, rfl, hslip, rfl⟩, ?_⟩
    · rw [hfault h] at hrival
      cases hrival
    dsimp only
    rw [run_onGroups]
    dsimp only
    rcases GroupTables.upsert group groups with error | ⟨stored', groups'⟩
    · exact .inl ⟨error, rfl⟩
    · exact .inr ⟨stored', _, ⟨groups', rfl, rfl⟩, rfl⟩
  · rw [if_neg hrival, run_onGroups]
    refine ⟨faults, backend.store, fun h => ⟨hfaults h, rfl⟩, .inl rfl, ?_⟩
    dsimp only
    rcases GroupTables.upsert group backend.store.groups with error | ⟨stored, groups⟩
    · exact .inl ⟨error, rfl⟩
    · exact .inr ⟨stored, _, ⟨groups, rfl, rfl⟩, rfl⟩

end Backend

end AccessRights
