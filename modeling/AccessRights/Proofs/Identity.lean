/-
AccessRights/Proofs/Identity.lean

What policies and groups keep from their creation to their deletion.

A policy keeps its number, its key, its object and its age, a group its number, its
kind and its age.  The store itself would let a writer change all of them but the
number: it is the nodes that compare what they are given with what they have
indexed.  What they have indexed may be outdated, but not in this (`Node.Sound`),
so that each version that is stored agrees with the one before (`Store.Later`).

Numbers are handed out in ascending order.  What was not stored at one moment and is
at a later one has a number that is greater than all numbers from before, so a row
that is gone does not come back, and no number is given to two rows.

Main results: `Reachable.later_run`, `Reachable.nodup_assigned`, `createPolicy_mints`,
`createGroup_mints` and `Reachable.identified`.
-/
import AccessRights.Proofs.Moves

namespace AccessRights

/-! ### Versions of a row -/

/-- Two versions of one policy. -/
structure Policy.SameAs (policy other : Policy) : Prop where
  id : policy.id = other.id
  key : policy.key = other.key
  object : policy.object = other.object
  createdAt : policy.createdAt = other.createdAt

/-- Two versions of one group. -/
structure Group.SameAs (group other : Group) : Prop where
  id : group.id = other.id
  kind : group.kind? = other.kind?
  createdAt : group.createdAt = other.createdAt

namespace Store

variable {store later : Store} {id : UInt64}

/-- What is stored under the number of a stored policy at a later moment is that policy. -/
theorem Later.samePolicy (h : store.Later later) (hsound : store.Sound) (hsound' : later.Sound)
    {policy found : Policy} (hpolicy : store.policies.byId? id = some policy)
    (hfound : later.policies.byId? id = some found) : found.SameAs policy := by
  obtain ⟨hid, -, hold⟩ := hsound.policies.policy hpolicy
  obtain ⟨before, hbefore, hkey, hobject, hage⟩ | hnew := h.policies.policy hfound
  · cases hbefore.symm.trans hpolicy
    exact ⟨(hsound'.policies.policy hfound).1.trans hid.symm, hkey, hobject, hage⟩
  · exact absurd hold (UInt64.not_le.2 hnew)

theorem Later.sameGroup (h : store.Later later) (hsound : store.Sound) (hsound' : later.Sound)
    {group found : Group} (hgroup : store.groups.byId? id = some group)
    (hfound : later.groups.byId? id = some found) : found.SameAs group := by
  obtain ⟨hid, -, hold⟩ := hsound.groups.group hgroup
  obtain ⟨before, hbefore, hkind, hage⟩ | hnew := h.groups.group hfound
  · cases hbefore.symm.trans hgroup
    exact ⟨(hsound'.groups.group hfound).1.trans hid.symm, hkind, hage⟩
  · exact absurd hold (UInt64.not_le.2 hnew)

end Store

/-! ### New numbers -/

/-- The numbers that have a row in the second table, and none in the first. -/
def Table.fresh {Row : Type} (before after : Table Row) : List UInt64 :=
  after.keys.filter fun id => before[id]?.isNone

theorem Table.mem_fresh {Row : Type} {before after : Table Row} {id : UInt64} :
    id ∈ before.fresh after ↔ before[id]? = none ∧ ∃ row, after[id]? = some row := by
  unfold fresh
  rw [List.mem_filter, Std.ExtTreeMap.mem_keys, Std.ExtTreeMap.mem_iff_isSome_getElem?,
    Option.isSome_iff_exists, Option.isNone_iff_eq_none, and_comm]

theorem Table.nodup_fresh {Row : Type} (before after : Table Row) : (before.fresh after).Nodup :=
  List.Pairwise.filter _ Std.ExtTreeMap.nodup_keys

namespace Store

/-- Every number in the table was handed out, and a row that was not there before has a number
that was not. -/
structure Ascending {Row : Type} (table : Store → Table Row) (lastId : Store → UInt64) : Prop where
  lastId_le {store later : Store} : store.Later later → lastId store ≤ lastId later
  le_lastId {store : Store} {id : UInt64} {row : Row} : store.Sound →
    (table store)[id]? = some row → id ≤ lastId store
  lt_of_new {store later : Store} {id : UInt64} {row : Row} : store.Later later →
    (table store)[id]? = none → (table later)[id]? = some row → lastId store < id

theorem ascending_policies : Ascending (·.policies.policies) (·.policies.lastId) where
  lastId_le h := h.policies.lastId
  le_lastId hsound hrow := (hsound.policies.policy hrow).2.2
  lt_of_new h hnone hrow := by
    obtain ⟨before, hbefore, -⟩ | hnew := h.policies.policy hrow
    · cases hbefore.symm.trans hnone
    · exact hnew

theorem ascending_groups : Ascending (·.groups.groups) (·.groups.lastId) where
  lastId_le h := h.groups.lastId
  le_lastId hsound hrow := (hsound.groups.group hrow).2.2
  lt_of_new h hnone hrow := by
    obtain ⟨before, hbefore, -⟩ | hnew := h.groups.group hrow
    · cases hbefore.symm.trans hnone
    · exact hnew

variable {Row : Type} {table : Store → Table Row} {lastId : Store → UInt64}
  {store later last : Store}

/-- A row that is stored at two moments is stored at every moment between. -/
theorem Ascending.between (h : Ascending table lastId) (hlater : store.Later later)
    (hlater' : later.Later last) (hsound : store.Sound) {id : UInt64} {row found : Row}
    (hrow : (table store)[id]? = some row) (hfound : (table last)[id]? = some found) :
    ∃ between, (table later)[id]? = some between := by
  refine Option.ne_none_iff_exists'.1 fun hnone => ?_
  have hnew := h.lt_of_new hlater' hnone hfound
  exact UInt64.not_le.2 hnew (UInt64.le_trans (h.le_lastId hsound hrow) (h.lastId_le hlater))

theorem Ascending.fresh (h : Ascending table lastId) (hlater : store.Later later)
    (hsound : later.Sound) {id : UInt64} (hid : id ∈ (table store).fresh (table later)) :
    lastId store < id ∧ id ≤ lastId later := by
  obtain ⟨hnone, row, hrow⟩ := Table.mem_fresh.1 hid
  exact ⟨h.lt_of_new hlater hnone hrow, h.le_lastId hsound hrow⟩

end Store

namespace Cluster

variable {Row : Type} {cluster : Cluster} {moves : List Move} {table : Store → Table Row}
  {lastId : Store → UInt64}

/-- From one moment of a run to a later one, rows keep what they keep. -/
theorem Reachable.later_run (h : cluster.Reachable) (hroomy : cluster.Roomy moves) :
    cluster.backend.store.Later (cluster.run moves).backend.store := by
  have hlasting : Lasting cluster.backend.store.Later (fun _ => True) fun _ => True :=
    { blank := fun _ => trivial
      event := fun hevent hsound hroom hlater _ =>
        ⟨hlater.trans (hevent.sound hsound hroom).2, trivial⟩
      step := fun _ _ _ => trivial }
  have hstart : cluster.Throughout cluster.backend.store.Later fun _ => True :=
    ⟨.refl _, fun _ => trivial⟩
  refine (hstart.run hlasting h hroomy fun move _ => ?_).store
  cases move <;> trivial

theorem Reachable.later_move (h : cluster.Reachable) (move : Move)
    (hroom : cluster.backend.store.HasRoom move.needs) :
    cluster.backend.store.Later (cluster.move move).backend.store := by
  have hroomy : cluster.Roomy [move] := ⟨hroom, trivial⟩
  exact h.later_run hroomy

/-- The numbers under which a table gets new rows in the course of a run, a move at a time. -/
def assigned (table : Store → Table Row) : Cluster → List Move → List UInt64
  | _, [] => []
  | cluster, move :: moves =>
    (table cluster.backend.store).fresh (table (cluster.move move).backend.store) ++
      assigned table (cluster.move move) moves

theorem Reachable.lt_of_mem_assigned (h : cluster.Reachable)
    (hascending : Store.Ascending table lastId) (hroomy : cluster.Roomy moves) {id : UInt64}
    (hid : id ∈ cluster.assigned table moves) : lastId cluster.backend.store < id := by
  induction moves generalizing cluster with
  | nil => cases hid
  | cons move moves ih =>
    have hlater := h.later_move move hroomy.1
    have hmoved := h.move move hroomy.1
    obtain hfresh | hrest := List.mem_append.1 hid
    · exact (hascending.fresh hlater hmoved.sound.store hfresh).1
    · exact UInt64.lt_of_le_of_lt (hascending.lastId_le hlater) (ih hmoved hroomy.2 hrest)

/-- No number is given twice. -/
theorem Reachable.nodup_assigned (h : cluster.Reachable)
    (hascending : Store.Ascending table lastId) (hroomy : cluster.Roomy moves) :
    (cluster.assigned table moves).Nodup := by
  induction moves generalizing cluster with
  | nil => exact List.nodup_nil
  | cons move moves ih =>
    have hmoved := h.move move hroomy.1
    refine List.nodup_append.2 ⟨Table.nodup_fresh _ _, ih hmoved hroomy.2, ?_⟩
    -- the counter has passed what the first move assigns
    rintro id hfresh other hother rfl
    have hle := (hascending.fresh (h.later_move move hroomy.1) hmoved.sound.store hfresh).2
    exact UInt64.not_le.2 (hmoved.lt_of_mem_assigned hascending hroomy.2 hother) hle

end Cluster

/-! ### Creations -/

namespace Call

variable {α Row : Type} {table : Store → Table Row} {lastId : Store → UInt64}
  {number : Row → UInt64} {site : Site}

/-- The row that the call gives is stored by then, under a number that was not handed out
before. -/
def Mints (table : Store → Table Row) (lastId : Store → UInt64) (number : Row → UInt64)
    (call : Call Row) (site : Site) : Prop :=
  ∀ row, (call.perform site).1 = .ok row → lastId site.backend.store < number row ∧
    (table (call.perform site).2.backend.store)[number row]? = some row

/-- Reading first takes no numbers. -/
theorem Reads.bind_mints {call : Call α} {next : α → Call Row} {mid : α → Site → Prop}
    (h : call.Reads site mid) (hkeyed : site.Keyed)
    (hnext : ∀ value after, site.Learns after → after.Keyed → mid value after →
      (next value).Mints table lastId number after) :
    (call >>= next).Mints table lastId number site := by
  refine h.bind_ends (fun run => ∀ row, run.1 = .ok row → lastId site.backend.store < number row ∧
    (table run.2.backend.store)[number row]? = some row) hkeyed ?_ ?_
  · intro error after _ row hrow
    cases hrow
  · intro value after hlearns hkeyed' hvalue
    rw [← hlearns.still.store]
    exact hnext value after hlearns hkeyed' hvalue

end Call

namespace Site

open Call

variable {site : Site}

/-- A draft that is stored gets a new number. -/
theorem storeDraft_mints (hsound : site.Sound) (hroom : site.backend.store.HasRoom 2)
    {draft : Policy} (hnew : draft.id = 0) (hproper : draft.Proper)
    (hplaced : draft.parentId = 0 ∨
      ∃ parent, site.node.recalled.policy? draft.parentId = some parent) :
    (storeDraft draft).Mints (·.policies.policies) (·.policies.lastId) Policy.id site := by
  obtain ⟨k, middle, hk, -, hmet, -, hcases⟩ :=
    storeNewPolicy_cases False hsound hroom hnew hplaced hproper
  have hlater := (hmet.sound hsound (hroom.mono (by omega))).2
  have hmiddle : middle.backend.store.HasRoom 1 := hmet.hasRoom (hroom.mono (by omega))
  unfold storeDraft
  intro policy
  rw [perform_bind]
  obtain ⟨error, after, -, hrun⟩ | ⟨stored, storedRecord, record, policies, hcreate, -, hrun⟩ :=
    hcases <;> rw [hrun]
  · intro hpolicy
    cases hpolicy
  obtain ⟨-, rfl, -, rfl⟩ := PolicyTables.create_eq_ok hcreate
  dsimp only
  split
  · intro hpolicy
    cases hpolicy
  · -- a rival may have taken a number before
    rintro ⟨⟩
    refine ⟨UInt64.lt_of_le_of_lt hlater.policies.lastId (lt_next hmiddle.policies), ?_⟩
    exact (PolicyTables.policies_put _ _ (.empty 0) _).trans (if_pos rfl)

/-- A policy that is created is stored under a new number. -/
theorem createPolicy_mints (hsound : site.Sound) (hroom : site.backend.store.HasRoom 2)
    (now : Timestamp) (key : Option String) (ownerId parentId : UInt64)
    (object : Option PolicyObject) (flags : PolicyFlags) :
    (createPolicy now key ownerId parentId object flags).Mints (·.policies.policies)
      (·.policies.lastId) Policy.id site := by
  rw [createPolicy_eq]
  apply (reads_policyToCreate hsound.keyed now key ownerId parentId object flags).bind_mints
    hsound.keyed
  rintro draft after hlearns _ ⟨hnew, hproper, hplaced⟩
  exact storeDraft_mints (hlearns.sound hsound) (hlearns.still.store ▸ hroom) hnew hproper hplaced

/-- A group without a number that is stored gets a new one. -/
theorem storeGroup_mints (hsound : site.Sound) (hroom : site.backend.store.HasRoom 2)
    (wrap : StoreError → AccessError) {group : Group} (hnew : group.id = 0)
    (hplaced : site.node.Places group) :
    (storeGroup wrap group).Mints (·.groups.groups) (·.groups.lastId) Group.id site := by
  obtain ⟨faults, middle, hcalm, hslip, hcases⟩ :=
    ask_cases (Backend.writes_upsertGroup group) wrap site
  obtain ⟨k, hk, -, hmet⟩ := met_passes False hcalm hslip (by
    rintro ⟨rival, stored, groups, hnew, hroot, hkind, hupsert, rfl⟩
    exact .groupSlippedIn hnew hupsert (hkind ▸ hplaced.kind) hroot)
  have hlater := (hmet.sound hsound (hroom.mono (by omega))).2
  have hmiddle : middle.HasRoom 1 := hmet.hasRoom (hroom.mono (by omega))
  unfold storeGroup
  intro created
  rw [perform_bind]
  obtain ⟨error, hrun⟩ | ⟨stored, store, ⟨groups, hupsert, rfl⟩, hrun⟩ := hcases <;> rw [hrun]
  · intro hcreated
    cases hcreated
  · rintro ⟨⟩
    -- the rival may have taken a number before, so the own one is even further up
    obtain ⟨-, rfl, -⟩ | ⟨hold, -⟩ := GroupTables.upsert_eq_ok hupsert
    · refine ⟨UInt64.lt_of_le_of_lt hlater.groups.lastId (lt_next hmiddle.groups), ?_⟩
      exact (GroupTables.groups_of_upsert hupsert _).trans (if_pos rfl)
    · exact absurd hnew hold

/-- A group that is created is stored under a new number. -/
theorem createGroup_mints (hsound : site.Sound) (hroom : site.backend.store.HasRoom 2)
    (now : Timestamp) (flags : GroupFlags) (parentId : UInt64) (key displayName : String) :
    (createGroup now flags parentId key displayName).Mints (·.groups.groups) (·.groups.lastId)
      Group.id site := by
  rw [createGroup_eq]
  apply (reads_groupToCreate hsound.keyed now flags parentId key displayName).bind_mints hsound.keyed
  rintro group last hlearns _ ⟨hnew, hplaces⟩
  exact storeGroup_mints (hlearns.sound hsound) (hlearns.still.store ▸ hroom) _ hnew hplaces

end Site

/-! ### Rows in the course of a run -/

namespace Cluster

open Site

variable {cluster after : Cluster} {moves : List Move} {number : Nat} {now : Timestamp}

/-- The number of what a node has created is new. -/
theorem Reachable.fresh_of_mints {Row : Type} {table : Store → Table Row}
    {lastId : Store → UInt64} {idOf : Row → UInt64} {call : Call Row} {make : Row → Reply}
    {reply : Reply} (h : cluster.Reachable) (hascending : Store.Ascending table lastId)
    (hmints : ∀ site : Site, site.Sound → site.backend.store.HasRoom 2 →
      call.Mints table lastId idOf site) (hroom : cluster.backend.store.HasRoom 2)
    (hdone : cluster.onNode? number (call >>= fun row => pure (make row)) =
      some (.ok reply, after)) :
    ∃ row, reply = make row ∧
      idOf row ∈ (table cluster.backend.store).fresh (table after.backend.store) := by
  obtain ⟨node, hnode, hreply, rfl⟩ := onNode?_eq_some_iff.1 hdone
  rw [Call.perform_bind_pure] at hreply ⊢
  have hminted := hmints ⟨node, cluster.backend⟩ (h.site_sound hnode) hroom
  unfold Call.Mints at hminted
  generalize call.perform ⟨node, cluster.backend⟩ = run at hreply hminted ⊢
  obtain ⟨error | row, site⟩ := run
  · cases hreply
  · cases hreply
    obtain ⟨hnew, hrow⟩ := hminted row rfl
    refine ⟨row, rfl, Table.mem_fresh.2 ⟨?_, row, hrow⟩⟩
    refine Option.eq_none_iff_forall_ne_some.2 fun before hbefore => ?_
    exact UInt64.not_le.2 hnew (hascending.le_lastId h.sound.store hbefore)

/-- From any moment of a run on, a policy keeps its number, key, object and age for as long as it is
stored, and a group its number, kind and age.  What is gone does not come back.  No number of a
policy is given to another one, nor one of a group, and what a node creates gets such a number. -/
theorem Reachable.identified (h : cluster.Reachable) {first rest : List Move}
    (hroomy : cluster.Roomy (first ++ rest)) :
    (∀ id policy last, cluster.backend.store.policies.byId? id = some policy →
      (cluster.run (first ++ rest)).backend.store.policies.byId? id = some last →
        ∃ between, (cluster.run first).backend.store.policies.byId? id = some between ∧
          between.SameAs policy ∧ last.SameAs policy) ∧
    (∀ id group last, cluster.backend.store.groups.byId? id = some group →
      (cluster.run (first ++ rest)).backend.store.groups.byId? id = some last →
        ∃ between, (cluster.run first).backend.store.groups.byId? id = some between ∧
          between.SameAs group ∧ last.SameAs group) ∧
    (cluster.assigned (·.policies.policies) (first ++ rest)).Nodup ∧
    (cluster.assigned (·.groups.groups) (first ++ rest)).Nodup ∧
    (cluster.backend.store.HasRoom 2 → ∀ number now key ownerId parentId object flags reply after,
      cluster.onNode? number (answer now (.createPolicy key ownerId parentId object flags)) =
          some (.ok reply, after) →
        ∃ policy, reply = .policy policy ∧ policy.id ∈
          cluster.backend.store.policies.policies.fresh after.backend.store.policies.policies) ∧
    (cluster.backend.store.HasRoom 2 → ∀ number now flags parentId key displayName reply after,
      cluster.onNode? number (answer now (.createGroup flags parentId key displayName)) =
          some (.ok reply, after) →
        ∃ group, reply = .group group ∧ group.id ∈
          cluster.backend.store.groups.groups.fresh after.backend.store.groups.groups) := by
  obtain ⟨hfirst, hrest⟩ := roomy_append.1 hroomy
  have hbetween := h.run_of_roomy hfirst
  have hlast := hbetween.run_of_roomy hrest
  have hlater := h.later_run hfirst
  have hlater' := hbetween.later_run hrest
  have hwhole := hlater.trans hlater'
  refine ⟨?_, ?_, h.nodup_assigned Store.ascending_policies hroomy,
    h.nodup_assigned Store.ascending_groups hroomy, ?_, ?_⟩
  · rw [run_append]
    intro id policy last hpolicy hfound
    obtain ⟨between, hmiddle⟩ :=
      Store.ascending_policies.between hlater hlater' h.sound.store hpolicy hfound
    exact ⟨between, hmiddle, hlater.samePolicy h.sound.store hbetween.sound.store hpolicy hmiddle,
      hwhole.samePolicy h.sound.store hlast.sound.store hpolicy hfound⟩
  · rw [run_append]
    intro id group last hgroup hfound
    obtain ⟨between, hmiddle⟩ :=
      Store.ascending_groups.between hlater hlater' h.sound.store hgroup hfound
    exact ⟨between, hmiddle, hlater.sameGroup h.sound.store hbetween.sound.store hgroup hmiddle,
      hwhole.sameGroup h.sound.store hlast.sound.store hgroup hfound⟩
  · intro hroom number now key ownerId parentId object flags reply after hdone
    exact h.fresh_of_mints Store.ascending_policies
      (fun _ hsound hroom => createPolicy_mints hsound hroom now key ownerId parentId object flags)
      hroom hdone
  · intro hroom number now flags parentId key displayName reply after hdone
    exact h.fresh_of_mints Store.ascending_groups
      (fun _ hsound hroom => createGroup_mints hsound hroom now flags parentId key displayName)
      hroom hdone

/-- Two nodes over a store with two policies. -/
def noted : Cluster :=
  run {} [.launch {}, .launch {},
    .answer 0 default (.createPolicy (some "page") 1 0 none .empty),
    .answer 0 default (.createPolicy (some "note") 1 0 none .empty)]

theorem reachable_noted : noted.Reachable :=
  Reachable.empty.run ⟨by decide +kernel, by decide +kernel⟩

/-- One node deletes a policy. -/
def dropping : List Move :=
  [.answer 0 default (.deletePolicy 2)]

/-- The other one creates it anew, under the next number, and hangs the first policy below it. -/
def redoing : List Move :=
  [.answer 1 default (.createPolicy (some "note") 1 0 none .empty), .answer 1 default (.movePolicy 1 3)]

theorem identified_noted :
    (∃ page last, noted.backend.store.policies.byId? 1 = some page ∧
      (noted.run (dropping ++ redoing)).backend.store.policies.byId? 1 = some last ∧
      last.parentId = 3 ∧ last.SameAs page) ∧
    noted.assigned (·.policies.policies) (dropping ++ redoing) = [3] := by
  have hroomy : noted.Roomy (dropping ++ redoing) :=
    reachable_noted.roomy ⟨by decide +kernel, by decide +kernel⟩
  obtain ⟨hkept, -⟩ := reachable_noted.identified hroomy
  have hpage : (noted.backend.store.policies.byId? 1).isSome = true := by decide +kernel
  have hmoved : ((noted.run (dropping ++ redoing)).backend.store.policies.byId? 1).map
      Policy.parentId = some 3 := by decide +kernel
  obtain ⟨page, hpage⟩ := Option.isSome_iff_exists.1 hpage
  obtain ⟨last, hlast, hparent⟩ := Option.map_eq_some_iff.1 hmoved
  obtain ⟨-, -, -, hsame⟩ := hkept 1 page last hpage hlast
  exact ⟨⟨page, last, hpage, hlast, hparent, hsame⟩, by decide +kernel⟩

end Cluster

end AccessRights
