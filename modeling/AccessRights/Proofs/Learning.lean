/-
AccessRights/Proofs/Learning.lean

What a node knows, what it could find out, and how it learns.

A site answers the questions of a resolution in two ways.  `Node.recalled` is
what the node has in memory already; `Site.view` is what it would find with
the help of a store that does not fail.  Between the two lies learning: a
policy, a group or a roster is taken in from the store, a roster remembers
the answer to a look-up, an answer is cached.  `Site.Learn` lists these
steps.  Reading calls do nothing else, so what holds along learning holds of
every one of them.

Learning adds to what is recalled and takes nothing away, but it does not
change the view: whether a call has read something before makes no difference
to what it would find.

Main results: `Learns.view_eq`, `Learns.recalled_le` and
`Learns.roster?_within`.
-/
import AccessRights.Proofs.Index
import AccessRights.Proofs.Roster
import Mathlib.Data.List.Basic

namespace AccessRights

/-! ### What a node recalls -/

/-- The numbers of the groups and roles that an actor is a member of.  A membership counts if the
group is known and flagged as a group or as a role. -/
def GroupIndex.joined (index : GroupIndex) (actor : Actor) : List UInt64 :=
  (index.groupsOf actor).toList.filterMap fun id => (index.group? id).bind fun group =>
    if group.flags.meets .group ∨ group.flags.meets .role then some group.id else none

/-- They are the groups that an index lists for the actor. -/
theorem GroupIndex.joined_eq (index : GroupIndex) (actor : Actor) :
    index.joined actor = (index.groupsByAsset .anyKind actor).map Group.id := by
  -- the mask asks for the two flags at once
  have hmeets (group : Group) : (group.flags.meets .group ∨ group.flags.meets .role) ↔
      group.flags.meets (GroupFlags.anyKind.inter .anyKind) = true := by
    have hboth : (GroupFlags.anyKind.inter .anyKind).bits =
        GroupFlags.group.bits ||| GroupFlags.role.bits := rfl
    simp only [GroupFlags.meets, GroupFlags.inter, bne_iff_ne, ne_eq] at hboth ⊢
    rw [hboth, BitVec.and_or_distrib_left]
    exact Decidable.not_and_iff_not_or_not.symm.trans (not_congr BitVec.or_eq_zero_iff.symm)
  unfold joined groupsByAsset
  simp only [hmeets]
  induction (index.groupsOf actor).toList with
  | nil => rfl
  | cons id ids ih =>
    rw [List.filterMap_cons, List.filterMap_cons]
    cases index.group? id with
    | none => exact ih
    | some group =>
      dsimp only [Option.bind_some]
      rw [List.filter_cons]
      by_cases hflagged : group.flags.meets (GroupFlags.anyKind.inter .anyKind) = true
      · rw [if_pos hflagged, if_pos hflagged, List.map_cons, ih]
      · rw [if_neg hflagged, if_neg hflagged]
        exact ih

/-- What a node answers from memory, learning nothing by it. -/
def Node.recalled (node : Node) : View where
  policy? id := if id = 0 then none else node.policies.policy? id
  everyone? id := if id = 0 then none else node.rosters[id]?.map Roster.everyone
  cell? id actor := if id = 0 then none else node.rosters[id]?.bind fun roster => roster.recalled? actor
  group? id := if id = 0 then none else node.groups.group? id
  groupsOf actor := node.groups.joined actor

/-- The cache of a node holds nothing that is yet to come, and until the counter has come round
every current entry repeats what the node recalls. -/
structure Node.Faithful (node : Node) : Prop where
  stamp {cache : RightsCache} {question : RightsQuestion} {entry : CachedRights} :
    node.cache = some cache → cache.entries[question]? = some entry →
    entry.generation.toNat ≤ node.changes
  current {cache : RightsCache} {question : RightsQuestion} {entry : CachedRights} :
    node.changes < UInt64.size →
    node.cache = some cache → cache.entries[question]? = some entry →
    entry.generation = node.generation →
    node.recalled.Effective question.actor question.policyId entry.rights

/-- What is served from the cache can be trusted: the cache is faithful, and the counter has not
come round. -/
structure Node.Trusted (node : Node) : Prop where
  faithful : node.Faithful
  exact : node.changes < UInt64.size

/-- The node has an answer to a question: the rules derive it from what is recalled, or it is in
the cache, be it outdated or not. -/
inductive Node.Holds (node : Node) (question : RightsQuestion) : Rights → Prop
  | recalled {rights : Rights}
      (effective : node.recalled.Effective question.actor question.policyId rights) :
      Holds node question rights
  | cached {cache : RightsCache} {entry : CachedRights} (present : node.cache = some cache)
      (answered : cache.entries[question]? = some entry) : Holds node question entry.rights

/-- A cache stays faithful while the count of changes stands and more is recalled. -/
theorem Node.Faithful.mono {node other : Node} (h : node.Faithful)
    (hcache : other.cache = node.cache) (hchanges : other.changes = node.changes)
    (hle : node.recalled.Le other.recalled) : other.Faithful where
  stamp hc hentry := by
    rw [hchanges]
    exact h.stamp (hcache ▸ hc) hentry
  current hbound hc hentry hnow := by
    have hgeneration : other.generation = node.generation := congrArg Generation.after hchanges
    rw [hchanges] at hbound
    exact (h.current hbound (hcache ▸ hc) hentry (hnow.trans hgeneration)).mono hle

/-- A cache is faithful once a change has been counted after all its entries. -/
theorem Node.Faithful.of_lt {node other : Node} (h : node.Faithful)
    (hcache : other.cache = node.cache) (hchanges : node.changes < other.changes) :
    other.Faithful where
  stamp hc hentry := Nat.le_of_lt (Nat.lt_of_le_of_lt (h.stamp (hcache ▸ hc) hentry) hchanges)
  current hbound hc hentry hnow := by
    -- an entry from before the change shows less than the counter does now
    have hold := Nat.lt_of_le_of_lt (h.stamp (hcache ▸ hc) hentry) hchanges
    rw [hnow, Node.generation, Generation.toNat_after hbound] at hold
    exact absurd hold (Nat.lt_irrefl _)

/-- A faithful cache stays so when an answer is looked up. -/
theorem Node.Faithful.get {node : Node} (h : node.Faithful) {cache : RightsCache}
    (hcache : node.cache = some cache) (question : RightsQuestion) :
    { node with cache := some (cache.get node.generation question).2 : Node }.Faithful where
  stamp := by
    rintro _ _ _ ⟨⟩ hentry
    exact h.stamp hcache (RightsCache.entry_of_entries_get hentry)
  current := by
    rintro _ _ _ hbound ⟨⟩ hentry hnow
    exact h.current hbound hcache (RightsCache.entry_of_entries_get hentry) hnow

/-- A faithful cache stays so when it takes an answer that is recalled. -/
theorem Node.Faithful.put {node : Node} (h : node.Faithful) {question : RightsQuestion}
    {rights : Rights}
    (hrights : node.recalled.Effective question.actor question.policyId rights)
    (stamp : Generation) :
    { node with cache := node.cache.map (·.put node.generation question rights stamp) : Node
      }.Faithful where
  stamp := by
    intro cache other entry hcache hentry
    obtain ⟨before, hbefore, rfl⟩ := Option.map_eq_some_iff.1 hcache
    obtain ⟨-, rfl, hstamp⟩ | hold := RightsCache.entry_of_entries_put hentry
    · rw [hstamp]
      exact Generation.toNat_after_le _
    · exact h.stamp hbefore hold
  current := by
    intro cache other entry hbound hcache hentry hnow
    obtain ⟨before, hbefore, rfl⟩ := Option.map_eq_some_iff.1 hcache
    obtain ⟨rfl, rfl, -⟩ | hold := RightsCache.entry_of_entries_put hentry
    · exact hrights
    · exact h.current hbound hbefore hold hnow

namespace Site

variable {site after last : Site}

/-! ### What a node would find -/

/-- The roster of a policy: the live one, else the one that the stored record makes. -/
def roster? (site : Site) (id : UInt64) : Option Roster :=
  if id = 0 then none
  else match site.node.rosters[id]? with
    | some roster => some roster
    | none =>
      ((site.backend.store.policies.roster? id).filter (·.policyId == id)).map Roster.ofRecord

/-- What a call would find at a site whose store does not fail. -/
def view (site : Site) : View where
  policy? id :=
    if id = 0 then none
    else (site.node.policies.policy? id).or (site.backend.store.policies.byId? id)
  everyone? id := (site.roster? id).map Roster.everyone
  cell? id actor := (site.roster? id).map fun roster => roster.registry.rightsOf? actor
  group? id :=
    if id = 0 then none
    else (site.node.groups.group? id).or (site.backend.store.groups.byId? id)
  groupsOf actor := site.node.groups.joined actor

/-- Where memory holds only what is stored, and nothing is stored under the number zero, what is found
is what is stored. -/
theorem found_eq_stored {Row : Type} {id : UInt64} {known stored : Option Row}
    (hzero : ∀ row, stored = some row → id ≠ 0)
    (hknown : ∀ row, known = some row → stored = some row) :
    (if id = 0 then none else known.or stored) = stored := by
  split
  · refine (Option.eq_none_iff_forall_ne_some.2 fun row hrow => ?_).symm
    exact hzero row hrow ‹_›
  · cases known with
    | none => exact Option.none_or
    | some row => exact (hknown row rfl).symm

/-- What is found is known or stored. -/
theorem known_or_stored {Row : Type} {id : UInt64} {known stored : Option Row} {row : Row}
    (h : (if id = 0 then none else known.or stored) = some row) :
    known = some row ∨ stored = some row := by
  split at h
  · cases h
  · exact (Option.or_eq_some_iff.1 h).imp_right And.right

/-- A live roster is the roster of its policy, whatever is stored. -/
theorem roster?_of_live {id : UInt64} {roster : Roster}
    (live : site.node.rosters[id]? = some roster) :
    site.roster? id = if id = 0 then none else some roster := by
  unfold roster?
  rw [live]

/-- Otherwise the stored record is. -/
theorem roster?_of_stored {id : UInt64} {record : RosterRecord}
    (unknown : site.node.rosters[id]? = none)
    (stored : site.backend.store.policies.roster? id = some record)
    (own : record.policyId = id) :
    site.roster? id = if id = 0 then none else some (.ofRecord record) := by
  unfold roster?
  rw [unknown, stored, Option.filter_some_pos (by simpa using own), Option.map_some]

theorem roster?_insert (site : Site) (policyId : UInt64) (roster : Roster) (id : UInt64) :
    roster? { site with node := { site.node with
        rosters := site.node.rosters.insert policyId roster } } id =
      if policyId = id ∧ id ≠ 0 then some roster else site.roster? id := by
  unfold roster?
  by_cases hid : id = 0
  · simp [hid]
  · by_cases heq : policyId = id
    · simp [hid, heq]
    · rw [if_neg hid, if_neg hid, if_neg fun h => heq h.1, lookup_insert, if_neg heq]

/-- Stored rows and live rosters are kept under their own numbers, live rosters are
consistent, and a membership in a group that the node does not know is one in a group that
does not exist. -/
structure Keyed (site : Site) : Prop where
  policy {id : UInt64} {policy : Policy} :
    site.backend.store.policies.byId? id = some policy → policy.id = id
  group {id : UInt64} {group : Group} :
    site.backend.store.groups.byId? id = some group → group.id = id
  roster {id : UInt64} {roster : Roster} : site.node.rosters[id]? = some roster →
    roster.policyId = id ∧ roster.Consistent
  member {id : UInt64} {actor : Actor} : id ∈ site.node.groups.groupsOf actor →
    site.node.groups.group? id = none → site.backend.store.groups.byId? id = none

/-- The roster that is found for a policy is consistent. -/
theorem Keyed.consistent (h : site.Keyed) {id : UInt64} {roster : Roster}
    (hroster : site.roster? id = some roster) : roster.Consistent := by
  unfold roster? at hroster
  split at hroster
  · cases hroster
  · split at hroster
    · rename_i live hlive
      cases hroster
      exact (h.roster hlive).2
    · obtain ⟨record, -, rfl⟩ := Option.map_eq_some_iff.1 hroster
      exact Roster.consistent_ofRecord record

/-- What a node recalls it would also find. -/
theorem Keyed.recalled_le (h : site.Keyed) : site.node.recalled.Le site.view where
  policy {id policy} hpolicy := by
    simp only [Node.recalled, view] at hpolicy ⊢
    split at hpolicy
    · cases hpolicy
    · rename_i hid
      rw [if_neg hid, hpolicy, Option.some_or]
  everyone {id rights} hrights := by
    simp only [Node.recalled, view, roster?] at hrights ⊢
    split at hrights
    · cases hrights
    · rename_i hid
      obtain ⟨roster, hroster, rfl⟩ := Option.map_eq_some_iff.1 hrights
      rw [if_neg hid, hroster, Option.map_some]
  cell {id actor cell} hcell := by
    simp only [Node.recalled, view, roster?] at hcell ⊢
    split at hcell
    · cases hcell
    · rename_i hid
      obtain ⟨roster, hroster, hrecall⟩ := Option.bind_eq_some_iff.1 hcell
      rw [if_neg hid, hroster, Option.map_some,
        (h.roster hroster).2.rightsOf?_of_recalled? hrecall]
  group {id group} hgroup := by
    simp only [Node.recalled, view] at hgroup ⊢
    split at hgroup
    · cases hgroup
    · rename_i hid
      rw [if_neg hid, hgroup, Option.some_or]
  groupsOf _ := rfl

/-! ### Steps of learning -/

/-- One step of learning. -/
inductive Learn (site : Site) : Site → Prop
  /-- A planned fault is used up. -/
  | fault (faults : FaultPlan) (calm : site.backend.faults = [] → faults = []) :
      Learn site { site with backend := { site.backend with faults } }
  /-- A stored policy is taken in. -/
  | policy {id : UInt64} {policy : Policy} (unknown : site.node.policies.policy? id = none)
      (stored : site.backend.store.policies.byId? id = some policy) :
      Learn site
        { site with node := { site.node with policies := site.node.policies.insert policy } }
  /-- A stored group is taken in. -/
  | group {id : UInt64} {group : Group} (unknown : site.node.groups.group? id = none)
      (stored : site.backend.store.groups.byId? id = some group) :
      Learn site
        { site with node := { site.node with groups := site.node.groups.insert group } }
  /-- A stored roster comes to life. -/
  | roster {id : UInt64} {record : RosterRecord} (unknown : site.node.rosters[id]? = none)
      (stored : site.backend.store.policies.roster? id = some record)
      (own : record.policyId = id) :
      Learn site
        { site with node := { site.node with
            rosters := site.node.rosters.insert id (.ofRecord record) } }
  /-- A live roster remembers answers. -/
  | answers {id : UInt64} {roster other : Roster} (live : site.node.rosters[id]? = some roster)
      (within : roster.Within other) (consistent : other.Consistent) :
      Learn site { site with node := { site.node with rosters := site.node.rosters.insert id other } }
  /-- The cache changes, stays faithful, and gets no answers but those that the node has. -/
  | cache (cache : Option RightsCache)
      (faithful : site.node.Faithful → { site.node with cache : Node }.Faithful)
      (held : ∀ {answered : RightsCache} {question : RightsQuestion} {entry : CachedRights},
        cache = some answered → answered.entries[question]? = some entry →
        site.node.Holds question entry.rights) :
      Learn site { site with node := { site.node with cache } }

/-- Learning, any number of steps. -/
inductive Learns : Site → Site → Prop
  | refl (site : Site) : Learns site site
  | step {site after last : Site} (first : Learn site after) (rest : Learns after last) :
      Learns site last

theorem Learns.single (h : site.Learn after) : site.Learns after :=
  .step h (.refl after)

/-- Learning goes on. -/
theorem Learns.trans (h : site.Learns after) (h' : after.Learns last) : site.Learns last := by
  induction h with
  | refl => exact h'
  | step first _ ih => exact .step first (ih h')

/-! ### What learning leaves as it is -/

/-- Learning changes nothing in the store, counts no change, and makes nobody a member. -/
structure Still (site after : Site) : Prop where
  store : after.backend.store = site.backend.store
  calm : site.backend.faults = [] → after.backend.faults = []
  changes : after.node.changes = site.node.changes
  members : after.node.groups.members = site.node.groups.members
  memberships : after.node.groups.memberships = site.node.groups.memberships

theorem Still.refl (site : Site) : site.Still site :=
  ⟨rfl, id, rfl, rfl, rfl⟩

/-- What learning leaves alone, more learning leaves alone. -/
theorem Still.trans (h : site.Still after) (h' : after.Still last) : site.Still last where
  store := h'.store.trans h.store
  calm hcalm := h'.calm (h.calm hcalm)
  changes := h'.changes.trans h.changes
  members := h'.members.trans h.members
  memberships := h'.memberships.trans h.memberships

/-- Learning leaves the store and the count of changes alone. -/
theorem Learn.still (h : site.Learn after) : site.Still after := by
  cases h with
  | fault faults calm => exact ⟨rfl, calm, rfl, rfl, rfl⟩
  | policy | group | roster | answers | cache => exact ⟨rfl, id, rfl, rfl, rfl⟩

theorem Learns.still (h : site.Learns after) : site.Still after := by
  induction h with
  | refl site => exact .refl site
  | step first _ ih => exact first.still.trans ih

/-- What is learned stands under its own number. -/
theorem Learn.keyed (h : site.Learn after) (hkeyed : site.Keyed) : after.Keyed := by
  cases h with
  | fault | policy | cache => exact ⟨hkeyed.policy, hkeyed.group, hkeyed.roster, hkeyed.member⟩
  | group unknown stored =>
    refine ⟨hkeyed.policy, hkeyed.group, hkeyed.roster, fun {id actor} hmember hunknown => ?_⟩
    rw [GroupIndex.group?_insert] at hunknown
    split at hunknown
    · cases hunknown
    · exact hkeyed.member hmember hunknown
  | roster unknown stored own =>
    refine ⟨hkeyed.policy, hkeyed.group, fun {id roster} hroster => ?_, hkeyed.member⟩
    obtain ⟨rfl, rfl⟩ | ⟨-, hold⟩ := of_lookup_insert hroster
    · exact ⟨own, Roster.consistent_ofRecord _⟩
    · exact hkeyed.roster hold
  | answers live within consistent =>
    refine ⟨hkeyed.policy, hkeyed.group, fun {id roster} hroster => ?_, hkeyed.member⟩
    obtain ⟨rfl, rfl⟩ | ⟨-, hold⟩ := of_lookup_insert hroster
    · exact ⟨within.policyId.trans (hkeyed.roster live).1, consistent⟩
    · exact hkeyed.roster hold

theorem Learns.keyed (h : site.Learns after) (hkeyed : site.Keyed) : after.Keyed := by
  induction h with
  | refl => exact hkeyed
  | step first _ ih => exact ih (first.keyed hkeyed)

/-! ### Learning adds to what is recalled -/

/-- A group that was unknown and is stored has no members that the node knows of. -/
theorem Keyed.joined_insert (hkeyed : site.Keyed) {id : UInt64} {group : Group}
    (unknown : site.node.groups.group? id = none)
    (stored : site.backend.store.groups.byId? id = some group) (actor : Actor) :
    (site.node.groups.insert group).joined actor = site.node.groups.joined actor := by
  unfold GroupIndex.joined
  rw [GroupIndex.groupsOf_insert]
  apply List.filterMap_congr
  intro other hother
  -- if the actor were a member of the new group, the group would not be stored
  have hmember : other ∈ site.node.groups.groupsOf actor := Std.ExtTreeSet.mem_toList.1 hother
  rw [GroupIndex.group?_insert, hkeyed.group stored, if_neg]
  rintro rfl
  rw [hkeyed.member hmember unknown] at stored
  cases stored

/-- Putting a roster in the place of one that recalls no more adds to what is recalled. -/
theorem recalled_le_insert {node : Node} {policyId : UInt64} {other : Roster}
    (h : ∀ roster, node.rosters[policyId]? = some roster → other.everyone = roster.everyone ∧
      ∀ actor cell, roster.recalled? actor = some cell → other.recalled? actor = some cell) :
    node.recalled.Le { node with rosters := node.rosters.insert policyId other : Node }.recalled := by
  -- every live roster has one in its place that recalls as much
  have hlater {id : UInt64} {roster : Roster} (hroster : node.rosters[id]? = some roster) :
      ∃ later, (node.rosters.insert policyId other)[id]? = some later ∧
        later.everyone = roster.everyone ∧
        ∀ actor cell, roster.recalled? actor = some cell → later.recalled? actor = some cell := by
    rw [lookup_insert]
    split
    · rename_i heq
      subst heq
      exact ⟨other, rfl, h roster hroster⟩
    · exact ⟨roster, hroster, rfl, fun _ _ hrecall => hrecall⟩
  refine ⟨fun hpolicy => hpolicy, ?_, ?_,
    fun hgroup => hgroup, fun _ => rfl⟩
  · intro id rights hrights
    simp only [Node.recalled] at hrights ⊢
    split at hrights
    · cases hrights
    · rename_i hid
      obtain ⟨roster, hroster, rfl⟩ := Option.map_eq_some_iff.1 hrights
      obtain ⟨later, hinserted, heveryone, -⟩ := hlater hroster
      rw [if_neg hid, hinserted, Option.map_some, heveryone]
  · intro id actor cell hcell
    simp only [Node.recalled] at hcell ⊢
    split at hcell
    · cases hcell
    · rename_i hid
      obtain ⟨roster, hroster, hrecall⟩ := Option.bind_eq_some_iff.1 hcell
      obtain ⟨later, hinserted, -, hlater⟩ := hlater hroster
      rw [if_neg hid, hinserted, Option.bind_some, hlater actor cell hrecall]

/-- Who learns recalls all that it recalled before. -/
theorem Learn.recalled_le (h : site.Learn after) (hkeyed : site.Keyed) :
    site.node.recalled.Le after.node.recalled := by
  cases h with
  | fault | cache => exact .refl _
  | @policy stored policy unknown hstored =>
    refine ⟨fun {id other} hother => ?_, id, id, id, fun _ => rfl⟩
    simp only [Node.recalled] at hother ⊢
    split at hother
    · cases hother
    · rename_i hid
      rw [if_neg hid, PolicyIndex.policy?_insert, hkeyed.policy hstored, if_neg, hother]
      rintro rfl
      cases unknown.symm.trans hother
  | @group stored group unknown hstored =>
    refine ⟨id, id, id, ?_, ?_⟩
    · intro id other hother
      simp only [Node.recalled] at hother ⊢
      split at hother
      · cases hother
      · rename_i hid
        rw [if_neg hid, GroupIndex.group?_insert, hkeyed.group hstored, if_neg, hother]
        rintro rfl
        cases unknown.symm.trans hother
    · exact fun actor => (hkeyed.joined_insert unknown hstored actor).symm
  -- no roster was live, so there is nothing that could get lost
  | roster unknown _ _ =>
    apply recalled_le_insert
    intro roster hroster
    cases unknown.symm.trans hroster
  | answers live within consistent =>
    apply recalled_le_insert
    intro roster hroster
    obtain rfl := Option.some.inj (live.symm.trans hroster)
    exact ⟨congrArg Registry.everyone within.registry, fun _ _ => consistent.recalled?_mono within⟩

/-- Nothing is forgotten over any stretch of learning. -/
theorem Learns.recalled_le (h : site.Learns after) (hkeyed : site.Keyed) :
    site.node.recalled.Le after.node.recalled := by
  induction h with
  | refl => exact .refl _
  | step first _ ih => exact (first.recalled_le hkeyed).trans (ih (first.keyed hkeyed))

/-! ### Learning does not change the view -/

/-- A roster that only learns answers is as good as before to everyone who asks. -/
theorem Learn.roster?_within (h : site.Learn after) {id : UInt64} {roster : Roster}
    (hroster : site.roster? id = some roster) :
    ∃ other, after.roster? id = some other ∧ roster.Within other := by
  cases h with
  | fault | policy | group | cache => exact ⟨roster, hroster, .refl roster⟩
  | roster unknown stored own =>
    rw [roster?_insert]
    split
    · -- what was stored is live now
      rename_i hid
      obtain ⟨rfl, hid⟩ := hid
      rw [roster?_of_stored unknown stored own, if_neg hid] at hroster
      cases hroster
      exact ⟨_, rfl, .refl _⟩
    · exact ⟨roster, hroster, .refl roster⟩
  | answers live within consistent =>
    rw [roster?_insert]
    split
    · rename_i hid
      obtain ⟨rfl, hid⟩ := hid
      rw [roster?_of_live live, if_neg hid] at hroster
      cases hroster
      exact ⟨_, rfl, within⟩
    · exact ⟨roster, hroster, .refl roster⟩

/-- A roster may remember more after some learning, and is the same otherwise. -/
theorem Learns.roster?_within (h : site.Learns after) {id : UInt64} {roster : Roster}
    (hroster : site.roster? id = some roster) :
    ∃ other, after.roster? id = some other ∧ roster.Within other := by
  induction h generalizing roster with
  | refl => exact ⟨roster, hroster, .refl roster⟩
  | step first _ ih =>
    obtain ⟨other, hother, hwithin⟩ := first.roster?_within hroster
    obtain ⟨last, hlast, hwithin'⟩ := ih hother
    exact ⟨last, hlast, hwithin.trans hwithin'⟩

/-- A live roster stays live. -/
theorem Learn.live (h : site.Learn after) {id : UInt64} {roster : Roster}
    (hlive : site.node.rosters[id]? = some roster) :
    ∃ other, after.node.rosters[id]? = some other ∧ roster.Within other := by
  cases h with
  | fault | policy | group | cache => exact ⟨roster, hlive, .refl roster⟩
  | @roster other record unknown =>
    refine ⟨roster, ?_, .refl roster⟩
    have hne : other ≠ id := by
      rintro rfl
      cases unknown.symm.trans hlive
    exact (lookup_insert ..).trans ((if_neg hne).trans hlive)
  | @answers other old learned live within consistent =>
    show ∃ found, (site.node.rosters.insert other learned)[id]? = some found ∧ _
    rw [lookup_insert]
    split
    · rename_i heq
      subst heq
      obtain rfl := Option.some.inj (live.symm.trans hlive)
      exact ⟨learned, rfl, within⟩
    · exact ⟨roster, hlive, .refl roster⟩

theorem Learns.live (h : site.Learns after) {id : UInt64} {roster : Roster}
    (hlive : site.node.rosters[id]? = some roster) :
    ∃ other, after.node.rosters[id]? = some other ∧ roster.Within other := by
  induction h generalizing roster with
  | refl => exact ⟨roster, hlive, .refl roster⟩
  | step first _ ih =>
    obtain ⟨other, hother, hwithin⟩ := first.live hlive
    obtain ⟨last, hlast, hwithin'⟩ := ih hother
    exact ⟨last, hlast, hwithin.trans hwithin'⟩

/-- No roster appears where there was none to be found. -/
theorem Learn.roster?_eq_none (h : site.Learn after) {id : UInt64}
    (hroster : site.roster? id = none) : after.roster? id = none := by
  cases h with
  | fault | policy | group | cache => exact hroster
  | roster unknown stored own =>
    rw [roster?_insert, if_neg, hroster]
    rintro ⟨rfl, hid⟩
    rw [roster?_of_stored unknown stored own, if_neg hid] at hroster
    cases hroster
  | answers live =>
    rw [roster?_insert, if_neg, hroster]
    rintro ⟨rfl, hid⟩
    rw [roster?_of_live live, if_neg hid] at hroster
    cases hroster

theorem Learns.roster?_eq_none (h : site.Learns after) {id : UInt64}
    (hroster : site.roster? id = none) : after.roster? id = none := by
  induction h with
  | refl => exact hroster
  | step first _ ih => exact ih (first.roster?_eq_none hroster)

/-- Learning brings no roster and takes none. -/
theorem Learns.exists_roster?_iff (h : site.Learns after) (id : UInt64) :
    (∃ roster, after.roster? id = some roster) ↔ ∃ roster, site.roster? id = some roster := by
  constructor
  · rintro ⟨roster, hroster⟩
    refine Option.ne_none_iff_exists'.1 fun hnone => ?_
    cases (h.roster?_eq_none hnone).symm.trans hroster
  · rintro ⟨roster, hroster⟩
    obtain ⟨later, hlater, -⟩ := h.roster?_within hroster
    exact ⟨later, hlater⟩

/-- A policy that is read is the one that the view has shown. -/
theorem Learn.view_policy? (h : site.Learn after) (hkeyed : site.Keyed) (id : UInt64) :
    after.view.policy? id = site.view.policy? id := by
  cases h with
  | fault | group | roster | answers | cache => rfl
  | @policy stored policy unknown hstored =>
    show (if id = 0 then none else _) = if id = 0 then none else _
    congr 1
    rw [PolicyIndex.policy?_insert, hkeyed.policy hstored]
    split
    · rename_i heq
      rw [← heq, unknown, hstored, Option.some_or, Option.none_or]
    · rfl

/-- So is a group. -/
theorem Learn.view_group? (h : site.Learn after) (hkeyed : site.Keyed) (id : UInt64) :
    after.view.group? id = site.view.group? id := by
  cases h with
  | fault | policy | roster | answers | cache => rfl
  | @group stored group unknown hstored =>
    show (if id = 0 then none else _) = if id = 0 then none else _
    congr 1
    rw [GroupIndex.group?_insert, hkeyed.group hstored]
    split
    · rename_i heq
      rw [← heq, unknown, hstored, Option.some_or, Option.none_or]
    · rfl

/-- Learning moves what the store has into the memory of the node, which makes no
difference to the view of both. -/
theorem Learn.view_eq (h : site.Learn after) (hkeyed : site.Keyed) : after.view = site.view := by
  -- for each policy there is no roster before and after, or one that has only learned
  have hroster (id : UInt64) : (site.roster? id = none ∧ after.roster? id = none) ∨
      ∃ roster other, site.roster? id = some roster ∧ after.roster? id = some other ∧
        roster.Within other := by
    cases hsite : site.roster? id with
    | none => exact .inl ⟨rfl, h.roster?_eq_none hsite⟩
    | some roster =>
      obtain ⟨other, hother, hwithin⟩ := h.roster?_within hsite
      exact .inr ⟨roster, other, rfl, hother, hwithin⟩
  apply View.ext
  · funext id
    exact h.view_policy? hkeyed id
  · funext id
    show (after.roster? id).map _ = (site.roster? id).map _
    obtain ⟨hsite, hafter⟩ | ⟨roster, other, hsite, hafter, hwithin⟩ := hroster id
    · rw [hsite, hafter]
    · rw [hsite, hafter, Option.map_some, Option.map_some, Roster.everyone, hwithin.registry,
        Roster.everyone]
  · funext id actor
    show (after.roster? id).map _ = (site.roster? id).map _
    obtain ⟨hsite, hafter⟩ | ⟨roster, other, hsite, hafter, hwithin⟩ := hroster id
    · rw [hsite, hafter]
    · rw [hsite, hafter, Option.map_some, Option.map_some, hwithin.registry]
  · funext id
    exact h.view_group? hkeyed id
  · funext actor
    exact ((h.recalled_le hkeyed).groupsOf actor).symm

/-- So the view is the same however much is learned. -/
theorem Learns.view_eq (h : site.Learns after) (hkeyed : site.Keyed) :
    after.view = site.view := by
  induction h with
  | refl => rfl
  | step first _ ih => exact (ih (first.keyed hkeyed)).trans (first.view_eq hkeyed)

/-! ### Learning keeps the cache faithful -/

/-- Answers that were right stay right, since the view is the same. -/
theorem Learn.faithful (h : site.Learn after) (hkeyed : site.Keyed)
    (hfaithful : site.node.Faithful) : after.node.Faithful := by
  -- only the last kind of step touches the cache, and it says itself that it may
  have hle := h.recalled_le hkeyed
  cases h with
  | fault => exact hfaithful
  | policy | group | roster | answers => exact hfaithful.mono rfl rfl hle
  | cache cache faithful => exact faithful hfaithful

theorem Learns.faithful (h : site.Learns after) (hkeyed : site.Keyed)
    (hfaithful : site.node.Faithful) : after.node.Faithful := by
  induction h with
  | refl => exact hfaithful
  | step first _ ih => exact ih (first.keyed hkeyed) (first.faithful hkeyed hfaithful)

/-- A cache to be trusted can be trusted after any learning. -/
theorem Learns.trusted (h : site.Learns after) (hkeyed : site.Keyed)
    (htrusted : site.node.Trusted) : after.node.Trusted :=
  ⟨h.faithful hkeyed htrusted.faithful, h.still.changes ▸ htrusted.exact⟩

end Site

end AccessRights
