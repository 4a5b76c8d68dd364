/-
AccessRights/Proofs/Sound.lean

A node that agrees with its store.

Nodes lag behind a store that others write to as well, so an index need not
hold what the store holds.  It must not contradict it in what never changes,
though: rows are kept under their own numbers, numbers have been handed out
before they are used, a policy that is both indexed and stored has the same
designators and the same age in both places, a group the same kind and the same
age, and a membership in an unknown group is one in a group that is gone for
good.  That is `Node.Sound`.

It is a relation between one node and the store, and it survives what other
nodes do to the store (`Node.Sound.of_later`).  Each edit of a node has one lemma
here that says when it keeps a node sound.

Main results: `Site.Sound.keyed`, `Site.Learns.sound` and `Node.Sound.of_later`.
-/
import AccessRights.Proofs.Learning
import AccessRights.Proofs.Store

namespace AccessRights

/-- The node agrees with the store in what never changes. -/
structure Node.Sound (node : Node) (store : Store) : Prop where
  policy {id : UInt64} {policy : Policy} : node.policies.policy? id = some policy →
    policy.id = id ∧ id ≤ store.policies.lastId
  designators {id : UInt64} {policy stored : Policy} :
    node.policies.policy? id = some policy → store.policies.policies[id]? = some stored →
    stored.key = policy.key ∧ stored.object = policy.object ∧
    (∀ key, policy.key = some key → node.policies.byKey[key]? = some id) ∧
    ∀ object, policy.object = some object → node.policies.byObject[object]? = some id
  age {id : UInt64} {policy stored : Policy} :
    node.policies.policy? id = some policy → store.policies.policies[id]? = some stored →
    stored.createdAt = policy.createdAt
  roster {id : UInt64} {roster : Roster} : node.rosters[id]? = some roster →
    roster.policyId = id ∧ id ≤ store.policies.lastId ∧ roster.Consistent
  group {id : UInt64} {group : Group} : node.groups.group? id = some group →
    group.id = id ∧ id ≤ store.groups.lastId
  nature {id : UInt64} {group stored : Group} :
    node.groups.group? id = some group → store.groups.groups[id]? = some stored →
    stored.kind? = group.kind? ∧ stored.createdAt = group.createdAt
  member {id : UInt64} {actor : Actor} : id ∈ node.groups.groupsOf actor →
    id ≤ store.groups.lastId ∧
    (node.groups.group? id = none → store.groups.groups[id]? = none)
  mirrored : node.groups.Mirrored

namespace Node

variable {node : Node} {store later : Store}

/-! ### What others do -/

/-- A sound node stays so while others work on the store. -/
theorem Sound.of_later (h : node.Sound store) (hlater : store.Later later) : node.Sound later where
  policy hpolicy :=
    ⟨(h.policy hpolicy).1, UInt64.le_trans (h.policy hpolicy).2 hlater.policies.lastId⟩
  designators {id policy stored} hpolicy hstored := by
    obtain ⟨before, hbefore, hkey, hobject, -⟩ | hnew := hlater.policies.policy hstored
    · have := h.designators hpolicy hbefore
      rwa [hkey, hobject]
    · -- a new number cannot be indexed yet
      exact absurd (h.policy hpolicy).2 (UInt64.not_le.2 hnew)
  age {id policy stored} hpolicy hstored := by
    obtain ⟨before, hbefore, -, -, hage⟩ | hnew := hlater.policies.policy hstored
    · exact hage.trans (h.age hpolicy hbefore)
    · exact absurd (h.policy hpolicy).2 (UInt64.not_le.2 hnew)
  roster hroster := by
    obtain ⟨hid, hle, hconsistent⟩ := h.roster hroster
    exact ⟨hid, UInt64.le_trans hle hlater.policies.lastId, hconsistent⟩
  group hgroup := ⟨(h.group hgroup).1, UInt64.le_trans (h.group hgroup).2 hlater.groups.lastId⟩
  nature {id group stored} hgroup hstored := by
    obtain ⟨before, hbefore, hkind, hage⟩ | hnew := hlater.groups.group hstored
    · obtain ⟨hkind', hage'⟩ := h.nature hgroup hbefore
      exact ⟨hkind.trans hkind', hage.trans hage'⟩
    · exact absurd (h.group hgroup).2 (UInt64.not_le.2 hnew)
  member {id actor} hmember := by
    obtain ⟨hle, hgone⟩ := h.member hmember
    refine ⟨UInt64.le_trans hle hlater.groups.lastId, fun hunknown => ?_⟩
    cases hstored : later.groups.groups[id]? with
    | none => rfl
    | some group =>
      -- the group would have to be new, but its number was handed out before
      obtain ⟨before, hbefore, -⟩ | hnew := hlater.groups.group hstored
      · cases (hgone hunknown).symm.trans hbefore
      · exact absurd hle (UInt64.not_le.2 hnew)
  mirrored := h.mirrored

/-! ### Edits that learn -/

/-- A stored policy can be taken in, also in place of what was known under its number. -/
theorem Sound.insertPolicy (h : node.Sound store) (hstore : store.Sound) {id : UInt64}
    {policy : Policy} (hstored : store.policies.policies[id]? = some policy) :
    Sound { node with policies := node.policies.insert policy } store := by
  obtain ⟨rfl, -, hle⟩ := hstore.policies.policy hstored
  refine { h with policy := ?_, designators := ?_, age := ?_ }
  · intro id other hother
    rw [PolicyIndex.policy?_insert] at hother
    split at hother
    · rename_i heq
      cases hother
      exact ⟨heq, heq ▸ hle⟩
    · exact h.policy hother
  · intro id other stored hother hstored'
    rw [PolicyIndex.policy?_insert] at hother
    split at hother
    · rename_i heq
      cases hother
      subst heq
      obtain rfl := Option.some.inj (hstored.symm.trans hstored')
      refine ⟨rfl, rfl, ?_, ?_⟩
      · intro key hkey
        rw [PolicyIndex.byKey_insert, if_pos hkey]
      · intro object hobject
        rw [PolicyIndex.byObject_insert, if_pos hobject]
    · -- another stored policy has other designators than the one taken in
      rename_i hne
      obtain ⟨hkey, hobject, hbyKey, hbyObject⟩ := h.designators hother hstored'
      refine ⟨hkey, hobject, ?_, ?_⟩
      -- two stored policies never share a key
      · intro key hother
        rw [PolicyIndex.byKey_insert, if_neg, hbyKey key hother]
        exact fun htaken => hne (hstore.policies.key hstored hstored' htaken (hkey.trans hother))
      · intro object hother
        rw [PolicyIndex.byObject_insert, if_neg, hbyObject object hother]
        exact fun htaken =>
          hne (hstore.policies.object hstored hstored' htaken (hobject.trans hother))
  · intro id other stored hother hstored'
    rw [PolicyIndex.policy?_insert] at hother
    split at hother
    · rename_i heq
      cases hother
      subst heq
      obtain rfl := Option.some.inj (hstored.symm.trans hstored')
      rfl
    · exact h.age hother hstored'

/-- A stored group can be taken in, also in place of what was known under its number. -/
theorem Sound.insertGroup (h : node.Sound store) (hstore : store.Sound) {id : UInt64}
    {group : Group} (hstored : store.groups.groups[id]? = some group) :
    Sound { node with groups := node.groups.insert group } store := by
  obtain ⟨rfl, -, hle⟩ := hstore.groups.group hstored
  refine { h with group := ?_, nature := ?_, member := ?_, mirrored := ?_ }
  · intro id other hother
    rw [GroupIndex.group?_insert] at hother
    split at hother
    · rename_i heq
      cases hother
      exact ⟨heq, heq ▸ hle⟩
    · exact h.group hother
  · intro id other stored hother hstored'
    rw [GroupIndex.group?_insert] at hother
    split at hother
    · rename_i heq
      cases hother
      subst heq
      obtain rfl := Option.some.inj (hstored.symm.trans hstored')
      exact ⟨rfl, rfl⟩
    · exact h.nature hother hstored'
  · -- taking in a group can only make members of unknown groups members of known ones
    intro id actor hmember
    obtain ⟨hle, hgone⟩ := h.member hmember
    refine ⟨hle, fun hunknown => ?_⟩
    rw [GroupIndex.group?_insert] at hunknown
    split at hunknown
    · cases hunknown
    · exact hgone hunknown
  · exact h.mirrored.insert group

/-- A consistent roster of a known number can be put in its place. -/
theorem Sound.insertRoster (h : node.Sound store) {roster : Roster}
    (hle : roster.policyId ≤ store.policies.lastId) (hconsistent : roster.Consistent) :
    Sound { node with rosters := node.rosters.insert roster.policyId roster } store := by
  refine { h with roster := fun {id other} hother => ?_ }
  obtain ⟨rfl, rfl⟩ | ⟨-, hold⟩ := of_lookup_insert hother
  · exact ⟨rfl, hle, hconsistent⟩
  · exact h.roster hold

/-- Counting changes has no bearing on what a node knows. -/
theorem Sound.recount (h : node.Sound store) (changes : Nat) :
    Sound { node with changes } store :=
  { h with }

/-! ### Edits that follow a change of the store -/

/-- A policy is forgotten together with its roster when the store has removed it. -/
theorem Sound.removePolicy (h : node.Sound store) (hstore : store.Sound) {id : UInt64}
    {before : Policy} (hstored : store.policies.policies[id]? = some before)
    (hlater : store.Later later)
    (hrows : ∀ other, later.policies.policies[other]? =
      if id = other then none else store.policies.policies[other]?) :
    Sound { node with policies := node.policies.remove id, rosters := node.rosters.erase id }
      later := by
  have h' := h.of_later hlater
  refine { h' with policy := ?_, designators := ?_, age := ?_, roster := ?_ }
  · intro other policy hpolicy
    rw [PolicyIndex.policy?_remove] at hpolicy
    split at hpolicy
    · cases hpolicy
    · exact h'.policy hpolicy
  · intro other policy stored hpolicy hother
    rw [PolicyIndex.policy?_remove] at hpolicy
    rw [hrows] at hother
    split at hpolicy
    · cases hpolicy
    rename_i hne
    rw [if_neg hne] at hother
    obtain ⟨hkey, hobject, hbyKey, hbyObject⟩ := h.designators hpolicy hother
    refine ⟨hkey, hobject, ?_, ?_⟩
    -- the policy that is forgotten is another one, and so are its designators
    · intro key hown
      rw [PolicyIndex.byKey_remove, if_neg, hbyKey key hown]
      intro htaken
      obtain ⟨known, hknown, htaken⟩ := Option.bind_eq_some_iff.1 htaken
      have hremoved := (h.designators hknown hstored).1.trans htaken
      exact hne (hstore.policies.key hstored hother hremoved (hkey.trans hown))
    · intro object hown
      rw [PolicyIndex.byObject_remove, if_neg, hbyObject object hown]
      intro htaken
      obtain ⟨known, hknown, htaken⟩ := Option.bind_eq_some_iff.1 htaken
      have hremoved := (h.designators hknown hstored).2.1.trans htaken
      exact hne (hstore.policies.object hstored hother hremoved (hobject.trans hown))
  · intro other policy stored hpolicy hother
    rw [PolicyIndex.policy?_remove] at hpolicy
    split at hpolicy
    · cases hpolicy
    · exact h'.age hpolicy hother
  · intro other roster hroster
    rw [lookup_erase] at hroster
    split at hroster
    · cases hroster
    · exact h'.roster hroster

/-- A group is forgotten together with its memberships when the store has removed it. -/
theorem Sound.removeGroup (h : node.Sound store) {id : UInt64}
    (hrow : store.groups.groups[id]? = none) :
    Sound { node with groups := node.groups.remove id } store := by
  refine { h with group := ?_, nature := ?_, member := ?_, mirrored := ?_ }
  · intro other group hgroup
    rw [GroupIndex.group?_remove] at hgroup
    split at hgroup
    · cases hgroup
    · exact h.group hgroup
  · intro other group stored hgroup hstored
    rw [GroupIndex.group?_remove] at hgroup
    split at hgroup
    · cases hgroup
    · exact h.nature hgroup hstored
  · -- whoever is a member still was one before, of another group
    intro other actor hmember
    obtain ⟨hmember, -⟩ := h.mirrored.mem_groupsOf_remove.1 hmember
    obtain ⟨hle, hgone⟩ := h.member hmember
    refine ⟨hle, fun hunknown => ?_⟩
    rw [GroupIndex.group?_remove] at hunknown
    split at hunknown
    · rename_i heq
      rw [← heq, hrow]
    · exact hgone hunknown
  · exact h.mirrored.remove id

/-- An asset can become a member of a group that the node knows. -/
theorem Sound.link (h : node.Sound store) {groupId : UInt64} {group : Group}
    (hgroup : node.groups.group? groupId = some group) (asset : Actor) :
    Sound { node with groups := node.groups.link groupId asset } store := by
  refine { h with member := fun {id actor} hmember => ?_, mirrored := h.mirrored.link _ _ }
  -- the new membership is in a known group; the others were there before
  obtain ⟨rfl, -⟩ | hmember := GroupIndex.mem_groupsOf_link.1 hmember
  · refine ⟨(h.group hgroup).2, fun hunknown => ?_⟩
    rw [GroupIndex.group?_link, hgroup] at hunknown
    cases hunknown
  · exact h.member hmember

theorem Sound.unlink (h : node.Sound store) (groupId : UInt64) (asset : Actor) :
    Sound { node with groups := node.groups.unlink groupId asset } store := by
  refine { h with member := fun {id actor} hmember => ?_, mirrored := h.mirrored.unlink _ _ }
  exact h.member (GroupIndex.mem_groupsOf_unlink.1 hmember).1

/-- What is indexed when everything is read is what is stored. -/
theorem group?_build_store (hstore : store.Sound) (id : UInt64) :
    (GroupIndex.build store.groups.all store.groups.allRelations).group? id =
      store.groups.groups[id]? := by
  rw [GroupIndex.group?_build]
  cases hfound : store.groups.all.reverse.find? fun group => group.id == id with
  | none =>
    cases hstored : store.groups.groups[id]? with
    | none => rfl
    | some group =>
      -- a stored group is among the rows that were read
      have hmem : group ∈ store.groups.all.reverse :=
        List.mem_reverse.2 (Table.mem_rows.2 ⟨id, hstored⟩)
      have := List.find?_eq_none.1 hfound group hmem
      simp [(hstore.groups.group hstored).1] at this
  | some group =>
    obtain ⟨other, hother⟩ := Table.mem_rows.1
      (List.mem_reverse.1 (List.mem_of_find?_eq_some hfound))
    have hid : group.id = id := by simpa using List.find?_some hfound
    rw [← hid, (hstore.groups.group hother).1, hother]

/-- The index of groups can be replaced by everything that is stored. -/
theorem Sound.build (h : node.Sound store) (hstore : store.Sound) :
    Sound { node with groups := .build store.groups.all store.groups.allRelations } store := by
  refine { h with group := ?_, nature := ?_, member := ?_, mirrored := ?_ }
  · intro id group hgroup
    rw [group?_build_store hstore] at hgroup
    obtain ⟨hid, -, hle⟩ := hstore.groups.group hgroup
    exact ⟨hid, hle⟩
  · intro id group stored hgroup hstored
    rw [group?_build_store hstore] at hgroup
    cases hgroup.symm.trans hstored
    exact ⟨rfl, rfl⟩
  · intro id actor hmember
    have hrelation : (⟨id, actor⟩ : Relation) ∈ store.groups.relations :=
      Std.ExtTreeSet.mem_toList.1 (GroupIndex.mem_groupsOf_build.1 hmember)
    refine ⟨hstore.groups.relation hrelation, fun hunknown => ?_⟩
    rw [← group?_build_store hstore, hunknown]
  · exact GroupIndex.mirrored_build _ _

end Node

/-! ### Sound sites -/

namespace Site

variable {site after : Site}

/-- The store keeps its rules and the node agrees with it. -/
structure Sound (site : Site) : Prop where
  store : site.backend.store.Sound
  node : site.node.Sound site.backend.store

theorem Sound.keyed (h : site.Sound) : site.Keyed where
  policy hpolicy := (h.store.policies.policy hpolicy).1
  group hgroup := (h.store.groups.group hgroup).1
  roster hroster := ⟨(h.node.roster hroster).1, (h.node.roster hroster).2.2⟩
  member hmember hunknown := (h.node.member hmember).2 hunknown

theorem Learn.sound (h : site.Learn after) (hsound : site.Sound) : after.Sound := by
  obtain ⟨hstore, hnode⟩ := hsound
  cases h with
  | fault | cache => exact ⟨hstore, { hnode with }⟩
  | policy unknown stored => exact ⟨hstore, hnode.insertPolicy hstore stored⟩
  | group unknown stored => exact ⟨hstore, hnode.insertGroup hstore stored⟩
  | @roster id record unknown stored own =>
    subst own
    have hle : (Roster.ofRecord record).policyId ≤ site.backend.store.policies.lastId :=
      (hstore.policies.roster stored).2
    exact ⟨hstore, hnode.insertRoster hle (Roster.consistent_ofRecord record)⟩
  | @answers id roster other live within consistent =>
    obtain ⟨hid, hle, -⟩ := hnode.roster live
    have hother : other.policyId = id := within.policyId.trans hid
    refine ⟨hstore, ?_⟩
    rw [← hother]
    exact hnode.insertRoster (hother ▸ hle) consistent

theorem Learns.sound (h : site.Learns after) (hsound : site.Sound) : after.Sound := by
  induction h with
  | refl => exact hsound
  | step first _ ih => exact ih (first.sound hsound)

end Site

end AccessRights
