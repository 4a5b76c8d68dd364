/-
AccessRights/Proofs/Freshness.lean

Changes of rights are counted, except where a node catches up with its store.

The counter of a node is what outdates cached answers, so whatever changes what
a resolution gives has to move it.  Nearly every request does.  What a node
takes in because somebody else has stored it is not counted, though: neither a
membership that turns out to exist already, nor another version of a group
that a key or a display name leads to.

The rights in question are those that a resolution past the cache would give,
as long as the store does not fail (`freshRights`).

Main results: `counted_iff_of_changed` (which requests count what they change) and
`not_forall_counted` (some do not).
-/
import AccessRights.Proofs.Counting
import AccessRights.Proofs.Reachable
import AccessRights.Proofs.Resolution

namespace AccessRights

namespace Site

open Call

variable {site after : Site} {policyId groupId : UInt64} {actor asset : Actor} {rights : Rights}

/-! ### Rights past the cache -/

/-- What a resolution past the cache would give if it met no fault. -/
def freshRights (site : Site) (policyId : UInt64) (actor : Actor) : Except AccessError Rights :=
  ((resolve policyId actor.normalize).perform
    { site with backend := { site.backend with faults := [] } }).1

/-- Rights that are resolved anew are those of the recursive rules. -/
theorem freshRights_eq_ok_iff (hkeyed : site.Keyed) :
    site.freshRights policyId actor = .ok rights ↔
      site.view.Effective actor.normalize policyId rights := by
  -- planned faults have no part in what is stored under which number
  have hcalm : Keyed { site with backend := { site.backend with faults := [] } } :=
    ⟨hkeyed.policy, hkeyed.group, hkeyed.roster, hkeyed.member⟩
  exact resolve_eq_ok_iff hcalm rfl

/-- Where nothing is counted and answers are only added, rights stay as they are. -/
theorem Extends.freshRights_eq (h : site.Extends after) (hkeyed : site.Keyed)
    (hkeyed' : after.Keyed) (hrights : site.freshRights policyId actor = .ok rights) :
    after.freshRights policyId actor = .ok rights := by
  rw [freshRights_eq_ok_iff hkeyed] at hrights
  rw [freshRights_eq_ok_iff hkeyed']
  exact hrights.mono h.view

/-! ### What catching up counts -/

/-- How many memberships the store has. -/
def memberships (site : Site) : Nat :=
  site.backend.store.groups.relations.size

/-- What was counted are the memberships that the store was given. -/
def Tallies (site after : Site) : Prop :=
  site.memberships + after.node.changes = after.memberships + site.node.changes

/-- Memberships are counted over several stretches. -/
theorem Tallies.trans {middle : Site} (h : site.Tallies middle) (h' : middle.Tallies after) :
    site.Tallies after := by
  unfold Tallies at *
  omega

/-- Whether anything was counted shows in the store. -/
theorem Tallies.counted_iff (h : site.Tallies after) :
    site.node.changes < after.node.changes ↔ site.memberships < after.memberships := by
  have hleft : site.memberships + site.node.changes < site.memberships + after.node.changes ↔
      site.node.changes < after.node.changes := Nat.add_lt_add_iff_left
  have hright : site.memberships + site.node.changes < after.memberships + site.node.changes ↔
      site.memberships < after.memberships := Nat.add_lt_add_iff_right
  unfold Tallies at h
  rw [← hleft, h, hright]

theorem Still.tallies (h : site.Still after) : site.Tallies after := by
  unfold Tallies Site.memberships
  rw [h.changes, h.store]

/-- A membership that the store gains is counted. -/
theorem RelateEnds.tallies {run : Except AccessError Unit × Site}
    (hends : site.RelateEnds groupId asset run) : site.Tallies run.2 := by
  cases hends with
  | refused learns => exact learns.still.tallies
  | linked learns => exact learns.still.tallies
  | @related middle group groups learns indexed new related =>
    refine learns.still.tallies.trans ?_
    obtain ⟨-, rfl⟩ := GroupTables.relate_eq_ok related
    have hsize : (middle.backend.store.groups.relations.insert ⟨groupId, asset⟩).size =
        middle.backend.store.groups.relations.size + 1 := by
      rw [Std.ExtTreeSet.size_insert, if_neg fun h => new (Std.ExtTreeSet.contains_iff_mem.1 h)]
    unfold Tallies memberships
    dsimp only
    rw [hsize]
    omega

/-- Finding a group counts nothing and stores nothing. -/
theorem readGroup_tallies (indexed : GroupIndex → Option Group) (context : String)
    (method : StoreMethod) (look : Store → Option Group) (designation : String) (site : Site) :
    site.Tallies
      ((readGroup indexed context (Backend.find method look) designation).perform site).2 := by
  unfold readGroup
  rw [perform_bind, perform_currentNode]
  dsimp only
  split
  · rfl
  · obtain ⟨error, after, hlearns, hrun⟩ | ⟨found, after, hlearns, -, hrun⟩ :=
      (reads_ask (Backend.looks_find method look) _ site).cases <;> rw [perform_bind, hrun]
    · exact hlearns.still.tallies
    · cases found with
      | none => exact hlearns.still.tallies
      | some group => exact hlearns.still.tallies

/-- Joining several groups counts each that was joined, also where it breaks off. -/
theorem joinAll_tallies (hsound : site.Sound) {groupIds : List UInt64} :
    site.Tallies ((joinAll asset groupIds).perform site).2 :=
  joinAll_keeps Tallies (fun _ => rfl) Tallies.trans
    (fun _ hsound groupId _ => (relate_ends hsound.keyed groupId asset).tallies) hsound

/-- All memberships of an assignment are counted, also if it stops half-way. -/
theorem joinDefaults_tallies (hsound : site.Sound) (asset : Actor) :
    site.Tallies ((joinDefaults asset).perform site).2 := by
  unfold joinDefaults
  rw [perform_bind]
  obtain ⟨error, after, hlearns, hrun⟩ | ⟨_, after, hlearns, rfl, hrun⟩ :=
    (reads_checkAsset asset).cases <;> rw [hrun]
  · exact hlearns.still.tallies
  · dsimp only
    rw [perform_bind, perform_currentNode]
    exact joinAll_tallies hsound

/-- A request that lags behind counts the memberships that it adds, and nothing else. -/
theorem tallies_of_lagsBehind (hsound : site.Sound) {request : Request}
    (hlag : request.LagsBehind site) (now : Timestamp) :
    site.Tallies ((answer now request).perform site).2 := by
  -- the reply that is made of what the call gives changes nothing
  have hreply {α : Type} {call : Call α} (f : α → Reply) (h : site.Tallies (call.perform site).2) :
      site.Tallies ((call >>= fun value => pure (f value)).perform site).2 := by
    rw [snd_perform_bind fun _ _ => rfl]
    exact h
  cases request with
  | relate groupId asset =>
    exact hreply (fun _ => .done) (relate_ends hsound.keyed groupId asset).tallies
  | joinDefaults asset => exact hreply .ids (joinDefaults_tallies hsound asset)
  | groupByKey key => exact hreply .group (readGroup_tallies ..)
  | groupByName turn name => exact hreply .group (readGroup_tallies ..)
  | _ => exact hlag.elim

end Site

/-! ### Which changes are counted -/

namespace Cluster

/-- Where a request changes what somebody may do, resolved past the cache, it counts the
change, unless the node lags behind its store in what the request is about.  Then it counts
only what it gives to the store, which are memberships. -/
theorem counted_iff_of_changed {cluster : Cluster} (hreachable : cluster.Reachable)
    (hroom : cluster.backend.store.HasRoom 2) {number : Nat} {node : Node}
    (hnode : cluster.nodes[number]? = some node) {now : Timestamp} {request : Request}
    {reply : Except AccessError Reply} {after : Site}
    (hdone : (Site.answer now request).perform ⟨node, cluster.backend⟩ = (reply, after))
    {policyId : UInt64} {actor : Actor} {rights : Rights}
    (hbefore : Site.freshRights ⟨node, cluster.backend⟩ policyId actor = .ok rights)
    (hchanged : after.freshRights policyId actor ≠ .ok rights) :
    node.changes < after.node.changes ↔
      (request.LagsBehind ⟨node, cluster.backend⟩ →
        Site.memberships ⟨node, cluster.backend⟩ < after.memberships) := by
  have hsound := hreachable.site_sound hnode
  have hafter : after = ((Site.answer now request).perform ⟨node, cluster.backend⟩).2 := by
    rw [hdone]
  by_cases hlag : request.LagsBehind ⟨node, cluster.backend⟩
  · have htallies := Site.tallies_of_lagsBehind hsound hlag now
    rw [← hafter] at htallies
    rw [htallies.counted_iff, imp_iff_right hlag]
  · -- if nothing were counted, the view would only extend, and the rights would be the same
    refine iff_of_true ?_ fun h => absurd h hlag
    obtain ⟨n, hn, -, hpasses⟩ := Site.answer_passes hsound hroom now request
    rw [← hafter] at hpasses
    have hroom := hroom.mono hn
    apply (hpasses.counted_or_extends hsound hroom hlag).resolve_right
    intro hextends
    have hkeyed' := (hpasses.sound hsound hroom).1.keyed
    exact hchanged (hextends.freshRights_eq hsound.keyed hkeyed' hbefore)

/-! ### A node that catches up -/

/-- The members of a group may view a policy.  The first node does not know that somebody has
become a member on the second one. -/
def behind : Cluster :=
  ((Cluster.openNode {} {}).2.after [
    (0, default, .createGroup .group 0 "eng" "Engineering")]).openNode {} |>.2.after [
    (1, default, .relate 1 (.user 7)),
    (0, default, .createPolicy (some "doc") 1 0 none .empty),
    (0, default, .grantAccess 1 (.user 1) (.group 1) .view)]

theorem reachable_behind : behind.Reachable := by
  refine (Reachable.opened (Reachable.after (.opened .empty {}) ⟨?_, ?_⟩) {}).after ⟨?_, ?_⟩ <;>
    decide +kernel

theorem hasRoom_behind : behind.backend.store.HasRoom 2 :=
  ⟨by decide +kernel, by decide +kernel⟩

/-- The first node after a request to it. -/
def catchUp (request : Request) : Except AccessError Reply × Site :=
  (Site.answer default request).perform (behind.siteOf 0)

theorem freshRights_behind : (behind.siteOf 0).freshRights 1 (.user 7) = .ok ∅ := by
  decide +kernel

theorem freshRights_catchUp :
    (catchUp .load).2.freshRights 1 (.user 7) = .ok .view ∧
      (catchUp (.relate 1 (.user 7))).2.freshRights 1 (.user 7) = .ok .view := by
  decide +kernel

/-- Reading everything anew is counted. -/
theorem counted_load :
    (behind.siteOf 0).node.changes < (catchUp .load).2.node.changes := by
  have hnode := nodes_siteOf (show 0 < behind.nodes.size by decide +kernel)
  have hchanged : (catchUp .load).2.freshRights 1 (.user 7) ≠ .ok ∅ := by
    rw [freshRights_catchUp.1]
    decide
  have hdone : (Site.answer default .load).perform (behind.siteOf 0) =
      ((catchUp .load).1, (catchUp .load).2) := rfl
  exact (counted_iff_of_changed reachable_behind hasRoom_behind hnode hdone freshRights_behind
    hchanged).2 False.elim

/-- Not every change is counted: a membership that the node is told of again is taken in, and
the counter stands still. -/
theorem not_forall_counted :
    ¬ ∀ (cluster : Cluster), cluster.Reachable → cluster.backend.store.HasRoom 2 →
      ∀ (number : Nat) (node : Node), cluster.nodes[number]? = some node →
      ∀ (now : Timestamp) (request : Request) (reply : Except AccessError Reply) (after : Site),
      (Site.answer now request).perform ⟨node, cluster.backend⟩ = (reply, after) →
      ∀ (policyId : UInt64) (actor : Actor) (rights : Rights),
      Site.freshRights ⟨node, cluster.backend⟩ policyId actor = .ok rights →
      after.freshRights policyId actor ≠ .ok rights →
        node.changes < after.node.changes := by
  intro h
  have hnode := nodes_siteOf (show 0 < behind.nodes.size by decide +kernel)
  have hchanged : (catchUp (.relate 1 (.user 7))).2.freshRights 1 (.user 7) ≠ .ok ∅ := by
    rw [freshRights_catchUp.2]
    decide
  have hcounted := h behind reachable_behind hasRoom_behind 0 _ hnode default
    (.relate 1 (.user 7)) _ _ rfl 1 (.user 7) ∅ freshRights_behind hchanged
  have hsame : (catchUp (.relate 1 (.user 7))).2.node.changes =
      (behind.siteOf 0).node.changes := by
    decide +kernel
  exact absurd hcounted (Nat.not_lt.2 (Nat.le_of_eq hsame))

end Cluster

end AccessRights
