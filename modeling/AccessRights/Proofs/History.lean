/-
AccessRights/Proofs/History.lean

Histories of a single node.

A node that has its store to itself, and a store that does not fail, answers
every request as the same node does that caches nothing.  Step by step: the
node never lags behind, so every change that matters is counted and the cache
stays faithful (`Alone.answer`), and a faithful cache makes no difference to
the answer as long as the counter has not come round (`blind_answer`).

Like the moments of the requests, the order in which a node searches its groups
comes from outside.  It decides which of several groups of a display name is
meant, and nothing else (`live_turned`).

Main results: `live_turned` and `replies_withoutCache`.
-/
import AccessRights.Proofs.Reachable
import AccessRights.Proofs.Uncached

namespace AccessRights

/-- The moments and requests of a history of one node. -/
abbrev History := List (Timestamp × Request)

/-- The number of the group that was asked for. -/
def Reply.groupId? : Reply → Option UInt64
  | .group found => some found.id
  | _ => none

/-- The same request, answered when groups are searched in another order. -/
def Request.turned (turn : Nat) : Request → Request
  | .groupByName _ name => .groupByName turn name
  | request => request

namespace History

/-- The same requests at the same moments, but groups may be searched in other orders. -/
def Turned (history other : History) : Prop :=
  List.Forall₂ (fun asked again => again.1 = asked.1 ∧ ∃ turn, again.2 = asked.2.turned turn)
    history other

/-- The same history where all searches are in one other order. -/
def reordered (turn : Nat) (history : History) : History :=
  history.map fun asked => (asked.1, asked.2.turned turn)

theorem turned_reordered (turn : Nat) (history : History) :
    history.Turned (history.reordered turn) := by
  induction history with
  | nil => exact .nil
  | cons asked history ih => exact .cons ⟨rfl, turn, rfl⟩ ih

/-- The replies to a history are the same, but for which of several groups of a name is meant. -/
inductive Agrees :
    History → List (Except AccessError Reply) → List (Except AccessError Reply) → Prop
  | nil : Agrees [] [] []
  | same {history : History} {replies others : List (Except AccessError Reply)}
      (asked : Timestamp × Request) (reply : Except AccessError Reply)
      (rest : Agrees history replies others) :
      Agrees (asked :: history) (reply :: replies) (reply :: others)
  | namesake {history : History} {replies others : List (Except AccessError Reply)}
      {group other : Group} (now : Timestamp) (turn : Nat) (name : String)
      (named : group.displayName = name) (alike : other.displayName = name)
      (rest : Agrees history replies others) :
      Agrees ((now, .groupByName turn name) :: history) (.ok (.group group) :: replies)
        (.ok (.group other) :: others)

end History

/-- How many numbers a history takes from a store that does not fail. -/
def History.creations : History → Nat
  | [] => 0
  | (_, request) :: history => request.creations + History.creations history

namespace Site

variable {site : Site}

/-! ### Living through a history -/

/-- What a node replies to one request after another, and what becomes of it. -/
def live (site : Site) : History → List (Except AccessError Reply) × Site
  | [] => ([], site)
  | (now, request) :: history =>
    let (reply, after) := (answer now request).perform site
    let (replies, last) := after.live history
    (reply :: replies, last)

/-! ### A node alone with its store -/

/-- The site keeps its rules, nobody else has written to the store, which does not fail, and
the cache serves what the node recalls. -/
structure Alone (site : Site) : Prop where
  sound : site.Sound
  inStep : site.InStep
  faithful : site.node.Faithful
  calm : site.backend.faults = []

/-- A node that has read nothing has cached nothing. -/
theorem entries_blank {config : Config} {cache : RightsCache}
    (h : (Node.blank config).cache = some cache) (question : RightsQuestion) :
    cache.entries[question]? = none := by
  have h : RightsCache.ofConfig? config.cache = some cache := h
  unfold RightsCache.ofConfig? at h
  split at h
  · cases h
    exact Std.ExtTreeMap.getElem?_empty
  · cases h

theorem alone_blank (config : Config) : Alone ⟨.blank config, {}⟩ where
  sound := ⟨Store.sound_empty, Cluster.blank_sound config _⟩
  inStep := {
    group h := by simp [Node.blank, GroupIndex.group?] at h
    relation h := by simp at h }
  faithful := {
    stamp hcache hentry := by
      rw [entries_blank hcache] at hentry
      cases hentry
    current _ hcache hentry := by
      rw [entries_blank hcache] at hentry
      cases hentry }
  calm := rfl

/-- A node stays alone with its store when it answers a request, and takes no more numbers than
the request needs. -/
theorem Alone.answer (h : site.Alone) (now : Timestamp) (request : Request) {count : Nat}
    (hroom : site.backend.store.HasRoom (request.creations + count + 2)) :
    ((answer now request).perform site).2.Alone ∧
      ((answer now request).perform site).2.backend.store.HasRoom (count + 2) := by
  -- a node that is in step takes in nothing that was not counted
  have hkeeps := h.inStep.not_lagsBehind h.sound.keyed request
  obtain ⟨n, hn, hcount, hpasses⟩ :=
    answer_passes h.sound (hroom.mono (Nat.le_add_left _ _)) now request
  have hcount := hcount h.calm
  have hroom' : site.backend.store.HasRoom n := hroom.mono (by omega)
  refine ⟨⟨(hpasses.sound h.sound hroom').1, hpasses.inStep h.sound hroom' h.inStep,
    hpasses.faithful h.sound hroom' hkeeps h.faithful, hpasses.calm h.calm⟩, ?_⟩
  exact hpasses.hasRoom (hroom.mono (by omega))

/-- No request takes back what was counted. -/
theorem Alone.changes_le_answer (h : site.Alone) (now : Timestamp) (request : Request)
    (hroom : site.backend.store.HasRoom 2) :
    site.node.changes ≤ ((Site.answer now request).perform site).2.node.changes := by
  obtain ⟨n, -, -, hpasses⟩ := answer_passes h.sound hroom now request
  exact hpasses.changes_le

theorem Alone.changes_le_live (h : site.Alone) {history : History}
    (hroom : site.backend.store.HasRoom (history.creations + 2)) :
    site.node.changes ≤ (site.live history).2.node.changes := by
  induction history generalizing site with
  | nil => exact Nat.le_refl _
  | cons asked history ih =>
    obtain ⟨now, request⟩ := asked
    obtain ⟨halone, hroom'⟩ := h.answer now request (by simpa [History.creations] using hroom)
    exact Nat.le_trans (h.changes_le_answer now request (hroom.mono (Nat.le_add_left _ _)))
      (ih halone hroom')

/-- A node alone with its store lives as it would without its cache, as long as its counter does
not come round. -/
theorem Alone.live_uncached (h : site.Alone) {history : History}
    (hroom : site.backend.store.HasRoom (history.creations + 2))
    (hcounted : (site.live history).2.node.changes < UInt64.size) :
    site.uncached.live history = ((site.live history).1, (site.live history).2.uncached) := by
  induction history generalizing site with
  | nil => rfl
  | cons asked history ih =>
    have htrusted : site.node.Trusted :=
      ⟨h.faithful, Nat.lt_of_le_of_lt (h.changes_le_live hroom) hcounted⟩
    obtain ⟨now, request⟩ := asked
    -- the first request is answered alike, and leaves a node that is still alone
    have hsame := blind_answer h.sound htrusted now request
    obtain ⟨halone, hroom'⟩ := h.answer now request (by simpa [History.creations] using hroom)
    unfold live
    rw [hsame]
    dsimp only
    rw [ih halone hroom' hcounted]

/-! ### The order in which groups are searched -/

/-- A search for a name finds a group of the name, or asks the store, whatever the order. -/
theorem perform_groupByName_turned (site : Site) (turn turn' : Nat) (name : String) :
    (groupByName turn' name).perform site = (groupByName turn name).perform site ∨
      ∃ group other : Group, group.displayName = name ∧ other.displayName = name ∧
        (groupByName turn name).perform site = (.ok group, site) ∧
        (groupByName turn' name).perform site = (.ok other, site) := by
  have hfound {turn : Nat} {group : Group}
      (h : site.node.groups.groupOfName? turn name = some group) :
      group.displayName = name ∧ (groupByName turn name).perform site = (.ok group, site) := by
    refine ⟨(GroupIndex.mem_namesakes.1
      (GroupIndex.mem_namesakes_iff_exists_turn.2 ⟨turn, h⟩)).2, ?_⟩
    unfold groupByName readGroup
    rw [Call.perform_bind, perform_currentNode]
    dsimp only
    rw [h]
    rfl
  -- whether a group of the name is known does not depend on the turn
  have hknown {turn turn' : Nat} (h : site.node.groups.groupOfName? turn name = none) :
      site.node.groups.groupOfName? turn' name = none :=
    GroupIndex.groupOfName?_eq_none_iff.2 (GroupIndex.groupOfName?_eq_none_iff.1 h)
  cases hgroup : site.node.groups.groupOfName? turn name with
  | none =>
    -- no group of the name is known, so both searches ask the store
    refine .inl ?_
    unfold groupByName readGroup
    rw [Call.perform_bind, Call.perform_bind, perform_currentNode]
    dsimp only
    rw [hgroup, hknown hgroup]
  | some group =>
    cases hother : site.node.groups.groupOfName? turn' name with
    | none => cases hgroup.symm.trans (hknown hother)
    | some other =>
      obtain ⟨hnamed, hrun⟩ := hfound hgroup
      obtain ⟨halike, hrun'⟩ := hfound hother
      exact .inr ⟨group, other, hnamed, halike, hrun, hrun'⟩

/-- So another order changes no reply but that to a name, where several groups have it. -/
theorem perform_answer_turned (site : Site) (now : Timestamp) (request : Request) (turn : Nat) :
    (answer now (request.turned turn)).perform site = (answer now request).perform site ∨
      ∃ (before : Nat) (name : String) (group other : Group),
        request = .groupByName before name ∧ group.displayName = name ∧ other.displayName = name ∧
        (answer now request).perform site = (.ok (.group group), site) ∧
        (answer now (request.turned turn)).perform site = (.ok (.group other), site) := by
  cases request with
  | groupByName before name =>
    have hreply (turn : Nat) : answer now (.groupByName turn name) =
        groupByName turn name >>= fun group => pure (.group group) := rfl
    simp only [Request.turned, hreply, Call.perform_bind]
    obtain hsame | ⟨group, other, hnamed, halike, hrun, hrun'⟩ :=
      perform_groupByName_turned site before turn name
    · exact .inl (by rw [hsame])
    · exact .inr ⟨before, name, group, other, rfl, hnamed, halike, by rw [hrun]; rfl,
        by rw [hrun']; rfl⟩
  | _ => exact .inl rfl

/-- The order in which groups are searched has no bearing on what becomes of a node, and on its
replies only where several groups have the name. -/
theorem live_turned (site : Site) {history other : History} (h : history.Turned other) :
    (site.live other).2 = (site.live history).2 ∧
      history.Agrees (site.live history).1 (site.live other).1 := by
  induction h generalizing site with
  | nil => exact ⟨rfl, .nil⟩
  | @cons asked again history other hasked _ ih =>
    obtain ⟨now, request⟩ := asked
    obtain ⟨moment, repeated⟩ := again
    obtain ⟨rfl, turn, rfl⟩ : moment = now ∧ ∃ turn, repeated = request.turned turn := hasked
    unfold live
    obtain hsame | ⟨before, name, group, namesake, rfl, hnamed, halike, hrun, hrun'⟩ :=
      perform_answer_turned site moment request turn
    · rw [hsame]
      obtain ⟨hsite, hagrees⟩ := ih ((answer moment request).perform site).2
      exact ⟨hsite, .same _ _ hagrees⟩
    · rw [hrun, hrun']
      obtain ⟨hsite, hagrees⟩ := ih site
      exact ⟨hsite, .namesake moment before name hnamed halike hagrees⟩

/-! ### With and without a cache -/

/-- A new node over an empty store replies to any history what it would reply with its cache
switched off, whatever the capacity of the cache and the orders in which groups are searched.  If
the two of them search in different orders, their replies differ at most in which group is meant
by a display name that several have.  The store has 64 bits for its numbers and never reuses one,
and the node has 64 bits for its counter, which is why the history must not use them up. -/
theorem replies_withoutCache (config : Config) {history : History}
    (hroom : history.creations + 2 < UInt64.size)
    (hcounted : (Site.live ⟨.blank config, {}⟩ history).2.node.changes < UInt64.size) :
    (Site.live ⟨.blank config.withoutCache, {}⟩ history).1 =
        (Site.live ⟨.blank config, {}⟩ history).1 ∧
      ∀ other : History, history.Turned other →
        history.Agrees (Site.live ⟨.blank config, {}⟩ history).1
          (Site.live ⟨.blank config.withoutCache, {}⟩ other).1 := by
  have hempty : Store.HasRoom {} (history.creations + 2) := by
    constructor <;> rwa [UInt64.toNat_zero, Nat.zero_add]
  have huncached : Site.uncached ⟨.blank config, {}⟩ = ⟨.blank config.withoutCache, {}⟩ := rfl
  have hsame : (Site.live ⟨.blank config.withoutCache, {}⟩ history).1 =
      (Site.live ⟨.blank config, {}⟩ history).1 := by
    rw [← huncached, (alone_blank config).live_uncached hempty hcounted]
  refine ⟨hsame, fun other hturned => ?_⟩
  rw [← hsame]
  exact (live_turned _ hturned).2

/-- A policy is shared with a group and its rights are resolved before and after somebody joins
and leaves the group, each time twice.  Then somebody asks for a name that two groups have. -/
def sharing : History :=
  let asking := (default, Request.effectiveAccess 1 (.user 5))
  [(default, .createGroup ⟨1⟩ 0 "staff" "Staff"),
    (default, .createPolicy (some "doc") 1 0 none .empty),
    (default, .grantAccess 1 (.user 1) (.group 1) .view),
    asking, asking,
    (default, .relate 1 (.user 5)),
    asking, asking,
    (default, .unrelate 1 (.user 5)),
    asking, asking,
    (default, .createGroup ⟨1⟩ 0 "crew" "Staff"),
    (default, .groupByName 0 "Staff")]

/-- The numbers of the groups that were given. -/
def groupIds (replies : List (Except AccessError Reply)) : List UInt64 :=
  replies.filterMap fun reply => reply.toOption.bind Reply.groupId?

/-- Three of the resolutions are served from the cache.  Which of the groups is meant by the name
is up to the order of the search, with a cache as without one. -/
theorem replies_withoutCache_sharing :
    (Site.live ⟨.blank {}, {}⟩ sharing).2.node.cache.map (·.hits) = some 3 ∧
      (Site.live ⟨.blank (Config.withoutCache {}), {}⟩ sharing).1 =
        (Site.live ⟨.blank {}, {}⟩ sharing).1 ∧
      sharing.Agrees (Site.live ⟨.blank {}, {}⟩ sharing).1
        (Site.live ⟨.blank (Config.withoutCache {}), {}⟩ (sharing.reordered 1)).1 ∧
      groupIds (Site.live ⟨.blank {}, {}⟩ sharing).1 = [1, 2, 1] ∧
      groupIds (Site.live ⟨.blank (Config.withoutCache {}), {}⟩ (sharing.reordered 1)).1 =
        [1, 2, 2] := by
  obtain ⟨hsame, hturned⟩ := @replies_withoutCache {} sharing (by decide) (by decide +kernel)
  exact ⟨by decide +kernel, hsame, hturned _ (History.turned_reordered 1 sharing), by decide +kernel,
    by decide +kernel⟩

end Site

end AccessRights
