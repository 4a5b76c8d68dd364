/-
AccessRights/Proofs/Editing.lean

What a call may do to a site.

A call does nothing to a site but edit it, also when it is refused half-way: the edits
it has made by then stay made.  This holds at every site, whatever is in the store.  It
holds of the parts of a call, and so of the call (`Composed.edited`).  Only where a policy
is taken in does it matter what went before: the store has just given it, or has just
taken it.

Main results: `Site.edited_answer` and `Site.edited_rosterStep`.
-/
import AccessRights.Proofs.Composed

namespace AccessRights

namespace Call

variable {α β : Type} {part : (α : Type) → Call α → Site → Prop} {site : Site}

/-! ### Rules -/

/-- The call does nothing to the site but edit it. -/
def Edits (call : Call α) (site : Site) : Prop :=
  site.Edited (call.perform site).2

/-- To give a value edits nothing. -/
theorem edits_pure (value : α) (site : Site) : (pure value : Call α).Edits site := .refl

/-- The edits of the second call come after those of the first one. -/
theorem Edits.bind {call : Call α} {next : α → Call β} (h : call.Edits site)
    (hnext : ∀ value after, call.perform site = (.ok value, after) → (next value).Edits after) :
    (call >>= next).Edits site := by
  unfold Edits at h ⊢
  rw [perform_bind]
  rcases hrun : call.perform site with ⟨error | value, after⟩ <;> rw [hrun] at h
  · exact h
  · exact h.trans (hnext value after hrun)

/-- Looking at the memory of the node edits nothing. -/
theorem edits_look {next : Node → Call β} (h : (next site.node).Edits site) :
    (Site.currentNode >>= next).Edits site := by
  unfold Edits
  rw [perform_bind, Site.perform_currentNode]
  exact h

/-- Calls whose parts do nothing but edit do nothing but edit. -/
theorem Composed.edited {call : Call α} (h : Composed part call site)
    (hpart : ∀ {α : Type} {call : Call α} {site : Site}, part α call site → call.Edits site) :
    call.Edits site := by
  -- along the way the call is put together; what is no part does nothing by itself
  induction h with
  | part whole => exact hpart whole
  | value | refusal => exact .refl
  | lifted result site =>
    unfold Edits
    rw [perform_liftExcept]
  | bind _ _ ih ihnext => exact ih.bind ihnext
  | outcome _ ih => exact ih
  | look _ _ ih => exact edits_look ih

end Call

namespace Site

open Call

/-! ### Parts -/

variable {fit : Site → Prop} {site : Site}

/-- The parts of a call do nothing but edit, provided that resolutions do. -/
theorem Part.edited {α : Type} {call : Call α} (h : Part fit α call site)
    (hresolve : ∀ site, fit site → ∀ policyId actor, (effectiveAccess policyId actor).Edits site) :
    call.Edits site := by
  cases h with
  | ask wrap edits =>
    -- whether it succeeds or fails, the store has done what it has done
    unfold Call.Edits
    rw [perform_ask]
    exact edits site
  | attempt edits => exact edits site
  | note groups policies => exact .single (.noted _ (groups site.node) (policies site.node))
  | regroup edits => exact .single (.regrouped (edits site.node.groups))
  | takeIn stored => exact .single (.takenIn stored)
  | remove wrap policyId =>
    obtain ⟨faults, middle, hcalm, hslip, hrun⟩ := Backend.writes_deletePolicy policyId site.backend
    obtain rfl : middle = site.backend.store := hslip.resolve_right id
    have hmet : site.Edited { site with backend := { site.backend with faults } } :=
      .single (.served _ rfl fun h => (hcalm h).1)
    unfold Call.Edits
    rw [perform_bind, perform_ask]
    -- the policy is gone from the store exactly if it is forgotten
    obtain ⟨error, hrun⟩ | ⟨_, store, ⟨policies, hdelete, rfl⟩, hrun⟩ := hrun <;> rw [hrun]
    · exact hmet
    · exact hmet.tail (.deleted hdelete)
  | resolve here policyId actor => exact hresolve site here policyId actor

/-- A resolution edits, and so does what it leaves in the cache. -/
theorem edited_effectiveAccess (policyId : UInt64) (actor : Actor) (site : Site) :
    (effectiveAccess policyId actor).Edits site := by
  have hnote {edit : Node → Node} (hgroups : ∀ node, (edit node).groups = node.groups)
      (hpolicies : ∀ node, (edit node).policies = node.policies) (site : Site) :
      (editNode edit).Edits site := .single (.noted _ (hgroups site.node) (hpolicies site.node))
  -- to look into the cache counts a hit or a miss, and may drop what is stale
  have hcached (question : RightsQuestion) : (cached? question).Edits site := by
    refine edits_look ?_
    split
    · exact edits_pure _ site
    · refine Edits.bind (hnote ?_ ?_ site) fun _ after _ => edits_pure _ after <;>
        exact fun _ => rfl
  -- without the cache nothing but parts is left, and no resolution among them
  have hresolve (question : RightsQuestion) (site : Site) :
      (resolve question.policyId question.actor).Edits site :=
    (@composed_resolve (fun _ => False) _ _ site).edited fun h => h.edited fun _ => False.elim
  refine (hcached _).bind fun found first _ => ?_
  split
  · exact edits_pure _ first
  · -- not cached, so resolved, and put into the cache after
    refine edits_look ((hresolve _ first).bind fun rights second _ => ?_)
    refine Edits.bind (hnote ?_ ?_ second) fun _ after _ => edits_pure _ after <;>
      exact fun _ => rfl

/-- Rights can be resolved anywhere. -/
theorem staysFit_anywhere : StaysFit fun _ => True :=
  ⟨fun _ _ => trivial, fun _ _ => trivial, fun _ _ => trivial⟩

/-- Since rights can be resolved anywhere, it is enough that a call is composed of parts.
-/
theorem edited_of_composed {α : Type} {call : Call α}
    (h : Composed (Part fun _ => True) call site) : call.Edits site :=
  h.edited fun hpart => hpart.edited fun site _ policyId actor =>
    edited_effectiveAccess policyId actor site

/-! ### Requests -/

/-- No request does anything but edit, whatever is in the store. -/
theorem edited_answer (now : Timestamp) (request : Request) (site : Site) :
    (answer now request).Edits site :=
  edited_of_composed (composed_answer staysFit_anywhere trivial now request)

/-- Nor does a step on a live roster. -/
theorem edited_rosterStep (policyId : UInt64) (step : RosterStep) (site : Site) :
    (rosterStep policyId step).Edits site :=
  edited_of_composed (composed_rosterStep policyId step site)

end Site

end AccessRights
