/-
AccessRights/Proofs/Passing.lean

Every call is a sequence of events.

A call that changes something first reads, then writes to the store, and in
the end changes the index and counts: the write and the change that goes with
it are one event, and so is a write that failed after a rival got there first.
`Call.Passes` says that a call amounts to events, how many numbers it may take
from the store, and what else it is allowed to do (`licence`).  The rules for parts
of calls are here; the calls on groups, on policies and on grants follow in modules
of their own.

Main results: `Reads.bind_passes` and `ask_cases`.
-/
import AccessRights.Proofs.Event
import AccessRights.Proofs.Reading

namespace AccessRights

namespace Call

variable {α β : Type} {licence : Licence} {most count : Nat} {site : Site}

/-! ### Rules -/

/-- The call amounts to events that take no more than `most` numbers from the store, and no
more than `count` if nothing goes wrong there. -/
def Passes (licence : Licence) (most count : Nat) (call : Call α) (site : Site) : Prop :=
  ∃ n, n ≤ most ∧ (site.backend.faults = [] → n ≤ count) ∧
    Site.Passes licence n site (call.perform site).2

/-- A call that takes no numbers. -/
theorem passes_of_zero {call : Call α} (h : Site.Passes licence 0 site (call.perform site).2) :
    call.Passes licence most count site :=
  ⟨0, Nat.zero_le _, fun _ => Nat.zero_le _, h⟩

theorem Reads.passes {call : Call α} {post : α → Site → Prop} (h : call.Reads site post) :
    call.Passes licence most count site :=
  passes_of_zero h.learns.passes

theorem passes_pure (value : α) : (pure value : Call α).Passes licence most count site :=
  passes_of_zero (.refl site)

theorem passes_throw (error : AccessError) : (throw error : Call α).Passes licence most count site :=
  passes_of_zero (.refl site)

/-- How a call ends that begins by reading: as the reading fails, or as the rest ends. -/
theorem Reads.bind_ends {call : Call α} {next : α → Call β} {mid : α → Site → Prop}
    (ends : Except AccessError β × Site → Prop) (h : call.Reads site mid) (hkeyed : site.Keyed)
    (hrefused : ∀ error after, site.Learns after → ends (.error error, after))
    (hnext : ∀ value after, site.Learns after → after.Keyed → mid value after →
      ends ((next value).perform after)) : ends ((call >>= next).perform site) := by
  rw [perform_bind]
  obtain ⟨error, after, hlearns, hrun⟩ | ⟨value, after, hlearns, hvalue, hrun⟩ := h.cases <;>
    rw [hrun]
  · exact hrefused error after hlearns
  · exact hnext value after hlearns (hlearns.keyed hkeyed) hvalue

/-- Reading first and then passing is passing. -/
theorem Reads.bind_passes {call : Call α} {next : α → Call β} {mid : α → Site → Prop}
    (h : call.Reads site mid) (hkeyed : site.Keyed)
    (hnext : ∀ value after, site.Learns after → after.Keyed → mid value after →
      (next value).Passes licence most count after) : (call >>= next).Passes licence most count site := by
  refine h.bind_ends (fun run => ∃ n, n ≤ most ∧ (site.backend.faults = [] → n ≤ count) ∧
    Site.Passes licence n site run.2) hkeyed ?_ ?_
  · exact fun error after hlearns => ⟨0, Nat.zero_le _, fun _ => Nat.zero_le _, hlearns.passes⟩
  · intro value after hlearns hkeyed' hvalue
    obtain ⟨n, hn, hcount, hpasses⟩ := hnext value after hlearns hkeyed' hvalue
    refine ⟨n, hn, fun hcalm => hcount (hlearns.still.calm hcalm), ?_⟩
    rw [← Nat.zero_add n]
    exact hlearns.passes.trans hpasses

/-- After a first part that goes through, all depends on the second one. -/
theorem fst_perform_bind {call : Call α} {value : α} {after : Site}
    (h : call.perform site = (.ok value, after)) (next : α → Call β) :
    ((call >>= next).perform site).1 = ((next value).perform after).1 := by
  rw [perform_bind, h]

/-- A call leaves the site as its first part does if the second one changes nothing. -/
theorem snd_perform_bind {call : Call α} {next : α → Call β}
    (hnext : ∀ value after, ((next value).perform after).2 = after) :
    ((call >>= next).perform site).2 = (call.perform site).2 := by
  rw [perform_bind]
  rcases call.perform site with ⟨error | value, after⟩
  · rfl
  · exact hnext value after

/-- What is made of the value of a call changes nothing else. -/
theorem perform_bind_pure (call : Call α) (f : α → β) (site : Site) :
    (call >>= fun value => pure (f value)).perform site =
      ((call.perform site).1.map f, (call.perform site).2) := by
  rw [perform_bind]
  rcases call.perform site with ⟨error | value, after⟩ <;> rfl

/-- What comes after and changes nothing makes no difference. -/
theorem Passes.bind_still {call : Call α} {next : α → Call β}
    (h : call.Passes licence most count site)
    (hnext : ∀ value after, ((next value).perform after).2 = after) :
    (call >>= next).Passes licence most count site := by
  obtain ⟨n, hn, hcount, hpasses⟩ := h
  refine ⟨n, hn, hcount, ?_⟩
  rw [snd_perform_bind hnext]
  exact hpasses

theorem Reads.map_passes {call : Call α} {post : α → Site → Prop} (h : call.Reads site post)
    (f : α → β) : (call >>= fun value => pure (f value)).Passes licence most count site :=
  h.passes.bind_still fun _ _ => rfl

theorem passes_currentNode {next : Node → Call β} (h : (next site.node).Passes licence most count site) :
    (Site.currentNode >>= next).Passes licence most count site := by
  have hbind : (Site.currentNode >>= next).perform site = (next site.node).perform site := by
    rw [perform_bind, Site.perform_currentNode]
  obtain ⟨n, hn, hcount, hpasses⟩ := h
  exact ⟨n, hn, hcount, hbind ▸ hpasses⟩

/-! ### Writing to the store -/

/-- A call of the store that writes, seen from the site. -/
theorem ask_cases {request : StoreCall α} {slip : Store → Store → Prop}
    {effect : Store → α → Store → Prop} (h : Backend.Writes request slip effect)
    (wrap : StoreError → AccessError) (site : Site) :
    ∃ (faults : FaultPlan) (middle : Store),
      (site.backend.faults = [] → faults = [] ∧ middle = site.backend.store) ∧
      (middle = site.backend.store ∨ slip site.backend.store middle) ∧
      ((∃ error, (ask wrap request).perform site =
          (.error error, { site with backend := ⟨middle, faults⟩ })) ∨
        ∃ value store, effect middle value store ∧
          (ask wrap request).perform site = (.ok value, { site with backend := ⟨store, faults⟩ })) := by
  obtain ⟨faults, middle, hcalm, hslip, ⟨error, hrun⟩ | ⟨value, store, heffect, hrun⟩⟩ :=
    h site.backend
  · refine ⟨faults, middle, hcalm, hslip, .inl ⟨wrap error, ?_⟩⟩
    rw [perform_ask, hrun]
    rfl
  · refine ⟨faults, middle, hcalm, hslip, .inr ⟨value, store, heffect, ?_⟩⟩
    rw [perform_ask, hrun]
    rfl

/-- The same for a call that no rival can forestall: it fails and writes nothing, or it has
its effect. -/
theorem ask_cases_alone {request : StoreCall α} {effect : Store → α → Store → Prop}
    (h : Backend.Writes request Backend.NoRival effect) (wrap : StoreError → AccessError)
    (site : Site) :
    ∃ faults : FaultPlan, (site.backend.faults = [] → faults = []) ∧
      ((∃ error, (ask wrap request).perform site =
          (.error error, { site with backend := { site.backend with faults } })) ∨
        ∃ value store, effect site.backend.store value store ∧
          (ask wrap request).perform site = (.ok value, { site with backend := ⟨store, faults⟩ })) := by
  obtain ⟨faults, middle, hcalm, rfl | hslip, hcases⟩ := ask_cases h wrap site
  · exact ⟨faults, fun h => (hcalm h).1, hcases⟩
  · exact hslip.elim

end Call

namespace Site

open Call

variable {licence : Licence} {most count : Nat} {site : Site}

/-- Meeting the store: a fault is used up, and a rival may have written something. -/
theorem met_passes (licence : Licence) {faults : FaultPlan} {middle : Store} {slip : Prop}
    (hcalm : site.backend.faults = [] → faults = [] ∧ middle = site.backend.store)
    (hslip : middle = site.backend.store ∨ slip)
    (hevent : slip → Event licence { site with backend := { site.backend with faults } } 1
      { site with backend := ⟨middle, faults⟩ }) :
    ∃ k, k ≤ 1 ∧ (site.backend.faults = [] → k = 0) ∧
      Site.Passes licence k site { site with backend := ⟨middle, faults⟩ } := by
  have hfault : site.Learns { site with backend := { site.backend with faults } } :=
    .single (.fault faults fun h => (hcalm h).1)
  by_cases hmiddle : middle = site.backend.store
  · subst hmiddle
    exact ⟨0, Nat.zero_le _, fun _ => rfl, hfault.passes⟩
  -- something has changed, so a fault was planned and a rival has written
  · refine ⟨1, Nat.le_refl _, fun h => absurd (hcalm h).2 hmiddle, ?_⟩
    exact hfault.passes.trans (.single (hevent (hslip.resolve_left hmiddle)))

end Site

end AccessRights
