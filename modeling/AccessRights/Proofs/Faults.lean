/-
AccessRights/Proofs/Faults.lean

What a plan of faults has in store.

A call takes the next fault that is planned for its method and leaves those
of other methods where they are.  So what is planned for the next calls of a
method does not depend on calls of other methods in between, and a plan without
rivals stays one.

Main results: `next_comm`, `Alone.next` and `spares_next_iff`.
-/
import AccessRights.Store.Fault

namespace AccessRights

namespace FaultPlan

variable {plan : FaultPlan} {method other : StoreMethod}

/-! ### One method and another -/

/-- A fault of another method stays planned. -/
theorem next_cons_of_ne {planned : PlannedFault} (h : planned.method ≠ method) :
    next method (planned :: plan) = ((next method plan).1, planned :: (next method plan).2) := by
  rw [next, if_neg h]

/-- A fault for one more call is used up. -/
theorem next_cons_zero (fault : Fault) (plan : FaultPlan) :
    next method (⟨method, fault, 0⟩ :: plan) = (fault, plan) := by
  rw [next, if_pos rfl]

/-- A fault for several calls loses one of them. -/
theorem next_cons_succ (fault : Fault) (more : Nat) (plan : FaultPlan) :
    next method (⟨method, fault, more + 1⟩ :: plan) = (fault, ⟨method, fault, more⟩ :: plan) := by
  rw [next, if_pos rfl]

/-- Calls of two methods take their faults independently of each other. -/
theorem next_comm (h : method ≠ other) :
    (next method (next other plan).2).1 = (next method plan).1 ∧
      (next method (next other plan).2).2 = (next other (next method plan).2).2 := by
  induction plan with
  | nil => exact ⟨rfl, rfl⟩
  | cons planned plan ih =>
    obtain ⟨own, fault, more⟩ := planned
    by_cases hown : own = method
    · subst hown
      rw [next_cons_of_ne h]
      cases more with
      | zero => rw [next_cons_zero, next_cons_zero]; exact ⟨rfl, rfl⟩
      | succ more => rw [next_cons_succ, next_cons_succ, next_cons_of_ne h]; exact ⟨rfl, rfl⟩
    · rw [@next_cons_of_ne plan method ⟨own, fault, more⟩ hown]
      by_cases hother : own = other
      · subst hother
        cases more with
        | zero => rw [next_cons_zero, next_cons_zero]; exact ⟨rfl, rfl⟩
        | succ more => rw [next_cons_succ, next_cons_succ, next_cons_of_ne hown]; exact ⟨rfl, rfl⟩
      · have hskip (plan : FaultPlan) := @next_cons_of_ne plan other ⟨own, fault, more⟩ hother
        rw [hskip, hskip, @next_cons_of_ne _ method ⟨own, fault, more⟩ hown]
        exact ⟨ih.1, congrArg (List.cons _) ih.2⟩

/-! ### No rivals -/

/-- No other writer is planned. -/
def Alone (plan : FaultPlan) : Prop :=
  ∀ planned ∈ plan, planned.fault ≠ .rival

/-- Where no rival is planned none comes next, and none is planned after. -/
theorem Alone.next (h : plan.Alone) (method : StoreMethod) :
    (plan.next method).1 ≠ .rival ∧ Alone (plan.next method).2 := by
  induction plan with
  | nil => exact ⟨nofun, nofun⟩
  | cons planned plan ih =>
    obtain ⟨own, fault, more⟩ := planned
    have hfault : fault ≠ .rival := h _ List.mem_cons_self
    have hplan : Alone plan := fun planned hmem => h planned (List.mem_cons_of_mem _ hmem)
    have hcons {more : Nat} {plan : FaultPlan} (h : Alone plan) : Alone (⟨own, fault, more⟩ :: plan) :=
      List.forall_mem_cons.2 ⟨hfault, h⟩
    by_cases hown : own = method
    · subst hown
      cases more with
      | zero => rw [next_cons_zero]; exact ⟨hfault, hplan⟩
      | succ more => rw [next_cons_succ]; exact ⟨hfault, hcons hplan⟩
    · rw [@next_cons_of_ne plan method ⟨own, fault, more⟩ hown]
      exact ⟨(ih hplan).1, hcons (ih hplan).2⟩

/-- Other faults can be planned without a rival. -/
theorem Alone.schedule (h : plan.Alone) (method : StoreMethod) {fault : Fault}
    (hfault : fault ≠ .rival) (times : Nat) : Alone (plan.schedule method fault times) := by
  cases times with
  | zero => exact fun planned hmem => h planned (List.mem_filter.1 hmem).1
  | succ more =>
    intro planned hmem
    obtain hold | hnew := List.mem_append.1 hmem
    · exact h planned hold
    · rw [List.mem_singleton.1 hnew]
      exact hfault

/-! ### Calls that will not fail -/

/-- None of the next calls of a method fails, as many as `count`. -/
def Spares (plan : FaultPlan) (method : StoreMethod) : Nat → Prop
  | 0 => True
  | count + 1 => (∀ error, (next method plan).1 ≠ .failure error) ∧
    Spares (next method plan).2 method count

theorem spares_nil (method : StoreMethod) (count : Nat) : Spares [] method count := by
  induction count with
  | zero => exact trivial
  | succ count ih => exact ⟨fun error => by rw [next_nil]; nofun, by rw [next_nil]; exact ih⟩

/-- What is planned for a method does not depend on calls of another one. -/
theorem spares_next_iff (h : method ≠ other) {count : Nat} :
    Spares (next other plan).2 method count ↔ plan.Spares method count := by
  induction count generalizing plan with
  | zero => rfl
  | succ count ih =>
    unfold Spares
    rw [(next_comm h).1, (next_comm h).2, ih]

end FaultPlan

end AccessRights
