/-
AccessRights/Trail.lean

Trails: the numbers that a walk along parent links has passed.

A trail never holds a number twice, so it cannot grow for ever: there are
only `UInt64.size` numbers.  The room that is left is the measure by which walks
end, whatever the links say and however they change during the walk.

Main result: `Trail.room_add_lt` (every new number takes room).
-/

namespace AccessRights

/-! ### How long a list without repetitions can be -/

theorem length_le_of_nodup_of_lt {n : Nat} {xs : List Nat} (hnodup : xs.Nodup)
    (hlt : ∀ x ∈ xs, x < n) : xs.length ≤ n := by
  induction n generalizing xs with
  | zero =>
    cases xs with
    | nil => simp
    | cons x xs => exact absurd (hlt x (by simp)) (by omega)
  | succ n ih =>
    have hshort : (xs.erase n).length ≤ n := by
      refine ih (hnodup.erase n) fun x hx => ?_
      have hmem : x ∈ xs := List.mem_of_mem_erase hx
      have hne : x ≠ n := by
        rintro rfl
        exact hnodup.not_mem_erase hx
      have := hlt x hmem
      omega
    have := List.le_length_erase (l := xs) (a := n)
    omega

/-! ### Trails -/

/-- The numbers a walk has passed, the latest first. -/
structure Trail where
  ids : List UInt64 := []
  nodup : ids.Nodup := by simp
deriving DecidableEq

namespace Trail

/-- The trail of a walk that has not begun. -/
def empty : Trail := {}

instance : Inhabited Trail := ⟨empty⟩

instance : Membership UInt64 Trail where
  mem trail id := id ∈ trail.ids

instance (id : UInt64) (trail : Trail) : Decidable (id ∈ trail) :=
  inferInstanceAs (Decidable (id ∈ trail.ids))

/-- The trail one number further. -/
def add (trail : Trail) (id : UInt64) (fresh : id ∉ trail) : Trail where
  ids := id :: trail.ids
  nodup := List.nodup_cons.2 ⟨fresh, trail.nodup⟩

/-- The count of numbers that are not on the trail. -/
def room (trail : Trail) : Nat :=
  UInt64.size - trail.ids.length

theorem length_le (trail : Trail) : trail.ids.length ≤ UInt64.size := by
  have hnodup : (trail.ids.map UInt64.toNat).Nodup := by
    rw [List.Nodup, List.pairwise_map]
    exact trail.nodup.imp fun hne heq => hne (UInt64.toNat_inj.1 heq)
  have hlt : ∀ x ∈ trail.ids.map UInt64.toNat, x < UInt64.size := by
    intro x hx
    obtain ⟨id, -, rfl⟩ := List.mem_map.1 hx
    exact id.toNat_lt
  simpa using length_le_of_nodup_of_lt hnodup hlt

/-- A number that is not on the trail takes room when it is added. -/
theorem room_add_lt (trail : Trail) {id : UInt64} (fresh : id ∉ trail) :
    (trail.add id fresh).room < trail.room := by
  have := (trail.add id fresh).length_le
  simp only [room, add, List.length_cons] at this ⊢
  omega

@[simp] theorem mem_add {trail : Trail} {id other : UInt64} {fresh : id ∉ trail} :
    other ∈ trail.add id fresh ↔ other = id ∨ other ∈ trail :=
  List.mem_cons

@[simp] theorem not_mem_empty (id : UInt64) : id ∉ empty :=
  List.not_mem_nil

end Trail

end AccessRights
