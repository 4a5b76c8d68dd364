/-
AccessRights/Proofs/Rights.lean

Sets of rights as sets of bits.

A right is a bit that is set, and one set of rights is part of another if
the other one meets it.  Facts about unions and differences are read off
bit by bit.

Main results: `subset_iff` and `mem_union`.
-/
import AccessRights.Rights
import AccessRights.Site.Grants

namespace AccessRights

namespace Rights

variable {a b c d extra : Rights}

/-! ### Bits -/

instance : Membership Nat Rights where
  mem rights i := rights.bits.getLsbD i = true

instance : HasSubset Rights where
  Subset a b := b.satisfies a = true

instance (a b : Rights) : Decidable (a ⊆ b) :=
  inferInstanceAs (Decidable (b.satisfies a = true))

/-- Rights are among others if every bit is. -/
theorem subset_iff : a ⊆ b ↔ ∀ i : Nat, i ∈ a → i ∈ b :=
  satisfies_iff

@[simp] theorem not_mem_empty (i : Nat) : i ∉ (∅ : Rights) := by
  show ¬ (0#32).getLsbD i = true
  simp

@[simp] theorem mem_union {i : Nat} : i ∈ a ∪ b ↔ i ∈ a ∨ i ∈ b := by
  show (a.bits ||| b.bits).getLsbD i = true ↔ a.bits.getLsbD i = true ∨ b.bits.getLsbD i = true
  rw [BitVec.getLsbD_or, Bool.or_eq_true]

/-- A bit is in a union of several if it is in one of them. -/
theorem mem_foldr_union {sets : List Rights} {i : Nat} :
    i ∈ sets.foldr (· ∪ ·) ∅ ↔ ∃ rights ∈ sets, i ∈ rights := by
  induction sets with
  | nil => simp
  | cons rights sets ih =>
    simp only [List.foldr_cons, mem_union, ih, List.mem_cons, or_and_right, exists_or, exists_eq_left]

/-- Sets with the same bits are the same. -/
theorem eq_of_mem_iff (h : ∀ i : Nat, i ∈ a ↔ i ∈ b) : a = b := by
  have hbits : a.bits = b.bits := BitVec.eq_of_getLsbD_eq fun i _ => Bool.eq_iff_iff.2 (h i)
  cases a
  cases b
  exact congrArg Rights.mk hbits

/-! ### Parts of sets -/

theorem subset_trans (hab : a ⊆ b) (hbc : b ⊆ c) : a ⊆ c :=
  subset_iff.2 fun i h => subset_iff.1 hbc i (subset_iff.1 hab i h)

theorem empty_subset (a : Rights) : ∅ ⊆ a :=
  subset_iff.2 fun i h => absurd h (not_mem_empty i)

theorem subset_union_left (a b : Rights) : a ⊆ a ∪ b :=
  subset_iff.2 fun _ h => mem_union.2 (.inl h)

theorem subset_union_right (a b : Rights) : b ⊆ a ∪ b :=
  subset_iff.2 fun _ h => mem_union.2 (.inr h)

/-- What two sets gain together is no more than what each of them gains. -/
theorem union_subset_union_extra (hab : a ⊆ b ∪ extra) (hcd : c ⊆ d ∪ extra) :
    a ∪ c ⊆ b ∪ d ∪ extra := by
  simp only [subset_iff, mem_union] at *
  grind

/-- What is added to a set is what was missing from it. -/
theorem subset_union_missing (a b : Rights) : b ⊆ a ∪ a.missing b :=
  satisfies_union_missing a b

/-- Whoever may grant rights has them. -/
theorem subset_of_satisfies_requiredToGrant {held rights : Rights}
    (h : held.satisfies (Site.requiredToGrant rights) = true) : rights ⊆ held :=
  subset_trans (subset_union_right _ _) h

end Rights

end AccessRights
