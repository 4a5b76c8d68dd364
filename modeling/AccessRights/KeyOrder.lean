/-
AccessRights/KeyOrder.lean

Ordering by two keys in turn.

A type whose values are told apart by two ordered keys is ordered by the
first key and then by the second.  The order is lawful whenever the orders
of the keys are, so the type can key ordered maps.

Main result: `lawfulEqCmp_byKeys`.
-/

namespace AccessRights

variable {α β γ : Type}

/-- Compares by a first key and, where that is equal, by a second one. -/
abbrev compareByKeys [Ord β] [Ord γ] (first : α → β) (second : α → γ) : α → α → Ordering :=
  compareLex (compareOn first) (compareOn second)

/-- Values compare as equal only if they are, provided that their two keys determine
them. -/
theorem lawfulEqCmp_byKeys [Ord β] [Std.LawfulEqOrd β] [Ord γ] [Std.LawfulEqOrd γ]
    {first : α → β} {second : α → γ}
    (determined : ∀ a b, first a = first b → second a = second b → a = b) :
    Std.LawfulEqCmp (compareByKeys first second) where
  eq_of_compare {a b} h := by
    obtain ⟨hfirst, hsecond⟩ := compareLex_eq_eq.1 h
    exact determined a b (Std.LawfulEqOrd.eq_of_compare hfirst)
      (Std.LawfulEqOrd.eq_of_compare hsecond)

end AccessRights
