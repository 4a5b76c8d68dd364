/-
AccessRights/Rights.lean

Sets of rights as words of 32 bits.

Seven bits have a name; the others carry no meaning but are kept through
every operation, so that a word read from outside is given back unchanged.
Rights from several sources combine by union, and a request is met when
every requested bit is held.

Main results: `satisfies_iff` (a request is met bit by bit) and
`satisfies_union_missing` (what is missing suffices to meet it).
-/
import AccessRights.Text.FlagWord

namespace AccessRights

/-- A set of rights. -/
structure Rights where
  bits : BitVec 32
deriving DecidableEq, Inhabited

namespace Rights

/-! ### The named rights -/

/-- Read the protected object. -/
def view : Rights := ⟨1⟩
/-- Create objects under it. -/
def create : Rights := ⟨2⟩
/-- Modify it. -/
def change : Rights := ⟨4⟩
/-- Remove it. -/
def delete : Rights := ⟨8⟩
/-- Duplicate it. -/
def copy : Rights := ⟨16⟩
/-- Relocate it. -/
def move : Rights := ⟨32⟩
/-- Grant and revoke rights on it. -/
def manageAccess : Rights := ⟨64⟩

/-- The names of the seven rights, lowest bit first. -/
def table : List (NamedBit 32) :=
  [⟨"VIEW", view.bits⟩, ⟨"CREATE", create.bits⟩, ⟨"CHANGE", change.bits⟩,
   ⟨"DELETE", delete.bits⟩, ⟨"COPY", copy.bits⟩, ⟨"MOVE", move.bits⟩,
   ⟨"MANAGE_ACCESS", manageAccess.bits⟩]

/-! ### The algebra of rights -/

/-- No rights. -/
def empty : Rights := ⟨0⟩

/-- The rights held in one set or the other. -/
def union (a b : Rights) : Rights := ⟨a.bits ||| b.bits⟩

instance : EmptyCollection Rights := ⟨empty⟩
instance : Union Rights := ⟨union⟩

@[simp] theorem union_empty (rights : Rights) : rights ∪ ∅ = rights := by
  show (⟨rights.bits ||| 0#32⟩ : Rights) = rights
  rw [BitVec.or_zero]

/-- The seven named rights together. -/
def full : Rights :=
  view ∪ create ∪ change ∪ delete ∪ copy ∪ move ∪ manageAccess

/-- Whether every bit of `required` is held. -/
def satisfies (held required : Rights) : Bool :=
  held.bits &&& required.bits == required.bits

/-- The bits of `required` that are not held. -/
def missing (held required : Rights) : Rights :=
  ⟨required.bits &&& ~~~held.bits⟩

theorem satisfies_iff {held required : Rights} :
    held.satisfies required = true ↔
      ∀ i, required.bits.getLsbD i = true → held.bits.getLsbD i = true := by
  rw [satisfies, beq_iff_eq]
  constructor
  · intro h i hi
    rw [← h, BitVec.getLsbD_and, Bool.and_eq_true] at hi
    exact hi.1
  · intro h
    apply BitVec.eq_of_getLsbD_eq
    intro i _
    rw [BitVec.getLsbD_and]
    cases hr : required.bits.getLsbD i with
    | false => simp
    | true => simp [h i hr]

/-- What was missing is just what has to be added. -/
theorem satisfies_union_missing (held required : Rights) :
    (held ∪ held.missing required).satisfies required = true := by
  rw [satisfies_iff]
  intro i hi
  have hlt := BitVec.lt_of_getLsbD hi
  show (held.bits ||| (required.bits &&& ~~~held.bits)).getLsbD i = true
  simp [hi, hlt]

/-! ### Text -/

/-- The names of the held rights; all seven together have one name of their own. -/
def names (rights : Rights) : List String :=
  if rights = full then ["FULL_ACCESS"]
  else (heldBits table rights.bits).map NamedBit.name

/-- The rights as they appear in messages. -/
def text (rights : Rights) : String :=
  if rights = ∅ then "NONE" else "|".intercalate rights.names

end Rights

end AccessRights
