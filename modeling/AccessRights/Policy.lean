/-
AccessRights/Policy.lean

Policies: descriptors of protected objects.

A policy is found by a key, by the object it protects (a type name and a
number), or by both.  It may hang below a parent policy.  Two flags say how
the parent's rights reach it: an inherited policy has the parent's rights
only, an extended one adds its own roster to them.

A policy is checked when it is drafted and when it is updated, but not when it
gets another parent.  What lasts through all three is that it is proper.

Main results: `validate_eq_ok_iff` (which policies are well formed),
`draft_eq_ok_iff` (what a draft consists of), `proper_draft` and `Proper.move`.
-/
import AccessRights.Error
import AccessRights.KeyOrder
import AccessRights.Text.FlagWord
import AccessRights.Timestamp

namespace AccessRights

/-! ### Flags -/

/-- How a policy takes part in the rights of its parent.  Bits without a name are kept. -/
structure PolicyFlags where
  bits : BitVec 8
deriving DecidableEq, Inhabited

namespace PolicyFlags

/-- Neither inherited nor extended. -/
def empty : PolicyFlags := ⟨0⟩
/-- Rights come from the parent alone. -/
def inherit : PolicyFlags := ⟨1⟩
/-- Rights of the parent and of the own roster are combined. -/
def extend : PolicyFlags := ⟨2⟩

/-- The names of the two flags, lowest bit first. -/
def table : List (NamedBit 8) :=
  [⟨"INHERIT", inherit.bits⟩, ⟨"EXTEND", extend.bits⟩]

/-- Whether every bit of `wanted` is set. -/
def contains (flags wanted : PolicyFlags) : Bool :=
  flags.bits &&& wanted.bits == wanted.bits

/-- The flags of a policy without a parent: neither inherited nor extended, the nameless
bits as before. -/
def detached (flags : PolicyFlags) : PolicyFlags :=
  ⟨flags.bits &&& ~~~(inherit.bits ||| extend.bits)⟩

@[simp] theorem not_contains_inherit_detached (flags : PolicyFlags) :
    flags.detached.contains .inherit = false := by
  simp [contains, detached, inherit, extend, BitVec.and_assoc]

@[simp] theorem not_contains_extend_detached (flags : PolicyFlags) :
    flags.detached.contains .extend = false := by
  simp [contains, detached, inherit, extend, BitVec.and_assoc]

/-- Without any bits no flag is set. -/
theorem ne_empty_of_contains {flags wanted : PolicyFlags} (hwanted : wanted ≠ .empty)
    (h : flags.contains wanted = true) : flags ≠ .empty := by
  rintro rfl
  obtain ⟨bits⟩ := wanted
  apply hwanted
  have hbits : 0#8 &&& bits = bits := by simpa [contains, empty] using h
  rw [BitVec.zero_and] at hbits
  rw [← hbits]
  rfl

end PolicyFlags

/-! ### Objects -/

/-- An object outside the library: the name of its type and its number there. -/
structure PolicyObject where
  name : String
  id : UInt64
deriving DecidableEq, Inhabited

namespace PolicyObject

/-- The object as it appears in messages. -/
def text (object : PolicyObject) : String :=
  object.name ++ ":" ++ toString object.id

/-- Whether the object has a name and a number. -/
def isDesignator (object : PolicyObject) : Bool :=
  object.name != "" && object.id != 0

instance : Ord PolicyObject :=
  ⟨compareByKeys (fun object => object.name) fun object => object.id⟩

instance : Std.TransOrd PolicyObject :=
  inferInstanceAs (Std.TransCmp
    (compareByKeys (fun object : PolicyObject => object.name) fun object => object.id))

instance : Std.LawfulEqOrd PolicyObject :=
  lawfulEqCmp_byKeys fun a b hname hid => by
    cases a
    cases b
    simp_all

end PolicyObject

/-! ### Policies -/

/-- The descriptor of a protected object.  The number zero stands for "not stored yet" in
`id`, for "no parent" in `parentId` and for "nobody" in `ownerId`. -/
structure Policy where
  id : UInt64
  parentId : UInt64
  ownerId : UInt64
  key : Option String
  object : Option PolicyObject
  flags : PolicyFlags
  createdAt : Timestamp
  updatedAt : Timestamp
deriving DecidableEq, Inhabited

namespace Policy

/-- Whether the rights come from the parent alone. -/
def isInherited (policy : Policy) : Bool :=
  policy.flags.contains .inherit

/-- Whether the rights of the parent and of the own roster are combined. -/
def isExtended (policy : Policy) : Bool :=
  policy.flags.contains .extend

/-- Whether the user owns the policy. -/
def isOwner (policy : Policy) (userId : UInt64) : Bool :=
  policy.ownerId != 0 && policy.ownerId == userId

/-- Whether the policy has a non-empty key or an object. -/
def isDesignated (policy : Policy) : Bool :=
  policy.object.isSome || policy.key.any (· != "")

/-- The policy as it is named in messages: its number and the first designator it has. -/
def designation (policy : Policy) : String :=
  match policy.key, policy.object with
  | some key, _ => toString policy.id ++ " (" ++ key ++ ")"
  | none, some object => toString policy.id ++ " (" ++ object.text ++ ")"
  | none, none => toString policy.id

/-! ### Well-formed policies -/

/-- Checks that a policy is well formed; of several faults the first in this order is
reported. -/
def validate (policy : Policy) : Except AccessError Unit :=
  if policy.isInherited && policy.isExtended then
    .error (.invalidPolicyFlags "inherit and extend are mutually exclusive")
  else if policy.flags != .empty && policy.parentId == 0 then
    .error .parentRequired
  else if policy.parentId != 0 && policy.parentId == policy.id then
    .error (.circularParent policy.id)
  else match policy.object with
    | some object =>
      if object.isDesignator then .ok ()
      else .error (.invalidInput
        ("policy object requires a name and a non-zero id, got '" ++ object.text ++ "'"))
    | none => if policy.isDesignated then .ok () else .error .emptyDesignators

/-- A policy is well formed when its flags agree with each other and with its parent, it is
not its own parent, and its designators are real. -/
theorem validate_eq_ok_iff {policy : Policy} :
    policy.validate = .ok () ↔
      ¬ (policy.isInherited = true ∧ policy.isExtended = true) ∧
      (policy.flags ≠ .empty → policy.parentId ≠ 0) ∧
      (policy.parentId ≠ 0 → policy.parentId ≠ policy.id) ∧
      (∀ object ∈ policy.object, object.isDesignator = true) ∧
      policy.isDesignated = true := by
  unfold validate
  cases hobject : policy.object with
  | none => grind
  | some object =>
    have hdesignated : policy.isDesignated = true := by simp [isDesignated, hobject]
    grind

/-- A new policy, not stored yet, made at the moment `now`.  An empty key counts as none. -/
def draft (now : Timestamp) (key : Option String) (ownerId parentId : UInt64)
    (object : Option PolicyObject) (flags : PolicyFlags) : Except AccessError Policy :=
  let policy : Policy :=
    { id := 0, parentId, ownerId, key := key.filter (· != ""), object, flags
      createdAt := now, updatedAt := now }
  policy.validate.map fun _ => policy

theorem draft_eq_ok_iff {now : Timestamp} {key : Option String} {ownerId parentId : UInt64}
    {object : Option PolicyObject} {flags : PolicyFlags} {policy : Policy} :
    draft now key ownerId parentId object flags = .ok policy ↔
      policy = { id := 0, parentId, ownerId, key := key.filter (· != ""), object, flags
                 createdAt := now, updatedAt := now } ∧
      policy.validate = .ok () := by
  simp only [draft, Except.map]
  constructor
  · intro h
    split at h
    · cases h
    · rename_i hvalid
      cases h
      exact ⟨rfl, hvalid⟩
  · rintro ⟨rfl, hvalid⟩
    simp only [hvalid]

/-! ### Proper policies -/

/-- The flags of a policy agree with each other and with its parent, and its designators are
real. -/
structure Proper (policy : Policy) : Prop where
  exclusive : ¬ (policy.isInherited = true ∧ policy.isExtended = true)
  parented : policy.isInherited = true ∨ policy.isExtended = true → policy.parentId ≠ 0
  designated : policy.key.isSome = true ∨ policy.object.isSome = true
  key : ∀ key, policy.key = some key → key ≠ ""
  object : ∀ object, policy.object = some object → object.name ≠ "" ∧ object.id ≠ 0

variable {policy : Policy}

/-- Whether a key is empty is not part of the check. -/
theorem Proper.of_validate (hvalid : policy.validate = .ok ())
    (hkey : ∀ key, policy.key = some key → key ≠ "") : policy.Proper := by
  obtain ⟨hexclusive, hparent, -, hobject, hdesignated⟩ := validate_eq_ok_iff.1 hvalid
  refine ⟨hexclusive, ?_, ?_, hkey, fun object hsome => ?_⟩
  · rintro (hinherited | hextended)
    · exact hparent (PolicyFlags.ne_empty_of_contains (by decide) hinherited)
    · exact hparent (PolicyFlags.ne_empty_of_contains (by decide) hextended)
  · unfold isDesignated at hdesignated
    rw [Bool.or_eq_true] at hdesignated
    refine hdesignated.symm.imp_left fun hany => ?_
    obtain ⟨key, hsome, -⟩ := (Option.any_eq_true _ _).1 hany
    rw [hsome, Option.isSome_some]
  · simpa [PolicyObject.isDesignator] using hobject object hsome

theorem proper_draft {now : Timestamp} {key : Option String} {ownerId parentId : UInt64}
    {object : Option PolicyObject} {flags : PolicyFlags}
    (h : draft now key ownerId parentId object flags = .ok policy) : policy.Proper := by
  obtain ⟨rfl, hvalid⟩ := draft_eq_ok_iff.1 h
  refine Proper.of_validate hvalid fun text hsome => ?_
  simpa using (Option.filter_eq_some_iff.1 hsome).2

/-- Under any real key a proper policy is proper. -/
theorem Proper.withKey (h : policy.Proper) {key : String} (hkey : key ≠ "") :
    { policy with key := some key }.Proper where
  exclusive := h.exclusive
  parented := h.parented
  designated := .inl rfl
  key _ hsome := by
    cases hsome
    exact hkey
  object := h.object

/-- A proper policy stays so under another parent, and without one if it is detached. -/
theorem Proper.move {moved : Policy} (h : policy.Proper) (hkey : moved.key = policy.key)
    (hobject : moved.object = policy.object)
    (hflags : moved.parentId = 0 ∧ moved.flags = policy.flags.detached ∨
      moved.parentId ≠ 0 ∧ moved.flags = policy.flags) : moved.Proper := by
  refine ⟨?_, ?_, ?_, ?_, ?_⟩
  · obtain ⟨-, hflags⟩ | ⟨-, hflags⟩ := hflags
    · simp [isInherited, hflags]
    · simpa only [isInherited, isExtended, hflags] using h.exclusive
  · obtain ⟨-, hflags⟩ | ⟨hparent, -⟩ := hflags
    · simp [isInherited, isExtended, hflags]
    · exact fun _ => hparent
  · rw [hkey, hobject]
    exact h.designated
  · rw [hkey]
    exact h.key
  · rw [hobject]
    exact h.object

end Policy

end AccessRights
