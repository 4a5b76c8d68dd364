/-
AccessRights/Actor.lean

Who rights are granted to: the public, a user, a role or a group, the last
three named by a number.

Actors are ordered by kind first and number second.  The order is lawful
(`Std.TransOrd`, `Std.LawfulEqOrd`), so actors can key ordered maps and
lists of actors have one sorted form.
-/
import AccessRights.KeyOrder

namespace AccessRights

/-! ### Kinds -/

/-- The kinds of actor. -/
inductive ActorKind where
  | everyone
  | user
  | role
  | group
deriving DecidableEq, Inhabited

namespace ActorKind

/-- The place of a kind in the order of kinds. -/
def rank : ActorKind → Nat
  | everyone => 0
  | user => 1
  | role => 2
  | group => 3

theorem rank_injective {a b : ActorKind} (h : a.rank = b.rank) : a = b := by
  cases a <;> cases b <;> simp_all [rank]

/-- The kind as it appears in messages. -/
def text : ActorKind → String
  | everyone => "everyone"
  | user => "user"
  | role => "role"
  | group => "group"

end ActorKind

/-! ### Actors -/

/-- Someone rights are checked for or granted to. -/
structure Actor where
  kind : ActorKind
  id : UInt64
deriving DecidableEq, Inhabited

namespace Actor

/-- The public. -/
def everyone : Actor := ⟨.everyone, 0⟩
/-- The user of a number. -/
def user (id : UInt64) : Actor := ⟨.user, id⟩
/-- The role of a number. -/
def role (id : UInt64) : Actor := ⟨.role, id⟩
/-- The group of a number. -/
def group (id : UInt64) : Actor := ⟨.group, id⟩

/-- Whether the actor is the public, whatever number it carries. -/
def isEveryone (actor : Actor) : Bool :=
  actor.kind == .everyone

/-- The actor in its standard form: the public carries the number zero. -/
def normalize (actor : Actor) : Actor :=
  if actor.isEveryone then everyone else actor

theorem normalize_of_not_everyone {actor : Actor} (h : actor.isEveryone = false) :
    actor.normalize = actor := by
  simp [normalize, h]

@[simp] theorem normalize_normalize (actor : Actor) :
    actor.normalize.normalize = actor.normalize := by
  unfold normalize
  split <;> simp_all [everyone, isEveryone]

/-- The actor as it appears in messages. -/
def text (actor : Actor) : String :=
  match actor.kind with
  | .everyone => "everyone"
  | kind => kind.text ++ ":" ++ toString actor.id

/-! ### The order of actors -/

instance : Ord Actor :=
  ⟨compareByKeys (fun actor => actor.kind.rank) fun actor => actor.id⟩

instance : Std.TransOrd Actor :=
  inferInstanceAs (Std.TransCmp
    (compareByKeys (fun actor : Actor => actor.kind.rank) fun actor => actor.id))

instance : Std.LawfulEqOrd Actor :=
  lawfulEqCmp_byKeys fun a b hkind hid => by
    have hkind := ActorKind.rank_injective hkind
    cases a
    cases b
    simp_all

end Actor

end AccessRights
