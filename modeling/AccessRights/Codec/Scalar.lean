/-
AccessRights/Codec/Scalar.lean

The JSON form of the values that fit into one text: sets of rights, flag
words, moments and kinds.  Every type has a writer `encode` and a reader
`decode?`.
-/
import AccessRights.Actor
import AccessRights.Group
import AccessRights.Json.Fields
import AccessRights.Policy
import AccessRights.Rights
import AccessRights.Roster.Record
import AccessRights.Timestamp.Text

namespace AccessRights

/-! ### Flag words -/

/-- A flag word as a text of names. -/
def encodeFlagWord {w : Nat} (table : List (NamedBit w)) (word : BitVec w) : Json :=
  .string (String.ofList (flagWordText table word))

/-- Reads a flag word from a text of names. -/
def decodeFlagWord? {w : Nat} (table : List (NamedBit w)) (value : Json) :
    Option (BitVec w) := do
  readFlagWord? table (← value.string?).toList

/-- A set of rights in JSON. -/
def Rights.encode (rights : Rights) : Json :=
  encodeFlagWord table rights.bits

/-- Reads a set of rights. -/
def Rights.decode? (value : Json) : Option Rights :=
  (decodeFlagWord? table value).map Rights.mk

/-- The flags of a policy in JSON. -/
def PolicyFlags.encode (flags : PolicyFlags) : Json :=
  encodeFlagWord table flags.bits

/-- Reads the flags of a policy. -/
def PolicyFlags.decode? (value : Json) : Option PolicyFlags :=
  (decodeFlagWord? table value).map PolicyFlags.mk

/-- The flags of a group in JSON. -/
def GroupFlags.encode (flags : GroupFlags) : Json :=
  encodeFlagWord table flags.bits

/-- Reads the flags of a group. -/
def GroupFlags.decode? (value : Json) : Option GroupFlags :=
  (decodeFlagWord? table value).map GroupFlags.mk

/-! ### Moments -/

/-- A moment in JSON. -/
def Timestamp.encode (moment : Timestamp) : Json :=
  .string (String.ofList moment.text)

/-- Reads a moment. -/
def Timestamp.decode? (value : Json) : Option Timestamp := do
  Timestamp.read? (← value.string?).toList

/-! ### Choices -/

/-- The name of a kind of actor in JSON. -/
def ActorKind.tag : ActorKind → String
  | everyone => "everyone"
  | user => "user"
  | role => "role_group"
  | group => "group"

/-- The kind of actor of a name. -/
def ActorKind.ofTag? : String → Option ActorKind
  | "everyone" => some everyone
  | "user" => some user
  | "role_group" => some role
  | "group" => some group
  | _ => none

/-- A kind of actor in JSON. -/
def ActorKind.encode (kind : ActorKind) : Json :=
  .string kind.tag

/-- Reads a kind of actor. -/
def ActorKind.decode? (value : Json) : Option ActorKind := do
  ActorKind.ofTag? (← value.choice?)

/-- A kind of group in JSON. -/
def GroupKind.encode : GroupKind → Json
  | group => .string "group"
  | role => .string "role"

/-- Reads a kind of group. -/
def GroupKind.decode? (value : Json) : Option GroupKind := do
  match ← value.choice? with
  | "group" => some group
  | "role" => some role
  | _ => none

/-- The action of a change in JSON. -/
def ChangeAction.encode : ChangeAction → Json
  | set => .string "set"
  | unset => .string "unset"

/-- Reads the action of a change. -/
def ChangeAction.decode? (value : Json) : Option ChangeAction := do
  match ← value.choice? with
  | "set" => some set
  | "unset" => some unset
  | _ => none

end AccessRights
