/-
AccessRights/Codec/Record.lean

The JSON form of the structures: actors, policies, groups, rosters and
settings.  Every type has a writer `encode` and a reader `decode?`; the
writers put the fields in the order of their declaration, and leave out
the key and the object of a policy that has none.
-/
import AccessRights.Codec.Scalar
import AccessRights.Config
import AccessRights.Json.Reader

namespace AccessRights

open Json (required withDefault nullable)

/-! ### Actors and memberships -/

/-- An actor in JSON. -/
def Actor.encode (actor : Actor) : Json :=
  .ofFields [("kind", actor.kind.encode), ("id", .word actor.id)]

/-- Reads an actor. -/
def Actor.decode? (value : Json) : Option Actor := do
  match ← value.slots? ["kind", "id"] with
  | [kind, id] =>
    some ⟨← required ActorKind.decode? kind, ← required Json.word? id⟩
  | _ => none

/-- A membership in JSON. -/
def Relation.encode (relation : Relation) : Json :=
  .ofFields [("group_id", .word relation.groupId), ("asset", relation.asset.encode)]

/-- Reads a membership. -/
def Relation.decode? (value : Json) : Option Relation := do
  match ← value.slots? ["group_id", "asset"] with
  | [groupId, asset] =>
    some ⟨← required Json.word? groupId, ← required Actor.decode? asset⟩
  | _ => none

/-! ### Policies -/

/-- A protected object in JSON. -/
def PolicyObject.encode (object : PolicyObject) : Json :=
  .ofFields [("name", .string object.name), ("id", .word object.id)]

/-- Reads a protected object. -/
def PolicyObject.decode? (value : Json) : Option PolicyObject := do
  match ← value.slots? ["name", "id"] with
  | [name, id] => some ⟨← required Json.string? name, ← required Json.word? id⟩
  | _ => none

/-- A policy in JSON. -/
def Policy.encode (policy : Policy) : Json :=
  let key := policy.key.toList.map fun key => ("key", Json.string key)
  let object := policy.object.toList.map fun object => ("object", object.encode)
  .ofFields
    ([("id", .word policy.id), ("parent_id", .word policy.parentId),
      ("owner_id", .word policy.ownerId)] ++ key ++ object ++
     [("flags", policy.flags.encode), ("created_at", policy.createdAt.encode),
      ("updated_at", policy.updatedAt.encode)])

/-- Reads a policy.  Without the fields it is detached, undesignated and without flags. -/
def Policy.decode? (value : Json) : Option Policy := do
  match ← value.slots? ["id", "parent_id", "owner_id", "key", "object", "flags",
      "created_at", "updated_at"] with
  | [id, parentId, ownerId, key, object, flags, createdAt, updatedAt] =>
    some {
      id := ← required Json.word? id
      parentId := ← withDefault 0 Json.word? parentId
      ownerId := ← required Json.word? ownerId
      key := ← nullable Json.string? key
      object := ← nullable PolicyObject.decode? object
      flags := ← withDefault .empty PolicyFlags.decode? flags
      createdAt := ← required Timestamp.decode? createdAt
      updatedAt := ← required Timestamp.decode? updatedAt }
  | _ => none

/-! ### Groups -/

/-- A group in JSON. -/
def Group.encode (group : Group) : Json :=
  .ofFields
    [("id", .word group.id), ("parent_id", .word group.parentId),
     ("flags", group.flags.encode), ("key", .string group.key),
     ("display_name", .string group.displayName), ("created_at", group.createdAt.encode),
     ("updated_at", group.updatedAt.encode)]

/-- Reads a group.  Without the field it has no parent. -/
def Group.decode? (value : Json) : Option Group := do
  match ← value.slots? ["id", "parent_id", "flags", "key", "display_name", "created_at",
      "updated_at"] with
  | [id, parentId, flags, key, displayName, createdAt, updatedAt] =>
    some {
      id := ← required Json.word? id
      parentId := ← withDefault 0 Json.word? parentId
      flags := ← required GroupFlags.decode? flags
      key := ← required Json.string? key
      displayName := ← required Json.string? displayName
      createdAt := ← required Timestamp.decode? createdAt
      updatedAt := ← required Timestamp.decode? updatedAt }
  | _ => none

/-! ### Rosters -/

/-- A cell in JSON. -/
def Cell.encode (cell : Cell) : Json :=
  .ofFields [("actor", cell.actor.encode), ("rights", cell.rights.encode)]

/-- Reads a cell. -/
def Cell.decode? (value : Json) : Option Cell := do
  match ← value.slots? ["actor", "rights"] with
  | [actor, rights] =>
    some ⟨← required Actor.decode? actor, ← required Rights.decode? rights⟩
  | _ => none

/-- A change in JSON. -/
def Change.encode (change : Change) : Json :=
  .ofFields [("action", change.action.encode), ("actor", change.actor.encode),
    ("rights", change.rights.encode)]

/-- Reads a change. -/
def Change.decode? (value : Json) : Option Change := do
  match ← value.slots? ["action", "actor", "rights"] with
  | [action, actor, rights] =>
    some ⟨← required ChangeAction.decode? action, ← required Actor.decode? actor,
      ← required Rights.decode? rights⟩
  | _ => none

/-- A roster record in JSON. -/
def RosterRecord.encode (record : RosterRecord) : Json :=
  .ofFields [("policy_id", .word record.policyId), ("everyone", record.everyone.encode),
    ("cells", .list (record.cells.map Cell.encode))]

/-- Reads a roster record.  Without the field it has no cells. -/
def RosterRecord.decode? (value : Json) : Option RosterRecord := do
  match ← value.slots? ["policy_id", "everyone", "cells"] with
  | [policyId, everyone, cells] =>
    some ⟨← required Json.word? policyId, ← required Rights.decode? everyone,
      ← withDefault [] (Json.listOf? Cell.decode?) cells⟩
  | _ => none

/-- A roster update in JSON. -/
def RosterUpdate.encode (update : RosterUpdate) : Json :=
  .ofFields [("record", update.record.encode),
    ("changes", .list (update.changes.map Change.encode))]

/-- Reads a roster update. -/
def RosterUpdate.decode? (value : Json) : Option RosterUpdate := do
  match ← value.slots? ["record", "changes"] with
  | [record, changes] =>
    some ⟨← required RosterRecord.decode? record,
      ← required (Json.listOf? Change.decode?) changes⟩
  | _ => none

/-! ### Settings -/

/-- The settings of the cache in JSON. -/
def CacheConfig.encode (config : CacheConfig) : Json :=
  .ofFields [("enabled", .bool config.enabled), ("capacity", .word config.capacity)]

/-- Reads the settings of the cache.  What is missing takes its default. -/
def CacheConfig.decode? (value : Json) : Option CacheConfig := do
  let usual : CacheConfig := {}
  match ← value.slots? ["enabled", "capacity"] with
  | [enabled, capacity] =>
    some ⟨← withDefault usual.enabled Json.bool? enabled,
      ← withDefault usual.capacity Json.word? capacity⟩
  | _ => none

/-- The settings of a node in JSON. -/
def Config.encode (config : Config) : Json :=
  .ofFields [("cache", config.cache.encode)]

/-- Reads the settings of a node.  What is missing takes its default. -/
def Config.decode? (value : Json) : Option Config := do
  match ← value.slots? ["cache"] with
  | [cache] => some ⟨← withDefault {} CacheConfig.decode? cache⟩
  | _ => none

/-- Reads the settings of a node from a text. -/
def Config.ofText? (text : String) : Option Config := do
  Config.decode? (← Json.ofText? text)

end AccessRights
