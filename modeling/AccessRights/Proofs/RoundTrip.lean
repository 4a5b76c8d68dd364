/-
AccessRights/Proofs/RoundTrip.lean

Values are read back from the texts they are written as.

A codec is faithful when it writes plain values and decodes each of them to what
it was written for.  Scalars are faithful by their texts, lists by their items.
A structure is written as the fields that are there, in the order of their
names; whatever is missing, the slots that are read are those that were written.

Main results: `slots?_eq` (the slots of a written structure),
`Policy.faithful` and its siblings, and `persistent_roundTrips`.
-/
import AccessRights.Codec.Record
import AccessRights.Proofs.FlagText
import AccessRights.Proofs.JsonText
import AccessRights.Proofs.MomentText

namespace AccessRights

open Json (required withDefault nullable)

/-! ### Faithful codecs -/

/-- Every value is read back from its text. -/
def RoundTrips {α : Type} (encode : α → Json) (decode? : Json → Option α) : Prop :=
  ∀ value, (Json.ofText? (encode value).toText).bind decode? = some value

/-- Every value is written plainly, and decoded as it was. -/
structure Faithful {α : Type} (encode : α → Json) (decode? : Json → Option α) : Prop where
  plain : ∀ value, (encode value).Plain
  decoded : ∀ value, decode? (encode value) = some value

variable {α : Type} {encode : α → Json} {decode? : Json → Option α}

/-- What is written faithfully reads back from its text. -/
theorem Faithful.roundTrips (h : Faithful encode decode?) : RoundTrips encode decode? := by
  intro value
  rw [(h.plain value).ofText?_toText, Option.bind_some, h.decoded]

/-- What has one field only is written as that field. -/
theorem Faithful.wrap {β : Type} (h : Faithful encode decode?) (field : β → α) (mk : α → β)
    (hmk : ∀ value, mk (field value) = value) :
    Faithful (fun value => encode (field value)) (fun value => (decode? value).map mk) where
  plain value := h.plain (field value)
  decoded value := by rw [h.decoded, Option.map_some, hmk]

/-! ### Scalars and lists -/

namespace Json

/-- Words are written as plain digits, and digits that fit are read as a word. -/
theorem faithful_word : Faithful word word? where
  plain n := .natural n.toNat
  decoded n := by
    rw [word, word?, if_pos n.toNat_lt, UInt64.ofNat_toNat]

theorem faithful_string : Faithful string string? where
  plain := .string
  decoded := stringOfText?_textOfString

theorem faithful_bool : Faithful bool bool? where
  plain := .bool
  decoded _ := rfl

/-- A list is written item by item. -/
theorem faithful_listOf (h : Faithful encode decode?) :
    Faithful (fun items => list (items.map encode)) (listOf? decode?) where
  plain items := .list fun item hitem => by
    obtain ⟨value, -, rfl⟩ := List.mem_map.1 hitem
    exact h.plain value
  decoded items := by
    show (items.map encode).mapM decode? = some items
    rw [mapM_map_eq_some fun item _ => h.decoded item, List.map_id']

theorem choice?_string (s : String) : (string s).choice? = some s :=
  stringOfText?_textOfString s

/-! ### Structures -/

/-- The fields that are there, of those with the given names. -/
def present (names : List String) (slots : List (Option Json)) : List (String × Json) :=
  (names.zip slots).filterMap fun slot => slot.2.map (Prod.mk slot.1)

/-- A slot is written if there is something in it. -/
theorem present_cons (name : String) (names : List String) (slot : Option Json)
    (slots : List (Option Json)) :
    present (name :: names) (slot :: slots) =
      (slot.map (Prod.mk name)).toList ++ present names slots := by
  cases slot <;> rfl

theorem name_mem_of_mem_present {names : List String} {slots : List (Option Json)}
    {field : String × Json} (h : field ∈ present names slots) : field.1 ∈ names := by
  obtain ⟨⟨name, slot⟩, hmem, hfield⟩ := List.mem_filterMap.1 h
  obtain ⟨value, -, rfl⟩ := Option.map_eq_some_iff.1 hfield
  exact (List.of_mem_zip hmem).1

/-- The fields of one name are its slot, if no other slot has the name. -/
theorem filter_present {names : List String} {slots : List (Option Json)} (hnames : names.Nodup)
    {name : String} {slot : Option Json} (h : (name, slot) ∈ names.zip slots) :
    (present names slots).filter (fun field => field.1 == name) =
      (slot.map (Prod.mk name)).toList := by
  induction names generalizing slots with
  | nil => cases h
  | cons first names ih =>
    cases slots with
    | nil => cases h
    | cons front slots =>
      obtain ⟨hfirst, hnames⟩ := List.nodup_cons.1 hnames
      rw [present_cons, List.filter_append]
      obtain heq | hmem := List.mem_cons.1 h
      · -- it is the first slot, and no other has its name
        cases heq
        have hothers : (present names slots).filter (fun field => field.1 == name) = [] := by
          refine List.filter_eq_nil_iff.2 fun field hfield hname => hfirst ?_
          rw [← beq_iff_eq.1 hname]
          exact name_mem_of_mem_present hfield
        rw [hothers, List.append_nil]
        cases slot <;> simp
      · have hne : first ≠ name := by
          rintro rfl
          exact hfirst (List.of_mem_zip hmem).1
        rw [ih hnames hmem]
        cases front <;> simp [hne]

/-- The slots of a structure are those it was written from, the empty ones included. -/
theorem slots?_eq {value : Json} {names : List String} {slots : List (Option Json)}
    (hvalue : value = ofFields (present names slots)) (hnames : names.Nodup)
    (hlength : names.length = slots.length) : value.slots? names = some slots := by
  have hfields : ((present names slots).map named).mapM (fun field => do
      some (← stringOfText? field.1, field.2)) = some ((present names slots).map id) :=
    mapM_map_eq_some fun field _ => by rw [named, stringOfText?_textOfString]; rfl
  have hslots : ((names.zip slots).map Prod.fst).mapM (slot? (present names slots)) =
      some ((names.zip slots).map Prod.snd) :=
    mapM_map_eq_some fun slot hslot => by
      rw [slot?, filter_present hnames hslot]
      cases slot.2 <;> rfl
  rw [List.map_fst_zip (Nat.le_of_eq hlength), List.map_snd_zip (Nat.le_of_eq hlength.symm)]
    at hslots
  rw [List.map_id] at hfields
  rw [hvalue, ofFields]
  show Option.bind (((present names slots).map named).mapM _) _ = _
  rw [hfields, Option.bind_some, hslots]

/-- A field that may be missing is read as it was, if null stands for no value. -/
theorem nullable_map (h : Faithful encode decode?) (hnull : decode? .null = none)
    (value : Option α) : nullable decode? (value.map encode) = some value := by
  cases value with
  | none => rfl
  | some value =>
    have hvalue := h.decoded value
    rw [Option.map_some, nullable]
    · rw [hvalue, Option.map_some]
    · intro heq
      rw [heq, hnull] at hvalue
      cases hvalue

end Json

open Json

/-! ### Flags, moments and choices -/

/-- Flags that can be told apart by name are written by name. -/
theorem Legible.faithful {w : Nat} {table : List (NamedBit w)} (h : Legible table) :
    Faithful (encodeFlagWord table) (decodeFlagWord? table) where
  plain word := .string _
  decoded word := by
    rw [encodeFlagWord, decodeFlagWord?, faithful_string.decoded]
    rw [Option.bind_eq_bind, Option.bind_some, String.toList_ofList, h.readFlagWord?_flagWordText]

theorem Rights.faithful : Faithful Rights.encode Rights.decode? :=
  legible_table.faithful.wrap bits mk fun _ => rfl

theorem PolicyFlags.faithful : Faithful PolicyFlags.encode PolicyFlags.decode? :=
  legible_table.faithful.wrap bits mk fun _ => rfl

theorem GroupFlags.faithful : Faithful GroupFlags.encode GroupFlags.decode? :=
  legible_table.faithful.wrap bits mk fun _ => rfl

/-- A moment is written as text. -/
theorem Timestamp.faithful : Faithful Timestamp.encode Timestamp.decode? where
  plain moment := .string _
  decoded moment := by
    rw [encode, decode?, faithful_string.decoded]
    rw [Option.bind_eq_bind, Option.bind_some, String.toList_ofList, read?_text]

/-- A kind is written as its name. -/
theorem ActorKind.faithful : Faithful ActorKind.encode ActorKind.decode? where
  plain kind := .string kind.tag
  decoded kind := by
    rw [encode, decode?, choice?_string]
    cases kind <;> rfl

theorem ChangeAction.faithful : Faithful ChangeAction.encode ChangeAction.decode? where
  plain action := by cases action <;> exact .string _
  decoded action := by
    cases action <;> rw [encode, decode?, choice?_string] <;> rfl

/-! ### Structures -/

/-- The slots of a written structure are read in the order of its names. -/
theorem Actor.faithful : Faithful Actor.encode Actor.decode? where
  plain actor := .ofFields (by simp [ActorKind.faithful.plain, faithful_word.plain])
  decoded actor := by
    have hslots : actor.encode.slots? ["kind", "id"] =
        some [some actor.kind.encode, some (word actor.id)] := slots?_eq rfl (by decide) rfl
    rw [decode?, hslots]
    simp [required, ActorKind.faithful.decoded, faithful_word.decoded]

theorem Relation.faithful : Faithful Relation.encode Relation.decode? where
  plain relation := .ofFields (by simp [Actor.faithful.plain, faithful_word.plain])
  decoded relation := by
    have hslots : relation.encode.slots? ["group_id", "asset"] =
        some [some (word relation.groupId), some relation.asset.encode] :=
      slots?_eq rfl (by decide) rfl
    rw [decode?, hslots]
    simp [required, Actor.faithful.decoded, faithful_word.decoded]

theorem PolicyObject.faithful : Faithful PolicyObject.encode PolicyObject.decode? where
  plain object := .ofFields (by simp [faithful_string.plain, faithful_word.plain])
  decoded object := by
    have hslots : object.encode.slots? ["name", "id"] =
        some [some (string object.name), some (word object.id)] := slots?_eq rfl (by decide) rfl
    rw [decode?, hslots]
    simp [required, faithful_string.decoded, faithful_word.decoded]

/-- The key and the object of a policy may be missing. -/
theorem Policy.faithful : Faithful Policy.encode Policy.decode? where
  plain policy := .ofFields (by
    intro field hfield
    simp only [List.mem_append, List.mem_map, Option.mem_toList, List.mem_cons, List.not_mem_nil,
      or_false] at hfield
    obtain (((rfl | rfl | rfl) | ⟨key, -, rfl⟩) | ⟨object, -, rfl⟩) | rfl | rfl | rfl := hfield
    iterate 3 exact faithful_word.plain _
    · exact faithful_string.plain key
    · exact PolicyObject.faithful.plain object
    · exact PolicyFlags.faithful.plain _
    iterate 2 exact Timestamp.faithful.plain _)
  decoded policy := by
    have hslots : policy.encode.slots? ["id", "parent_id", "owner_id", "key", "object", "flags",
        "created_at", "updated_at"] =
        some [some (word policy.id), some (word policy.parentId), some (word policy.ownerId),
          policy.key.map string, policy.object.map PolicyObject.encode, some policy.flags.encode,
          some policy.createdAt.encode, some policy.updatedAt.encode] := by
      refine slots?_eq ?_ (by decide) rfl
      obtain ⟨id, parentId, ownerId, key, object, flags, createdAt, updatedAt⟩ := policy
      -- with and without a key, with and without an object
      cases key <;> cases object <;> rfl
    rw [decode?, hslots]
    simp [required, withDefault, nullable_map faithful_string rfl,
      nullable_map PolicyObject.faithful rfl, faithful_word.decoded, PolicyFlags.faithful.decoded,
      Timestamp.faithful.decoded]

/-- Groups have the most slots, and none that may be missing. -/
theorem Group.faithful : Faithful Group.encode Group.decode? where
  plain group := .ofFields (by
    simp [faithful_word.plain, faithful_string.plain, GroupFlags.faithful.plain,
      Timestamp.faithful.plain])
  decoded group := by
    have hslots : group.encode.slots? ["id", "parent_id", "flags", "key", "display_name",
        "created_at", "updated_at"] =
        some [some (word group.id), some (word group.parentId), some group.flags.encode,
          some (string group.key), some (string group.displayName), some group.createdAt.encode,
          some group.updatedAt.encode] := slots?_eq rfl (by decide) rfl
    rw [decode?, hslots]
    simp [required, withDefault, faithful_word.decoded, faithful_string.decoded,
      GroupFlags.faithful.decoded, Timestamp.faithful.decoded]

theorem Cell.faithful : Faithful Cell.encode Cell.decode? where
  plain cell := .ofFields (by simp [Actor.faithful.plain, Rights.faithful.plain])
  decoded cell := by
    have hslots : cell.encode.slots? ["actor", "rights"] =
        some [some cell.actor.encode, some cell.rights.encode] := slots?_eq rfl (by decide) rfl
    rw [decode?, hslots]
    simp [required, Actor.faithful.decoded, Rights.faithful.decoded]

theorem Change.faithful : Faithful Change.encode Change.decode? where
  plain change := .ofFields (by
    simp [ChangeAction.faithful.plain, Actor.faithful.plain, Rights.faithful.plain])
  decoded change := by
    have hslots : change.encode.slots? ["action", "actor", "rights"] =
        some [some change.action.encode, some change.actor.encode, some change.rights.encode] :=
      slots?_eq rfl (by decide) rfl
    rw [decode?, hslots]
    simp [required, ChangeAction.faithful.decoded, Actor.faithful.decoded,
      Rights.faithful.decoded]

/-- A record is written with all of its cells. -/
theorem RosterRecord.faithful : Faithful RosterRecord.encode RosterRecord.decode? where
  plain record := .ofFields (by
    simp [faithful_word.plain, Rights.faithful.plain, (faithful_listOf Cell.faithful).plain])
  decoded record := by
    have hslots : record.encode.slots? ["policy_id", "everyone", "cells"] =
        some [some (word record.policyId), some record.everyone.encode,
          some (list (record.cells.map Cell.encode))] := slots?_eq rfl (by decide) rfl
    rw [decode?, hslots]
    simp [required, withDefault, faithful_word.decoded, Rights.faithful.decoded,
      (faithful_listOf Cell.faithful).decoded]

/-- An update is written with its record and its changes. -/
theorem RosterUpdate.faithful : Faithful RosterUpdate.encode RosterUpdate.decode? where
  plain update := .ofFields (by
    simp [RosterRecord.faithful.plain, (faithful_listOf Change.faithful).plain])
  decoded update := by
    have hslots : update.encode.slots? ["record", "changes"] =
        some [some update.record.encode, some (list (update.changes.map Change.encode))] :=
      slots?_eq rfl (by decide) rfl
    rw [decode?, hslots]
    simp [required, RosterRecord.faithful.decoded, (faithful_listOf Change.faithful).decoded]

theorem CacheConfig.faithful : Faithful CacheConfig.encode CacheConfig.decode? where
  plain config := .ofFields (by simp [faithful_bool.plain, faithful_word.plain])
  decoded config := by
    have hslots : config.encode.slots? ["enabled", "capacity"] =
        some [some (.bool config.enabled), some (word config.capacity)] :=
      slots?_eq rfl (by decide) rfl
    rw [decode?, hslots]
    simp [withDefault, faithful_bool.decoded, faithful_word.decoded]

theorem Config.faithful : Faithful Config.encode Config.decode? where
  plain config := .ofFields (by simp [CacheConfig.faithful.plain])
  decoded config := by
    have hslots : config.encode.slots? ["cache"] = some [some config.cache.encode] :=
      slots?_eq rfl (by decide) rfl
    rw [decode?, hslots]
    simp [withDefault, CacheConfig.faithful.decoded]

/-- Whatever is stored, sent or configured is read back from its text as it was: with any
numbers and any strings, with or without a key and an object, with any cells and changes, with
any flags, the nameless ones included, and at any moment. -/
theorem persistent_roundTrips :
    RoundTrips Policy.encode Policy.decode? ∧ RoundTrips Group.encode Group.decode? ∧
    RoundTrips Relation.encode Relation.decode? ∧ RoundTrips Actor.encode Actor.decode? ∧
    RoundTrips Cell.encode Cell.decode? ∧ RoundTrips Change.encode Change.decode? ∧
    RoundTrips RosterRecord.encode RosterRecord.decode? ∧
    RoundTrips RosterUpdate.encode RosterUpdate.decode? ∧
    RoundTrips PolicyObject.encode PolicyObject.decode? ∧
    RoundTrips Rights.encode Rights.decode? ∧
    RoundTrips PolicyFlags.encode PolicyFlags.decode? ∧
    RoundTrips GroupFlags.encode GroupFlags.decode? ∧
    RoundTrips Config.encode Config.decode? :=
  ⟨Policy.faithful.roundTrips, Group.faithful.roundTrips, Relation.faithful.roundTrips,
    Actor.faithful.roundTrips, Cell.faithful.roundTrips, Change.faithful.roundTrips,
    RosterRecord.faithful.roundTrips, RosterUpdate.faithful.roundTrips,
    PolicyObject.faithful.roundTrips, Rights.faithful.roundTrips, PolicyFlags.faithful.roundTrips,
    GroupFlags.faithful.roundTrips, Config.faithful.roundTrips⟩

end AccessRights
