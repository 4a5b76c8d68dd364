/-
AccessRights/Error.lean

What can go wrong: the failures of a store, and the reasons for which a
call on policies, rosters or groups is refused.

Every error names its cause; the wording is in one function per type.
-/

namespace AccessRights

/-! ### Failures of a store -/

/-- A failure reported by a store, with its text. -/
inductive StoreError where
  /-- A record does not exist. -/
  | notFound (detail : String)
  /-- A uniqueness rule is violated. -/
  | conflict (detail : String)
  /-- Any other failure. -/
  | backend (detail : String)
deriving DecidableEq, Inhabited

/-- The wording of a store failure. -/
def StoreError.message : StoreError → String
  | notFound detail => "record not found: " ++ detail
  | conflict detail => "conflict: " ++ detail
  | backend detail => "backend failure: " ++ detail

/-! ### Refusals -/

/-- A field that an update may not change. -/
inductive FixedField where
  | key
  | object
  | objectName
  | objectId
  | parentId
deriving DecidableEq, Inhabited

/-- The field as it appears in messages. -/
def FixedField.text : FixedField → String
  | key => "key"
  | object => "object"
  | objectName => "object_name"
  | objectId => "object_id"
  | parentId => "parent_id"

/-- The reasons for which a call fails. -/
inductive AccessError where
  /-- A policy number is zero where a policy is required. -/
  | zeroPolicyId
  /-- There is no such policy. -/
  | policyNotFound (designation : String)
  /-- Another policy has this key. -/
  | policyKeyTaken (key : String)
  /-- Another policy protects this object. -/
  | policyObjectConflict (object : String)
  /-- A field of identity cannot change. -/
  | forbiddenChange (field : FixedField)
  /-- A policy has neither a key nor an object. -/
  | emptyDesignators
  /-- The flags of a policy contradict each other. -/
  | invalidPolicyFlags (detail : String)
  /-- A policy that inherits or extends has no parent. -/
  | parentRequired
  /-- A parent link closes a loop at this policy. -/
  | circularParent (policyId : UInt64)
  /-- The grantor lacks rights that it hands on. -/
  | excessOfRights (lacking : String)
  /-- The actor lacks the requested rights. -/
  | accessDenied (detail : String)
  /-- A policy has no roster. -/
  | nilRoster (policyId : UInt64)
  /-- A roster record belongs to another policy. -/
  | emptyRoster (policyId : UInt64)
  /-- There is no such group. -/
  | groupNotFound (designation : String)
  /-- Another group has this key. -/
  | groupKeyTaken (key : String)
  /-- A group is not of the expected kind. -/
  | groupKindMismatch (detail : String)
  /-- The parent links of groups close a loop at this group. -/
  | circularGroup (groupId : UInt64)
  /-- A group has child groups. -/
  | groupHasChildren (groupId : UInt64)
  /-- A group is not well formed. -/
  | invalidGroup (detail : String)
  /-- The asset is a member already. -/
  | alreadyMember (groupId : UInt64)
  /-- The asset is no member. -/
  | notMember (groupId : UInt64)
  /-- The asset cannot be a member of anything. -/
  | invalidAsset (detail : String)
  /-- An argument is not acceptable. -/
  | invalidInput (detail : String)
  /-- A configuration cannot be read. -/
  | config (detail : String)
  /-- The store failed; the context names what the call was about. -/
  | store (context : String) (failure : StoreError)
deriving DecidableEq, Inhabited

namespace AccessError

/-- The wording of a refusal. -/
def message : AccessError → String
  | zeroPolicyId => "policy id is zero"
  | policyNotFound designation => "policy not found: " ++ designation
  | policyKeyTaken key => "policy key is already taken: " ++ key
  | policyObjectConflict object => "policy object conflict: " ++ object
  | forbiddenChange field => "forbidden change of field: " ++ field.text
  | emptyDesignators => "access policy has no key or object designators"
  | invalidPolicyFlags detail => "invalid policy flags: " ++ detail
  | parentRequired => "policy flags require a parent policy"
  | circularParent id => "policy parent chain is circular at policy " ++ toString id
  | excessOfRights lacking => "excess of rights: grantor lacks " ++ lacking
  | accessDenied detail => "access denied: " ++ detail
  | nilRoster id => "roster is missing for policy " ++ toString id
  | emptyRoster id => "roster is empty or mismatched for policy " ++ toString id
  | groupNotFound designation => "group not found: " ++ designation
  | groupKeyTaken key => "group key is already taken: " ++ key
  | groupKindMismatch detail => "group kind mismatch: " ++ detail
  | circularGroup id => "group parent chain is circular at group " ++ toString id
  | groupHasChildren id => "group " ++ toString id ++ " still has child groups"
  | invalidGroup detail => "invalid group: " ++ detail
  | alreadyMember id => "asset is already a member of group " ++ toString id
  | notMember id => "asset is not a member of group " ++ toString id
  | invalidAsset detail => "invalid asset: " ++ detail
  | invalidInput detail => "invalid input: " ++ detail
  | config detail => "configuration error: " ++ detail
  | store context failure => "store error (" ++ context ++ "): " ++ failure.message

/-- Whether the error reports the absence of a policy, a group or a membership. -/
def isNotFound : AccessError → Bool
  | policyNotFound _ | groupNotFound _ | notMember _ => true
  | _ => false

/-- Whether the error reports that a name or a membership is taken already. -/
def isConflict : AccessError → Bool
  | policyKeyTaken _ | policyObjectConflict _ | groupKeyTaken _ | alreadyMember _ => true
  | _ => false

/-- Whether the error reports missing rights. -/
def isAuthorization : AccessError → Bool
  | excessOfRights _ | accessDenied _ => true
  | _ => false

end AccessError

end AccessRights
