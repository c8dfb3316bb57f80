/-
# Changing a member

`src/modules/auth/src/services/auth-service.ts`, lines 645-680 (`#audit`), 1390-1413
(`#roleForAssignment`), 1507-1576 (`#targetMember`, `#assertOwnerRemains`, `#member`),
1599-1642 (`setMemberStatus`, `removeMember`), 1723-1751 (`assignMemberRole`), 3037-3081
(`setMembershipStatus`) and 3507-3517 (`#identifier`); `validation.ts`, lines 339-349;
`database-repository.ts`, lines 952-975 (`deleteAccountSessions`).

Each of the four reads the target, counts the owners and writes in transactions of their
own, so calls of others come in between.
-/

import Flowdular.Auth.Repository
import Flowdular.Lib.Record

namespace Flowdular.Auth

open Lib Workflows

/-- `AuthServiceError`, as one text. -/
def authServiceError (code message : String) (status : ℕ) : String :=
  s!"{status} {code}: {message}"

structure AuthActor where
  accountId : String
  tenantId : String
  email : String
  role : String
  scopes : List String

def identifier (value field : String) : Except String String :=
  let normalized := String.ofList (trimChars value.toList)
  if utf16Length normalized < 1 ∨ 128 < utf16Length normalized then
    .error (authServiceError "INVALID_INPUT" s!"{field} must contain between 1 and 128 characters." 400)
  else .ok normalized

def validateRoleKey (value : String) : Except String String :=
  let key := trimChars value.toList
  let valid := match key with
    | [] => false
    | c :: cs =>
      isLowerLetter c && 1 ≤ cs.length && cs.length ≤ 31 &&
        cs.all fun c => isLowerLetter c || isDigit c || c = '-'
  if valid then .ok (String.ofList key)
  else .error (authServiceError "INVALID_INPUT"
    "Role key must contain 2 to 32 lowercase letters, digits, or hyphens and start with a letter." 400)

/-- `#audit`, which swallows its failure. -/
def audit (tenantId actorId action subjectType subjectId : String) (metadata : List (String × Json)) :
    Service PUnit :=
  .orElse (call (.appendAudit tenantId actorId action subjectType subjectId metadata)) fun _ => .pure ⟨⟩

/-- An `if` without an else. -/
def whenever (condition : Prop) [Decidable condition] (p : Service PUnit) : Service PUnit :=
  if condition then p else .pure ⟨⟩

/-- The text of a status in the metadata of an event. -/
def Status.text : Status → String
  | .active => "active"
  | .disabled => "disabled"

/-- `#roleForAssignment`, of an actor. -/
def roleForAssignment (actor : AuthActor) (roleKey : String) : Service TenantRole :=
  if roleKey = "owner" ∧ actor.role ≠ "owner" then
    .fail (authServiceError "OWNER_REQUIRED" "Only an owner can grant the owner role." 403)
  else do
    let role ← call (.findRoleByKey actor.tenantId roleKey)
    match role with
    | none => .fail (authServiceError "ROLE_NOT_FOUND" "The role does not exist in this workspace." 404)
    | some role => .pure role

/-- What `#targetMember` makes of the row it reads. -/
def checkTarget (actor : AuthActor) (allowSelf : Bool) :
    Option AccountCredential → Except String AccountCredential
  | none =>
    .error (authServiceError "ACCOUNT_NOT_FOUND" "The account is not a member of this workspace." 404)
  | some target =>
    if allowSelf = false ∧ target.accountId = actor.accountId then
      .error (authServiceError "SELF_TARGET" "Use your profile to change your own account." 400)
    else if target.role = "owner" ∧ actor.role ≠ "owner" then
      .error (authServiceError "OWNER_REQUIRED" "Only an owner can change another owner." 403)
    else .ok target

def targetMember (actor : AuthActor) (accountId : String) (allowSelf : Bool) :
    Service AccountCredential := do
  let accountId ← Prog.ofExcept (identifier accountId "accountId")
  let target ← call (.findAccountMembership accountId actor.tenantId)
  Prog.ofExcept (checkTarget actor allowSelf target)

def assertOwnerRemains (tenantId : String) (target : AccountCredential) (counted : Bool) :
    Service PUnit :=
  if target.role = "owner" ∧ counted then do
    let owners ← call (.countActiveOwners tenantId)
    if owners ≤ 1 then
      .fail (authServiceError "LAST_OWNER" "A workspace must keep at least one active owner." 409)
    else .pure ⟨⟩
  else .pure ⟨⟩

def member (accountId tenantId : String) : Service TenantMember := do
  let members ← call (.listTenantMembers tenantId)
  match members.find? fun entry => entry.accountId = accountId with
  | none =>
    .fail (authServiceError "ACCOUNT_NOT_FOUND" "The account is not a member of this workspace." 404)
  | some record => .pure record

/-- Delete the sessions of an account in some workspaces, one after the other. -/
def deleteSessionsIn (accountId : String) : List String → Service PUnit
  | [] => .pure ⟨⟩
  | tenantId :: rest => do
    let _ ← call (.deleteMembershipSessions accountId tenantId)
    deleteSessionsIn accountId rest

/-- `deleteAccountSessions`, without a session to keep. -/
def deleteAccountSessions (accountId : String) : Service PUnit := do
  let tenants ← call (.sessionTenants accountId)
  deleteSessionsIn accountId tenants

/-- `setMemberStatus` behind the target. -/
def setStatusOf (actor : AuthActor) (status : Status) (target : AccountCredential) :
    Service TenantMember := do
  let _ ← whenever (status = .disabled) do
    let _ ← assertOwnerRemains actor.tenantId target (target.status = .active)
    deleteAccountSessions target.accountId
  let _ ← call (.updateAccountStatus target.accountId status)
  let _ ← audit actor.tenantId actor.accountId "users.member.status" "account" target.accountId
    [("status", .str status.text)]
  member target.accountId actor.tenantId

def setMemberStatus (actor : AuthActor) (accountId : String) (status : Status) :
    Service TenantMember := do
  let target ← targetMember actor accountId false
  setStatusOf actor status target

/-- `removeMember` behind the target. -/
def removeTarget (actor : AuthActor) (target : AccountCredential) : Service PUnit := do
  let _ ← assertOwnerRemains actor.tenantId target (target.status = .active)
  let _ ← call (.deleteMembership target.accountId actor.tenantId)
  let memberships ← call (.countMemberships target.accountId)
  let _ ← whenever (memberships = 0) (call (.deleteAccount target.accountId))
  audit actor.tenantId actor.accountId "users.member.removed" "account" target.accountId
    [("email", .str target.email)]

def removeMember (actor : AuthActor) (accountId : String) : Service PUnit := do
  let target ← targetMember actor accountId false
  removeTarget actor target

/-- `assignMemberRole` behind the target and the role. -/
def assignRole (actor : AuthActor) (target : AccountCredential) (role : TenantRole) :
    Service TenantMember := do
  let _ ← whenever (target.role = "owner" ∧ role.key ≠ "owner")
    (assertOwnerRemains actor.tenantId target (target.status = .active))
  let _ ← call (.updateMembershipRole target.accountId actor.tenantId role.key (some role.id) role.scopes)
  let _ ← audit actor.tenantId actor.accountId "users.member.role" "account" target.accountId
    [("role", .str role.key)]
  member target.accountId actor.tenantId

def assignMemberRole (actor : AuthActor) (accountId roleKey : String) : Service TenantMember := do
  let target ← targetMember actor accountId false
  let key ← Prog.ofExcept (validateRoleKey roleKey)
  let role ← roleForAssignment actor key
  assignRole actor target role

/-- `setMembershipStatus` behind the target. -/
def setMembershipStatusOf (actor : AuthActor) (status : Status) (now : ℤ) (target : AccountCredential) :
    Service (String × Status) := do
  let _ ← whenever (status = .disabled) (assertOwnerRemains actor.tenantId target
    (target.status = .active && target.membershipStatus = .active))
  let _ ← call (.setMembershipStatus target.accountId actor.tenantId status)
  let _ ← whenever (status = .disabled) do
    let _ ← call (.deleteMembershipSessions target.accountId actor.tenantId)
    let _ ← call (.revokeMembershipApiTokens actor.tenantId target.accountId now actor.accountId)
    .pure ⟨⟩
  let _ ← audit actor.tenantId actor.accountId "auth.membership.status" "account" target.accountId
    [("status", .str status.text)]
  return (target.accountId, status)

def setMembershipStatus (actor : AuthActor) (accountId : String) (status : Status) (now : ℤ) :
    Service (String × Status) := do
  let target ← targetMember actor accountId false
  setMembershipStatusOf actor status now target

end Flowdular.Auth
