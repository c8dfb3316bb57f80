/-
# The auth repository: rows and transactions

`src/modules/auth/src/services/database-repository.ts`, lines 290-304 (the columns of an
account and of a member), 608-616 (`#tenantOfAccount`), 631-652 (`#credential`), 692-723
(`#assignedScopes`, `#membership`), 863-1070 (`findAccountByEmail` …
`listTenantMembers`), 1166-1173 (`listTenantScopes`), 1242-1294 (`createAccountInTenant`),
902-913 (`updatePasswordHash`), 1346-1466 (`createMembershipInTenant` …
`findApiTokenByHash`), 1562-1770 (`replaceMembershipScopes` … `deleteSession`), 1821-1928 (the
password resets and the invitations), 2040-2085 (the
challenges), 2322-2346 (`revokeMembershipApiTokens`, `setMembershipStatus`), 2439-2518 (the
roles) and 1509-1560 (`grantTenantOwnerScopes`); the tables and their constraints in
`migrations`.

The tables hold the rows of every workspace.  A transaction takes effect at once: at the
isolation read committed each of its statements sees what is committed, and the ones
modelled here change the rows of a key.  Where a method routes a token to its workspace
first, the row named by the token belongs to that workspace for good, so the method is one
step; a method of several transactions that matter apart is several calls.
-/

import Flowdular.Lib.Table
import Flowdular.Lib.Transact
import Flowdular.Workflows.Text
import Mathlib.Data.List.Dedup

namespace Flowdular.Auth

open Lib Workflows

/-! ### Rows -/

/-- The status of an account, and of a membership. -/
inductive Status
  | active
  | disabled
deriving DecidableEq

/-- A row of `auth_accounts`. -/
structure AccountRow where
  id : String
  email : String
  passwordHash : String
  displayName : String
  status : Status := .active
  passwordChangeRequired : Bool := false

/-- A row of `auth_memberships` with its rows of `auth_membership_scopes`. -/
structure MembershipRow where
  accountId : String
  tenantId : String
  role : String
  roleId : Option String
  scopes : List String
  status : Status := .active
  createdAt : ℤ

/-- The primary key of `auth_memberships`. -/
abbrev MembershipRow.key (m : MembershipRow) : String × String :=
  (m.accountId, m.tenantId)

structure TenantRole where
  id : String
  tenantId : String
  key : String
  name : String
  description : String
  scopes : List String
  builtin : Bool
deriving DecidableEq

/-- A row of `auth_sessions`.  Its number is no column: it tells a row from every other one
that is ever inserted. -/
structure SessionRow where
  number : ℕ
  id : String
  tokenHash : String
  accountId : String
  tenantId : String
  csrfToken : String
  createdAt : ℤ
  expiresAt : ℤ
  lastSeenAt : ℤ

/-- A row of `auth_api_tokens`, numbered like a session. -/
structure ApiTokenRow where
  number : ℕ
  id : String
  tenantId : String
  accountId : String
  label : String
  tokenHash : String
  scopes : List String
  allowWrites : Bool
  allowedOrigins : List String
  rateLimitPerMinute : ℕ
  createdBy : String
  createdAt : ℤ
  expiresAt : Option ℤ
  lastUsedAt : Option ℤ := none
  revokedAt : Option ℤ := none
  revokedBy : Option String := none

/-- A row of `auth_mfa_challenges`. -/
structure ChallengeRow where
  tokenHash : String
  accountId : String
  tenantId : String
  expiresAt : ℤ
  usedAt : Option ℤ := none
  createdAt : ℤ

/-- A row of `auth_tenant_invitations`. -/
structure InvitationRow where
  id : String
  tenantId : String
  email : String
  normalizedEmail : String
  roleKey : String
  tokenHash : String
  expiresAt : ℤ
  acceptedAt : Option ℤ := none
  createdBy : String
  createdAt : ℤ

/-- A row of `auth_password_reset_tokens`. -/
structure PasswordResetRow where
  tokenHash : String
  accountId : String
  expiresAt : ℤ
  usedAt : Option ℤ := none
  createdAt : ℤ

/-- The tables.  The counter numbers the sessions and the API tokens that are inserted. -/
structure Tables where
  accounts : List AccountRow
  memberships : List MembershipRow
  roles : List TenantRole := []
  sessions : List SessionRow := []
  apiTokens : List ApiTokenRow := []
  challenges : List ChallengeRow := []
  invitations : List InvitationRow := []
  passwordResets : List PasswordResetRow := []
  inserted : ℕ := 0
  /-- The primary key of the memberships. -/
  keys : (memberships.map (·.key)).Nodup

/-! ### What the statements read -/

structure AccountCredential where
  accountId : String
  tenantId : String
  email : String
  displayName : String
  passwordHash : String
  role : String
  roleId : Option String
  status : Status
  membershipStatus : Status
  passwordChangeRequired : Bool
  scopes : List String

structure AccountIdentity where
  accountId : String
  email : String
  displayName : String
  status : Status

structure TenantMember where
  accountId : String
  email : String
  displayName : String
  role : String
  roleId : Option String
  status : Status
  membershipStatus : Status
  scopes : List String
  passwordChangeRequired : Bool
  createdAt : ℤ

namespace Tables

variable (s : Tables)

/-- The row of an account. -/
def account (accountId : String) : Option AccountRow :=
  s.accounts.find? fun a => a.id = accountId

/-- The row of a membership. -/
def membershipRow (accountId tenantId : String) : Option MembershipRow :=
  s.memberships.find? fun m => m.key = (accountId, tenantId)

def findAccountMembership (accountId tenantId : String) : Option AccountCredential := do
  let a ← s.account accountId
  let m ← s.membershipRow accountId tenantId
  return {
    accountId := a.id, tenantId := m.tenantId, email := a.email, displayName := a.displayName,
    passwordHash := a.passwordHash, role := m.role, roleId := m.roleId, status := a.status,
    membershipStatus := m.status, passwordChangeRequired := a.passwordChangeRequired,
    scopes := m.scopes }

def findAccountIdentity (email : String) : Option AccountIdentity :=
  (s.accounts.find? fun a => a.email = email).map fun a =>
    { accountId := a.id, email := a.email, displayName := a.displayName, status := a.status }

/-- `#tenantOfAccount`: the oldest of the active memberships. -/
def tenantOfAccount (accountId : String) : Option String :=
  let active := s.memberships.filter fun m => m.accountId = accountId && m.status = .active
  (active.insertionSort fun m m' =>
    m.createdAt < m'.createdAt ∨ m.createdAt = m'.createdAt ∧ m.tenantId ≤ m'.tenantId).head?.map
      (·.tenantId)

/-- The account of a membership is active. -/
def accountActive (accountId : String) : Bool :=
  (s.account accountId).any fun a => a.status = .active

/-- A row `countActiveOwners` counts. -/
def activeOwner (tenantId : String) (m : MembershipRow) : Bool :=
  m.tenantId = tenantId && m.role = "owner" && m.status = .active && s.accountActive m.accountId

def countActiveOwners (tenantId : String) : ℕ :=
  (s.memberships.filter (s.activeOwner tenantId)).length

def countMemberships (accountId : String) : ℕ :=
  (s.memberships.filter fun m => m.accountId = accountId).length

/-- `listTenantMembers`; the order is left out. -/
def listTenantMembers (tenantId : String) : List TenantMember :=
  (s.memberships.filter fun m => m.tenantId = tenantId).filterMap fun m =>
    (s.account m.accountId).map fun a =>
      { accountId := a.id, email := a.email, displayName := a.displayName, role := m.role,
        roleId := m.roleId, status := a.status, membershipStatus := m.status, scopes := m.scopes,
        passwordChangeRequired := a.passwordChangeRequired, createdAt := m.createdAt }

/-- `listTenantScopes`; the order is left out. -/
def listTenantScopes (tenantId : String) : List String :=
  ((s.memberships.filter fun m => m.tenantId = tenantId).flatMap (·.scopes)).dedup

def countRoleMemberships (tenantId roleId : String) : ℕ :=
  (s.memberships.filter fun m => m.tenantId = tenantId && m.roleId = some roleId).length

/-- `listTenantAccess`: the active memberships, each with its role. -/
def listTenantAccess (accountId : String) : List (String × String) :=
  (s.memberships.filter fun m => m.accountId = accountId && m.status = .active).map fun m =>
    (m.tenantId, m.role)

def findRole (tenantId id : String) : Option TenantRole :=
  s.roles.find? fun r => r.tenantId = tenantId && r.id = id

def findRoleByKey (tenantId key : String) : Option TenantRole :=
  s.roles.find? fun r => r.tenantId = tenantId && r.key = key

/-- `#assignedScopes`: those of the owner role are read again. -/
def assignedScopes (tenantId role : String) (scopes : List String) : Except String (List String) :=
  if role ≠ "owner" then .ok scopes
  else
    match s.roles.find? fun r => r.tenantId = tenantId && r.key = "owner" && r.builtin with
    | none => .error "Error: The workspace has no built-in owner role."
    | some r => .ok r.scopes

/-! ### What the statements write -/

/-- Change memberships, but not their keys. -/
def updateMemberships (selects : MembershipRow → Bool) (change : MembershipRow → MembershipRow)
    (hkey : ∀ m, (change m).key = m.key) : Tables :=
  { s with
    memberships := Table.update selects change s.memberships
    keys := by rw [Table.map_update _ hkey]; exact s.keys }

/-- Delete memberships. -/
def deleteMemberships (selects : MembershipRow → Bool) : Tables :=
  { s with
    memberships := s.memberships.filter fun m => !selects m
    keys := s.keys.sublist (List.filter_sublist.map _) }

section

local instance membershipKeys : LawfulBEq (String × String) := inferInstance

/-- Insert a membership, unless there is one of its key. -/
def insertMembership (m : MembershipRow) : Except String Tables :=
  if h : m.key ∈ s.memberships.map (·.key) then
    .error "error: duplicate key value violates unique constraint \"auth_memberships_pkey\""
  else .ok { s with
    memberships := s.memberships ++ [m]
    keys := by
      rw [List.map_append, List.map_singleton, List.nodup_append]
      refine ⟨s.keys, List.nodup_singleton _, ?_⟩
      rintro x hx y hy rfl
      exact h (List.mem_singleton.1 hy ▸ hx) }

end

def updateAccountStatus (accountId : String) (status : Status) : Tables :=
  { s with accounts := Table.update (fun a => a.id = accountId) (fun a => { a with status }) s.accounts }

def setMembershipStatus (accountId tenantId : String) (status : Status) : Tables :=
  s.updateMemberships (fun m => m.key = (accountId, tenantId)) (fun m => { m with status }) fun _ => rfl

def replaceMembershipScopes (accountId tenantId : String) (scopes : List String) : Tables :=
  s.updateMemberships (fun m => m.key = (accountId, tenantId))
    (fun m => { m with scopes := scopes.dedup }) fun _ => rfl

def updateMembershipRole (accountId tenantId role : String) (roleId : Option String)
    (scopes : List String) : Except String Tables :=
  (s.assignedScopes tenantId role scopes).map fun assignedScopes =>
    s.updateMemberships (fun m => m.key = (accountId, tenantId))
      (fun m => { m with role, roleId, scopes := assignedScopes.dedup }) fun _ => rfl

/-- `deleteMembership`, with its sessions; its API tokens go with it. -/
def deleteMembership (accountId tenantId : String) : Tables :=
  let s := { s with
    sessions := s.sessions.filter fun x => !(x.accountId = accountId && x.tenantId = tenantId)
    apiTokens := s.apiTokens.filter fun x => !(x.accountId = accountId && x.tenantId = tenantId) }
  s.deleteMemberships fun m => m.key = (accountId, tenantId)

/-- `deleteAccount`; what refers to the account goes with it. -/
def deleteAccount (accountId : String) : Tables :=
  let s := { s with
    accounts := s.accounts.filter fun a => a.id ≠ accountId
    sessions := s.sessions.filter fun x => x.accountId ≠ accountId
    apiTokens := s.apiTokens.filter fun x => x.accountId ≠ accountId
    challenges := s.challenges.filter fun x => x.accountId ≠ accountId
    passwordResets := s.passwordResets.filter fun x => x.accountId ≠ accountId }
  s.deleteMemberships fun m => m.accountId = accountId

def createMembershipInTenant (m : MembershipRow) : Except String (Tables × Option AccountCredential) := do
  let assignedScopes ← s.assignedScopes m.tenantId m.role m.scopes
  let m := { m with scopes := assignedScopes.dedup, status := .active }
  if (s.account m.accountId).isNone then
    .error "error: insert on table \"auth_memberships\" violates foreign key constraint"
  else
    let s ← s.insertMembership m
    return (s, s.findAccountMembership m.accountId m.tenantId)

def duplicateAccountError : String :=
  "DuplicateAccountError: An account with this email already exists."

def createAccountInTenant (a : AccountRow) (m : MembershipRow) :
    Except String (Tables × Option AccountCredential) := do
  let _ ← s.assignedScopes m.tenantId m.role m.scopes
  if s.accounts.any fun other => other.email = a.email then .error duplicateAccountError
  else if s.accounts.any fun other => other.id = a.id then
    .error "error: duplicate key value violates unique constraint \"auth_accounts_pkey\""
  else
    let a := { a with status := .active, passwordChangeRequired := false }
    createMembershipInTenant { s with accounts := s.accounts ++ [a] } { m with accountId := a.id }

/-- Delete sessions. -/
def deleteSessions (selects : SessionRow → Bool) : Tables :=
  { s with sessions := s.sessions.filter fun x => !selects x }

/-- `deleteMembershipSessions`, and one of the deletes of `deleteAccountSessions`. -/
def deleteMembershipSessions (accountId tenantId : String) : Tables :=
  s.deleteSessions fun x => x.accountId = accountId && x.tenantId = tenantId

/-- The workspaces `deleteAccountSessions` deletes in. -/
def sessionTenants (accountId : String) : List String :=
  ((s.sessions.filter fun x => x.accountId = accountId).map (·.tenantId)).dedup

def createSession (row : SessionRow) : Except String Tables :=
  if s.sessions.any fun x => x.tokenHash = row.tokenHash then
    .error "error: duplicate key value violates unique constraint \"auth_sessions_pkey\""
  else if (s.account row.accountId).isNone then
    .error "error: insert on table \"auth_sessions\" violates foreign key constraint"
  else .ok { s with
    sessions := s.sessions ++ [{ row with number := s.inserted, lastSeenAt := row.createdAt }]
    inserted := s.inserted + 1 }

def revokeMembershipApiTokens (tenantId accountId : String) (revokedAt : ℤ) (revokedBy : String) :
    Tables :=
  { s with
    apiTokens := Table.update
      (fun x => x.tenantId = tenantId && x.accountId = accountId && x.revokedAt = none)
      (fun x => { x with revokedAt := some revokedAt, revokedBy := some revokedBy }) s.apiTokens }

def createApiToken (row : ApiTokenRow) : Except String Tables :=
  if s.apiTokens.any fun x => x.tokenHash = row.tokenHash then
    .error "error: duplicate key value violates unique constraint \"auth_api_tokens_token_hash_key\""
  else if (s.membershipRow row.accountId row.tenantId).isNone then
    .error "error: insert on table \"auth_api_tokens\" violates foreign key constraint"
  else .ok { s with
    apiTokens := s.apiTokens ++ [{ row with
        number := s.inserted, lastUsedAt := none, revokedAt := none, revokedBy := none }]
    inserted := s.inserted + 1 }

def deleteSession (tokenHash : String) : Tables :=
  s.deleteSessions fun x => x.tokenHash = tokenHash

/-- The row `findSession` selects: it is not expired, and its account and membership are
active. -/
def liveSession (tokenHash : String) (now : ℤ) : Option (SessionRow × AccountCredential) := do
  let row ← s.sessions.find? fun x => x.tokenHash = tokenHash
  let account ← s.findAccountMembership row.accountId row.tenantId
  if now < row.expiresAt ∧ account.status = .active ∧ account.membershipStatus = .active then
    return (row, account)
  else none

def findSession (tokenHash : String) (now idleMs touchIntervalMs : ℤ) :
    Option (SessionRow × AccountCredential) × Tables :=
  match s.liveSession tokenHash now with
  | none => (none, s)
  | some (row, account) =>
    if idleMs < now - row.lastSeenAt then (none, s.deleteSession tokenHash)
    else if touchIntervalMs ≤ now - row.lastSeenAt then
      (some (row, account), { s with
        sessions := Table.update (fun x => x.tokenHash = tokenHash)
          (fun x => { x with lastSeenAt := now }) s.sessions })
    else (some (row, account), s)

def findApiTokenByHash (tokenHash : String) : Option ApiTokenRow :=
  s.apiTokens.find? fun x => x.tokenHash = tokenHash && x.revokedAt = none

def createMfaChallenge (row : ChallengeRow) : Except String Tables :=
  let kept := s.challenges.filter fun x => !(x.tenantId = row.tenantId && x.expiresAt ≤ row.createdAt)
  if kept.any fun x => x.tokenHash = row.tokenHash then
    .error "error: duplicate key value violates unique constraint \"auth_mfa_challenges_pkey\""
  else if (s.account row.accountId).isNone then
    .error "error: insert on table \"auth_mfa_challenges\" violates foreign key constraint"
  else .ok { s with challenges := kept ++ [{ row with usedAt := none }] }

def consumeMfaChallenge (tokenHash : String) (now : ℤ) : Option (String × String) × Tables :=
  let selects := fun x : ChallengeRow => x.tokenHash = tokenHash && x.usedAt = none && now < x.expiresAt
  ((s.challenges.find? selects).map fun x => (x.accountId, x.tenantId),
    { s with challenges := Table.update selects (fun x => { x with usedAt := some now }) s.challenges })

def duplicateRoleKeyError : String :=
  "DuplicateRoleKeyError: A role with this key already exists in the workspace."

def createRole (role : TenantRole) : Except String Tables :=
  if s.roles.any fun r => r.tenantId = role.tenantId && r.key = role.key then .error duplicateRoleKeyError
  else if s.roles.any fun r => r.id = role.id then
    .error "error: duplicate key value violates unique constraint \"auth_roles_pkey\""
  else .ok { s with roles := s.roles ++ [role] }

/-- `updateRole`, with the row it returns. -/
def updateRole (tenantId id name description : String) (scopes : List String) :
    Option TenantRole × Tables :=
  let s := { s with
    roles := Table.update (fun r => r.tenantId = tenantId && r.id = id)
      (fun r => { r with name, description, scopes }) s.roles }
  (s.findRole tenantId id, s)

def deleteRole (tenantId id : String) : Tables :=
  { s with roles := s.roles.filter fun r => !(r.tenantId = tenantId && r.id = id && !r.builtin) }

/-- The scopes a membership gets from a grant, new ones only. -/
def grantedTo (scopes : List String) (m : MembershipRow) : List String :=
  scopes.dedup.filter fun scope => scope ∉ m.scopes

/-- `grantTenantOwnerScopes`, with what it granted to whom; the order of the accounts is left
out. -/
def grantTenantOwnerScopes (tenantId : String) (scopes : List String) :
    Except String (Tables × List (String × List String)) :=
  if scopes = [] then .ok (s, [])
  else
    match s.roles.find? fun r => r.tenantId = tenantId && r.key = "owner" && r.builtin with
    | none => .error "Error: The workspace has no built-in owner role."
    | some role =>
      let combined := sortStrings (role.scopes ++ scopes).dedup
      let roles := if combined.length ≠ role.scopes.dedup.length then
          Table.update (fun r => r.tenantId = tenantId && r.id = role.id)
            (fun r => { r with scopes := combined }) s.roles
        else s.roles
      let owner := fun m : MembershipRow => m.tenantId = tenantId && m.role = "owner"
      let granted := ((s.memberships.filter owner).map fun m =>
        (m.accountId, sortStrings (grantedTo scopes m))).filter fun entry => entry.2 ≠ []
      .ok (({ s with roles } : Tables).updateMemberships owner
        (fun m => { m with scopes := m.scopes ++ grantedTo scopes m }) fun _ => rfl, granted)

def updatePasswordHash (accountId passwordHash : String) (changeRequired : Bool) : Tables :=
  { s with
    accounts := Table.update (fun a => a.id = accountId)
      (fun a => { a with passwordHash, passwordChangeRequired := changeRequired }) s.accounts }

def findPasswordResetTokenAccount (tokenHash : String) (now : ℤ) : Option String :=
  (s.passwordResets.find? fun x =>
    x.tokenHash = tokenHash && x.usedAt = none && now < x.expiresAt).map (·.accountId)

def consumePasswordResetToken (tokenHash : String) (now : ℤ) : Option String × Tables :=
  let selects := fun x : PasswordResetRow =>
    x.tokenHash = tokenHash && x.usedAt = none && now < x.expiresAt
  ((s.passwordResets.find? selects).map (·.accountId), { s with
      passwordResets := Table.update selects (fun x => { x with usedAt := some now }) s.passwordResets })

def createTenantInvitation (row : InvitationRow) : Except String Tables :=
  let kept := s.invitations.filter fun x =>
    !(x.tenantId = row.tenantId && x.normalizedEmail = row.normalizedEmail)
  if kept.any fun x => x.tokenHash = row.tokenHash || x.id = row.id then
    .error "error: duplicate key value violates unique constraint on \"auth_tenant_invitations\""
  else .ok { s with invitations := kept ++ [{ row with acceptedAt := none }] }

def consumeTenantInvitation (tokenHash : String) (now : ℤ) : Option InvitationRow × Tables :=
  let selects := fun x : InvitationRow =>
    x.tokenHash = tokenHash && x.acceptedAt = none && now < x.expiresAt
  (s.invitations.find? selects, { s with
      invitations := Table.update selects (fun x => { x with acceptedAt := some now }) s.invitations })

end Tables

/-! ### Calls -/

/-- A call of the repository, or of what is not in the tables. -/
inductive Call
  | findAccountMembership (accountId tenantId : String)
  | findAccountIdentity (email : String)
  | tenantOfAccount (accountId : String)
  | countActiveOwners (tenantId : String)
  | countMemberships (accountId : String)
  | listTenantMembers (tenantId : String)
  | listTenantScopes (tenantId : String)
  | listTenantAccess (accountId : String)
  | findRole (tenantId id : String)
  | findRoleByKey (tenantId key : String)
  | updateAccountStatus (accountId : String) (status : Status)
  | setMembershipStatus (accountId tenantId : String) (status : Status)
  | replaceMembershipScopes (accountId tenantId : String) (scopes : List String)
  | updateMembershipRole (accountId tenantId role : String) (roleId : Option String)
      (scopes : List String)
  | deleteMembership (accountId tenantId : String)
  | deleteAccount (accountId : String)
  | createMembershipInTenant (m : MembershipRow)
  | createAccountInTenant (a : AccountRow) (m : MembershipRow)
  | sessionTenants (accountId : String)
  | deleteMembershipSessions (accountId tenantId : String)
  | createSession (row : SessionRow)
  | findSession (tokenHash : String) (now idleMs touchIntervalMs : ℤ)
  | deleteSession (tokenHash : String)
  | createApiToken (row : ApiTokenRow)
  | revokeMembershipApiTokens (tenantId accountId : String) (revokedAt : ℤ) (revokedBy : String)
  | createMfaChallenge (row : ChallengeRow)
  | consumeMfaChallenge (tokenHash : String) (now : ℤ)
  | createRole (role : TenantRole)
  | updateRole (tenantId id name description : String) (scopes : List String)
  | deleteRole (tenantId id : String)
  | countRoleMemberships (tenantId roleId : String)
  | grantTenantOwnerScopes (tenantId : String) (scopes : List String)
  | createTenantInvitation (row : InvitationRow)
  | consumeTenantInvitation (tokenHash : String) (now : ℤ)
  | updatePasswordHash (accountId passwordHash : String) (changeRequired : Bool)
  | findPasswordResetTokenAccount (tokenHash : String) (now : ℤ)
  | consumePasswordResetToken (tokenHash : String) (now : ℤ)
  | appendAudit (tenantId actorId action subjectType subjectId : String)
      (metadata : List (String × Json))
  /-- A read of what is not in the tables that answers yes or no. -/
  | outside (what : String) (arguments : List String)
  /-- A read of what is not in the tables that may answer an identifier. -/
  | lookup (what : String) (arguments : List String)
  /-- A read of what is not in the tables that answers identifiers. -/
  | listing (what : String) (arguments : List String)

/-- What a call answers. -/
@[reducible] def Call.Answer : Call → Type
  | .findAccountMembership .. => Option AccountCredential
  | .findAccountIdentity _ => Option AccountIdentity
  | .tenantOfAccount _ => Option String
  | .countActiveOwners _ => ℕ
  | .countMemberships _ => ℕ
  | .listTenantMembers _ => List TenantMember
  | .listTenantScopes _ => List String
  | .listTenantAccess _ => List (String × String)
  | .findRole .. => Option TenantRole
  | .findRoleByKey .. => Option TenantRole
  | .setMembershipStatus .. => Bool
  | .deleteMembership .. => Bool
  | .createMembershipInTenant _ => Option AccountCredential
  | .createAccountInTenant .. => Option AccountCredential
  | .sessionTenants _ => List String
  | .findSession .. => Option (SessionRow × AccountCredential)
  | .revokeMembershipApiTokens .. => ℕ
  | .consumeMfaChallenge .. => Option (String × String)
  | .updateRole .. => Option TenantRole
  | .countRoleMemberships .. => ℕ
  | .grantTenantOwnerScopes .. => List (String × List String)
  | .consumeTenantInvitation .. => Option InvitationRow
  | .findPasswordResetTokenAccount .. => Option String
  | .consumePasswordResetToken .. => Option String
  | .outside .. => Bool
  | .lookup .. => Option String
  | .listing .. => List String
  | _ => PUnit

/-- How a call ends: it fails, before or after it took effect, or it is answered; what is
not in the tables answers as it likes. -/
structure Choice where
  fails : Option (Bool × String) := none
  yes : Bool := true
  found : Option String := none
  listed : List String := []

/-- What a write leaves, with no answer of its own. -/
def written {α : Type} (s : Tables) (a : α) : Except String Tables → Except String α × Tables
  | .ok s' => (.ok a, s')
  | .error e => (.error e, s)

/-- What a write leaves, with its answer. -/
def answered {α : Type} (s : Tables) : Except String (Tables × α) → Except String α × Tables
  | .ok (s', a) => (.ok a, s')
  | .error e => (.error e, s)

/-- What a call does where it does not fail. -/
def Call.perform (c : Call) (choice : Choice) (s : Tables) : Except String c.Answer × Tables :=
  match c with
  | .findAccountMembership accountId tenantId => (.ok (s.findAccountMembership accountId tenantId), s)
  | .findAccountIdentity email => (.ok (s.findAccountIdentity email), s)
  | .tenantOfAccount accountId => (.ok (s.tenantOfAccount accountId), s)
  | .countActiveOwners tenantId => (.ok (s.countActiveOwners tenantId), s)
  | .countMemberships accountId => (.ok (s.countMemberships accountId), s)
  | .listTenantMembers tenantId => (.ok (s.listTenantMembers tenantId), s)
  | .listTenantScopes tenantId => (.ok (s.listTenantScopes tenantId), s)
  | .listTenantAccess accountId => (.ok (s.listTenantAccess accountId), s)
  | .findRole tenantId id => (.ok (s.findRole tenantId id), s)
  | .findRoleByKey tenantId key => (.ok (s.findRoleByKey tenantId key), s)
  | .updateAccountStatus accountId status => (.ok ⟨⟩, s.updateAccountStatus accountId status)
  | .setMembershipStatus accountId tenantId status =>
    (.ok (s.membershipRow accountId tenantId).isSome, s.setMembershipStatus accountId tenantId status)
  | .replaceMembershipScopes accountId tenantId scopes =>
    (.ok ⟨⟩, s.replaceMembershipScopes accountId tenantId scopes)
  | .updateMembershipRole accountId tenantId role roleId scopes =>
    written s ⟨⟩ (s.updateMembershipRole accountId tenantId role roleId scopes)
  | .deleteMembership accountId tenantId =>
    (.ok (s.membershipRow accountId tenantId).isSome, s.deleteMembership accountId tenantId)
  | .deleteAccount accountId => (.ok ⟨⟩, s.deleteAccount accountId)
  | .createMembershipInTenant m => answered s (s.createMembershipInTenant m)
  | .createAccountInTenant a m => answered s (s.createAccountInTenant a m)
  | .sessionTenants accountId => (.ok (s.sessionTenants accountId), s)
  | .deleteMembershipSessions accountId tenantId =>
    (.ok ⟨⟩, s.deleteMembershipSessions accountId tenantId)
  | .createSession row => written s ⟨⟩ (s.createSession row)
  | .findSession tokenHash now idleMs touchIntervalMs =>
    (.ok (s.findSession tokenHash now idleMs touchIntervalMs).1,
      (s.findSession tokenHash now idleMs touchIntervalMs).2)
  | .deleteSession tokenHash => (.ok ⟨⟩, s.deleteSession tokenHash)
  | .createApiToken row => written s ⟨⟩ (s.createApiToken row)
  | .revokeMembershipApiTokens tenantId accountId revokedAt revokedBy =>
    (.ok (s.apiTokens.filter fun x =>
        x.tenantId = tenantId && x.accountId = accountId && x.revokedAt = none).length,
      s.revokeMembershipApiTokens tenantId accountId revokedAt revokedBy)
  | .createMfaChallenge row => written s ⟨⟩ (s.createMfaChallenge row)
  | .consumeMfaChallenge tokenHash now =>
    (.ok (s.consumeMfaChallenge tokenHash now).1, (s.consumeMfaChallenge tokenHash now).2)
  | .createRole role => written s ⟨⟩ (s.createRole role)
  | .updateRole tenantId id name description scopes =>
    (.ok (s.updateRole tenantId id name description scopes).1,
      (s.updateRole tenantId id name description scopes).2)
  | .deleteRole tenantId id => (.ok ⟨⟩, s.deleteRole tenantId id)
  | .countRoleMemberships tenantId roleId => (.ok (s.countRoleMemberships tenantId roleId), s)
  | .grantTenantOwnerScopes tenantId scopes => answered s (s.grantTenantOwnerScopes tenantId scopes)
  | .createTenantInvitation row => written s ⟨⟩ (s.createTenantInvitation row)
  | .consumeTenantInvitation tokenHash now =>
    (.ok (s.consumeTenantInvitation tokenHash now).1, (s.consumeTenantInvitation tokenHash now).2)
  | .updatePasswordHash accountId passwordHash changeRequired =>
    (.ok ⟨⟩, s.updatePasswordHash accountId passwordHash changeRequired)
  | .findPasswordResetTokenAccount tokenHash now =>
    (.ok (s.findPasswordResetTokenAccount tokenHash now), s)
  | .consumePasswordResetToken tokenHash now =>
    (.ok (s.consumePasswordResetToken tokenHash now).1, (s.consumePasswordResetToken tokenHash now).2)
  | .appendAudit .. => (.ok ⟨⟩, s)
  | .outside .. => (.ok choice.yes, s)
  | .lookup .. => (.ok choice.found, s)
  | .listing .. => (.ok choice.listed, s)

/-- A call, answered. -/
def Call.serve (c : Call) (s : Tables) (choice : Choice) : Prog.Reply Call.Answer c × Tables :=
  match choice.fails with
  | none => c.perform choice s
  | some (kept, error) => (.error error, if kept then (c.perform choice s).2 else s)

/-- A call with its reply. -/
abbrev Entry :=
  Σ c, Prog.Reply Call.Answer c

/-- A program of calls. -/
abbrev Service (α : Type) :=
  Prog Call (Prog.Reply Call.Answer) α

/-- A call of a service. -/
def call (c : Call) : Service c.Answer :=
  Prog.need c

end Flowdular.Auth
