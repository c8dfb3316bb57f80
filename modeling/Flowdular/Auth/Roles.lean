/-
# Roles, members and invitations

`src/modules/auth/src/services/auth-service.ts`, lines 1179-1188 (`listGrantableScopes`),
1296-1341 (`grantModuleScopes`, `findTenant`), 1415-1505 (`createTenantMember`), 1676-1719
(`setMembershipScopes`), 1757-1937 (`#roleScopes` … `deleteRole`), 1958-1989
(`#mintTenantInvitation`), 2095-2225 (the invitations) and 2379-2493 (`planMemberProvision`,
`provisionMember`); `validation.ts`, lines 49-53, 60-232, 232-242 and 294-385;
`acl/scopes.ts`.

`setMembershipScopes` refuses a scope that an actor who is no owner does not hold.  The
scopes of a role are only checked to be grantable, and a role is given to a member, by
`assignMemberRole`, at creation or by an invitation, without a look at its scopes.
-/

import Flowdular.Auth.ApiTokens
import Mathlib.Data.List.Infix

namespace Flowdular.Auth

open Lib Workflows

/-! ### The catalogue of scopes -/

/-- The values of `AUTH_SCOPES`. -/
def authScopes : List String :=
  ["auth.profile.read", "auth.session.manage", "auth.account.manage", "auth.tenant.switch",
    "auth.tokens.read", "auth.tokens.manage", "auth.roles.read", "auth.roles.manage",
    "auth.audit.read", "auth.providers.read", "auth.providers.manage"]

/-- The values of `PLATFORM_SCOPES`. -/
def platformScopes : List String :=
  ["system.workspace.access", "system.modules.read", "system.specs.read", "system.runs.read",
    "system.settings.read", "system.settings.manage"]

/-- The values of `BUNDLED_MODULE_SCOPES`. -/
def bundledModuleScopes : List String :=
  ["users.members.read", "users.members.manage", "agents.definitions.read",
    "agents.definitions.manage", "agents.runs.read", "agents.runs.execute",
    "agents.providers.read", "agents.providers.manage", "agents.providers.test",
    "agents.skills.read", "agents.skills.manage", "notifications.inbox.read",
    "notifications.inbox.manage", "notifications.webhooks.read", "notifications.webhooks.manage",
    "notifications.deliveries.read", "sandbox.access.use", "sandbox.access.manage",
    "sandbox.sessions.read", "sandbox.preview.data", "sandbox.modules.eject",
    "directory.tokens.read", "directory.tokens.manage", "directory.provisioning.read",
    "audit.registry.read", "audit.retention.manage", "audit.holds.manage",
    "approvals.requests.read", "approvals.requests.decide", "approvals.requests.manage",
    "documents.files.read", "documents.files.manage", "metering.usage.read", "import.jobs.read",
    "import.jobs.manage", "search.records.read", "connectors.instances.read",
    "connectors.instances.manage", "workflows.definitions.read", "workflows.definitions.manage",
    "workflows.definitions.publish", "workflows.runs.read", "workflows.runs.execute",
    "workflows.runs.cancel", "automations.schedules.read", "automations.schedules.manage",
    "automations.triggers.read", "automations.triggers.manage", "profile.self.manage",
    "reports.workspace.read", "exports.lists.read", "exports.lists.manage", "access.review.read",
    "access.review.manage", "research.evidence.read", "research.run", "research.settings.manage",
    "adapters.runs.read", "adapters.runs.manage", "documents.templates.read",
    "documents.templates.manage", "agents.assistant.use", "decisions.definitions.read",
    "decisions.definitions.manage", "decisions.invocations.manage", "decisions.invocations.read",
    "decisions.connections.manage", "decisions.connections.read"]

/-- `OWNER_SCOPES`. -/
def ownerScopes : List String :=
  authScopes ++ platformScopes ++ bundledModuleScopes

/-- `MEMBER_SCOPES`. -/
def memberScopes : List String :=
  ["auth.profile.read", "auth.session.manage", "auth.tenant.switch", "auth.roles.read",
    "system.workspace.access", "users.members.read", "agents.definitions.read",
    "agents.runs.read", "agents.runs.execute", "agents.skills.read", "notifications.inbox.read",
    "notifications.inbox.manage", "notifications.webhooks.read", "documents.files.read",
    "documents.files.manage", "search.records.read", "connectors.instances.read",
    "approvals.requests.read", "approvals.requests.decide", "profile.self.manage",
    "research.evidence.read", "research.run", "documents.templates.read", "agents.assistant.use",
    "decisions.definitions.read", "decisions.invocations.read"]

/-! ### What is submitted -/

/-- `COMMON_PASSWORDS`. -/
def commonPasswords : List String :=
  ["123456", "password", "123456789", "12345678", "12345", "qwerty", "1234567", "111111",
    "123123", "abc123", "1234567890", "1234", "iloveyou", "000000", "dragon", "monkey",
    "letmein", "sunshine", "princess", "football", "123321", "654321", "666666", "7777777",
    "121212", "qwertyuiop", "1q2w3e4r", "555555", "888888", "admin", "welcome", "login",
    "master", "passw0rd", "superman", "batman", "michael", "jennifer", "jordan", "hunter",
    "ranger", "harley", "shadow", "baseball", "soccer", "trustno1", "whatever", "charlie",
    "daniel", "jessica", "ashley", "thomas", "robert", "andrew", "matthew", "joshua", "hannah",
    "nicole", "amanda", "samantha", "buster", "tigger", "purple", "orange", "silver", "chelsea",
    "cheese", "banana", "zaq1zaq1", "qazwsx", "zxcvbnm", "asdfgh", "asdfghjkl", "qwe123",
    "123qwe", "1qaz2wsx", "password1", "password123", "pass123", "admin123", "root", "guest",
    "test", "changeme", "secret", "freedom", "killer", "summer", "maggie", "pepper", "ginger",
    "cookie", "flower", "hello", "starwars", "computer", "internet", "access", "mustang",
    "corvette", "1234567890123", "1qaz2wsx3edc", "administrator", "asdfghjkl123", "changeme1234",
    "iloveyou1234", "letmein12345", "password1234", "passwordpassword", "qazwsxedcrfv",
    "qwerty123456", "qwertyuiop12", "welcome12345", "zaq12wsxcde3"]

/-- `value.trim()`. -/
def trimmed (value : String) : String :=
  String.ofList (trimChars value.toList)

def validateDisplayName (value : String) : Except String String :=
  let displayName := trimmed value
  if utf16Length displayName < 2 ∨ 80 < utf16Length displayName then
    .error (authServiceError "INVALID_INPUT" "Display name must contain 2 to 80 characters." 400)
  else .ok displayName

def validateRoleName (value : String) : Except String String :=
  let name := trimmed value
  if utf16Length name < 2 ∨ 60 < utf16Length name then
    .error (authServiceError "INVALID_INPUT" "Role name must contain 2 to 60 characters." 400)
  else .ok name

def validateRoleDescription (value : String) : Except String String :=
  let description := trimmed value
  if 240 < utf16Length description then
    .error (authServiceError "INVALID_INPUT" "Role description must contain at most 240 characters." 400)
  else .ok description

structure CreateTenantMemberInput where
  tenantId : String
  email : String
  password : String
  displayName : String
  role : String

section

variable [AuthText]

def validatePassword (password : String) (minLength : ℕ) (email : String) : Except String PUnit :=
  let folded := AuthText.lower (AuthText.nfkc (trimmed password))
  let localPart := (normalizeEmail email).toList.takeWhile (· ≠ '@')
  if 1024 < password.utf8ByteSize then
    .error (authServiceError "INVALID_INPUT" "Password is too long." 400)
  else if folded ∈ commonPasswords then
    .error (authServiceError "PASSWORD_TOO_COMMON"
      "Choose a password that does not appear on the list of most common passwords." 400)
  else if utf16Length password < minLength then
    .error (authServiceError "INVALID_INPUT" s!"Password must contain at least {minLength} characters." 400)
  else if 3 ≤ localPart.length ∧ localPart <:+: folded.toList then
    .error (authServiceError "PASSWORD_CONTAINS_EMAIL"
      "Password must not contain the local part of the email address." 400)
  else .ok ⟨⟩

def validateCreateTenantMember (input : CreateTenantMemberInput) (minLength : ℕ) :
    Except String CreateTenantMemberInput := do
  let email := normalizeEmail input.email
  let displayName ← validateDisplayName input.displayName
  validateEmail email
  validatePassword input.password minLength email
  if input.tenantId = "" ∨ 128 < utf16Length input.tenantId then
    .error (authServiceError "INVALID_INPUT" "Tenant is invalid." 400)
  else
    let role ← validateRoleKey input.role
    return { tenantId := input.tenantId, email, password := input.password, displayName, role }

end

/-! ### Scopes -/

def listGrantableScopes (tenantId : String) : Service (List String) := do
  let tenantId ← Prog.ofExcept (identifier tenantId "tenantId")
  let held ← call (.listTenantScopes tenantId)
  return sortStrings (ownerScopes ++ held).dedup

/-- The checks on the scopes of a membership or a role, one scope after the other: it is
grantable, and where there is a cap it is under it. -/
def checkScopes (grantable : List String) (cap : Option (List String)) :
    List String → Except String PUnit
  | [] => .ok ⟨⟩
  | scope :: rest =>
    if isIdentifier scope = false ∨ scope ∉ grantable then
      .error (authServiceError "INVALID_SCOPES" s!"Scope {scope} cannot be granted in this workspace." 400)
    else if cap.any fun held => scope ∉ held then
      .error (authServiceError "SCOPE_CAP_EXCEEDED"
        s!"You cannot grant {scope} because you do not hold it." 403)
    else checkScopes grantable cap rest

def setMembershipScopes (actor : AuthActor) (accountId : String) (scopes : List String) :
    Service TenantMember := do
  let target ← targetMember actor accountId false
  let grantable ← listGrantableScopes actor.tenantId
  let accepted := sortStrings scopes.dedup
  let _ ← Prog.ofExcept
    (checkScopes grantable (if actor.role ≠ "owner" then some actor.scopes else none) accepted)
  let _ ← call (.replaceMembershipScopes target.accountId actor.tenantId accepted)
  let _ ← audit actor.tenantId actor.accountId "users.member.scopes" "account" target.accountId
    [("scopes", .arr (accepted.map .str))]
  member target.accountId actor.tenantId

def roleScopes (actor : AuthActor) (scopes : List String) : Service (List String) := do
  let grantable ← listGrantableScopes actor.tenantId
  let accepted := sortStrings scopes.dedup
  let _ ← require (accepted ≠ [])
    (authServiceError "INVALID_SCOPES" "A role must grant at least one scope." 400)
  let _ ← Prog.ofExcept (checkScopes grantable none accepted)
  return accepted

/-! ### Roles -/

/-- The workspace of a request is the actor's. -/
def requireTenant (actor : AuthActor) (tenantId : String) : Service PUnit :=
  require (tenantId = actor.tenantId)
    (authServiceError "TENANT_ACCESS_DENIED" "The requested tenant is not available." 403)

structure CreateRoleInput where
  tenantId : String
  key : String
  name : String
  description : String
  scopes : List String

/-- The message of an error that is known by its text. -/
def renamed (known replacement : String) {α : Type} (p : Service α) : Service α :=
  p.orElse fun e => .fail (if e = known then replacement else e)

/-- `createRole`; the identifier is drawn. -/
def createRole (actor : AuthActor) (raw : CreateRoleInput) (id : String) : Service TenantRole := do
  let _ ← requireTenant actor raw.tenantId
  let key ← Prog.ofExcept (validateRoleKey raw.key)
  let _ ← require (key ≠ "owner" ∧ key ≠ "member")
    (authServiceError "ROLE_RESERVED" "The owner and member roles are built in." 409)
  renamed Tables.duplicateRoleKeyError
    (authServiceError "ROLE_EXISTS" "A role with this key already exists in the workspace." 409) do
    let name ← Prog.ofExcept (validateRoleName raw.name)
    let description ← Prog.ofExcept (validateRoleDescription raw.description)
    let scopes ← roleScopes actor raw.scopes
    let role : TenantRole :=
      { id, tenantId := actor.tenantId, key, name, description, scopes, builtin := false }
    let _ ← call (.createRole role)
    let _ ← audit actor.tenantId actor.accountId "auth.role.created" "role" role.id
      [("key", .str role.key), ("scopes", .arr (role.scopes.map .str))]
    return role

def editableRole (tenantId id : String) : Service TenantRole := do
  let id ← Prog.ofExcept (identifier id "id")
  let role ← call (.findRole tenantId id)
  match role with
  | none => .fail (authServiceError "ROLE_NOT_FOUND" "The role does not exist in this workspace." 404)
  | some role =>
    let _ ← require (role.builtin = false)
      (authServiceError "ROLE_BUILTIN" "Built-in roles cannot be changed." 409)
    return role

structure UpdateRoleInput where
  tenantId : String
  id : String
  name : Option String := none
  description : Option String := none
  scopes : Option (List String) := none

/-- The scopes of a role behind an update. -/
def updatedScopes (actor : AuthActor) (current : TenantRole) : Option (List String) → Service (List String)
  | none => .pure current.scopes
  | some scopes => roleScopes actor scopes

/-- Give scopes to memberships, one after the other. -/
def replaceScopesOf (tenantId : String) (scopes : List String) : List TenantMember → Service PUnit
  | [] => .pure ⟨⟩
  | membership :: rest => do
    let _ ← call (.replaceMembershipScopes membership.accountId tenantId scopes)
    replaceScopesOf tenantId scopes rest

/-- The members of a role take over its scopes. -/
def rewriteHolders (tenantId roleId : String) (scopes : List String) : Service PUnit := do
  let members ← call (.listTenantMembers tenantId)
  replaceScopesOf tenantId scopes (members.filter fun entry => entry.roleId = some roleId)

/-- What an absent field of an update stands for. -/
def updatedField (validate : String → Except String String) (current : String) :
    Option String → Except String String
  | none => .ok current
  | some value => validate value

/-- The event of a role that was updated, read off the row it returned. -/
def auditUpdated (actor : AuthActor) : Option TenantRole → Service TenantRole
  | none => .fail "TypeError: Cannot read properties of null (reading 'id')"
  | some updated => do
    let _ ← audit actor.tenantId actor.accountId "auth.role.updated" "role" updated.id
      [("key", .str updated.key), ("scopes", .arr (updated.scopes.map .str))]
    return updated

/-- `updateRole` behind the role. -/
def updateRoleOf (actor : AuthActor) (raw : UpdateRoleInput) (current : TenantRole) :
    Service TenantRole := do
  let scopes ← updatedScopes actor current raw.scopes
  let name ← Prog.ofExcept (updatedField validateRoleName current.name raw.name)
  let description ← Prog.ofExcept
    (updatedField validateRoleDescription current.description raw.description)
  let updated ← call (.updateRole actor.tenantId current.id name description scopes)
  let _ ← whenever (raw.scopes.isSome = true) (rewriteHolders actor.tenantId current.id scopes)
  auditUpdated actor updated

def updateRole (actor : AuthActor) (raw : UpdateRoleInput) : Service TenantRole := do
  let _ ← requireTenant actor raw.tenantId
  let current ← editableRole actor.tenantId raw.id
  updateRoleOf actor raw current

/-- `deleteRole`; the providers are not in the tables, and one that provisions into the role
is found by its key. -/
def deleteRole (actor : AuthActor) (id : String) : Service PUnit := do
  let role ← editableRole actor.tenantId id
  let holders ← call (.countRoleMemberships actor.tenantId role.id)
  let _ ← require (holders = 0)
    (authServiceError "ROLE_IN_USE" "Reassign every member before deleting this role." 409)
  let named ← call (.lookup "listIdentityProviders" [actor.tenantId, role.key])
  match named with
  | some key => .fail (authServiceError "ROLE_NAMED_BY_PROVIDER"
    s!"The identity provider {key} provisions members into this role. Point it at another role first." 409)
  | none =>
    let _ ← call (.deleteRole actor.tenantId role.id)
    audit actor.tenantId actor.accountId "auth.role.deleted" "role" role.id [("key", .str role.key)]

/-- Grant scopes to the owners of workspaces, one workspace after the other. -/
def grantIn (scopes : List String) : List String → Service (List (String × String × List String))
  | [] => .pure []
  | tenantId :: rest => do
    let granted ← call (.grantTenantOwnerScopes tenantId scopes)
    let results ← grantIn scopes rest
    return granted.map (fun entry => (tenantId, entry.1, entry.2)) ++ results

/-- `grantModuleScopes`; the workspaces are not in the tables. -/
def grantModuleScopes (scopes : List String) : Service (List (String × String × List String)) := do
  let accepted := sortStrings (scopes.dedup.filter isIdentifier)
  if accepted = [] then return []
  else
    let tenants ← call (.listing "listTenants" [])
    grantIn accepted tenants

/-! ### Members -/

/-- The role of a member that is created, and its scopes. -/
def roleOfMember (actor : Option AuthActor) (tenantId roleKey : String) :
    Service (Option String × List String) :=
  match actor with
  | some actor => do
    let role ← roleForAssignment actor roleKey
    return (some role.id, role.scopes)
  | none => do
    let role ← call (.findRoleByKey tenantId roleKey)
    match role with
    | some role => .pure (some role.id, role.scopes)
    | none => .pure (none, if roleKey = "owner" then ownerScopes else memberScopes)

/-- The event of a member that is created. -/
def auditMember (actor : Option AuthActor) (account : AccountCredential) (role passwordHash : String) :
    Service PUnit :=
  match actor with
  | none => .pure ⟨⟩
  | some actor =>
    audit actor.tenantId actor.accountId "users.member.created" "account" account.accountId
      ([("email", .str account.email), ("role", .str role)] ++
        if passwordHash = unusablePasswordHash then [("credential", .str "none")] else [])

/-- The account and the membership of a member that is created. -/
def insertMember (actor : Option AuthActor) (input : CreateTenantMemberInput) (draws : Draws)
    (roleId : Option String) (scopes : List String) : Service TenantMember := do
  let account ← call (.createAccountInTenant
    { id := draws.accountId, email := input.email, passwordHash := draws.passwordHash
      displayName := input.displayName }
    { accountId := draws.accountId, tenantId := input.tenantId, role := input.role, roleId, scopes
      createdAt := draws.issuedAt })
  match account with
  | none => .fail "TypeError: Cannot read properties of null (reading 'accountId')"
  | some account =>
    let _ ← auditMember actor account input.role draws.passwordHash
    return {
      accountId := account.accountId, email := account.email, displayName := account.displayName
      role := account.role, roleId := account.roleId, status := account.status
      membershipStatus := account.membershipStatus, scopes := account.scopes
      passwordChangeRequired := account.passwordChangeRequired, createdAt := draws.issuedAt }

/-- `#createTenantMember`; the digest of the password is drawn. -/
def createMember (input : CreateTenantMemberInput) (actor : Option AuthActor) (draws : Draws) :
    Service TenantMember := do
  let _ ← whenever (actor.any (·.tenantId ≠ input.tenantId) = true)
    (.fail (authServiceError "TENANT_ACCESS_DENIED" "The requested tenant is not available." 403))
  let (roleId, scopes) ← roleOfMember actor input.tenantId input.role
  renamed Tables.duplicateAccountError
    (authServiceError "ACCOUNT_EXISTS" "An account with this email already exists." 409)
    (insertMember actor input draws roleId scopes)

section

variable [AuthText]

def createTenantMember (raw : CreateTenantMemberInput) (actor : Option AuthActor) (minLength : ℕ)
    (draws : Draws) : Service TenantMember := do
  let input ← Prog.ofExcept (validateCreateTenantMember raw minLength)
  createMember input actor draws

/-! ### Invitations -/

/-- `INVITATION_TTL_MS`. -/
def invitationTtlMs : ℤ :=
  604800000

/-- `createTenantInvitation`; the mail is not in the tables. -/
def createTenantInvitation (actor : AuthActor) (email roleKey : String) (draws : Draws) :
    Service (String × ℤ) := do
  let normalized := normalizeEmail email
  let _ ← Prog.ofExcept (validateEmail normalized)
  let key ← Prog.ofExcept (validateRoleKey roleKey)
  let _ ← roleForAssignment actor key
  let configured ← call (.outside "mailDeliveryConfigured" [])
  let _ ← require (configured = true)
    (authServiceError "MAIL_NOT_CONFIGURED" "Email delivery is not configured for this deployment." 503)
  let expiresAt := draws.issuedAt + invitationTtlMs
  let _ ← call (.createTenantInvitation {
    id := draws.sessionId, tenantId := actor.tenantId, email := normalized
    normalizedEmail := normalized, roleKey := trimmed roleKey
    tokenHash := AuthText.hashSessionToken draws.token, expiresAt, createdBy := actor.accountId
    createdAt := draws.issuedAt })
  let sent ← .orElse (call (.outside "mailDelivery.send" [normalized, draws.token])) fun _ => .pure false
  let _ ← require (sent = true)
    (authServiceError "MAIL_DELIVERY_FAILED" "The invitation could not be delivered." 503)
  let _ ← audit actor.tenantId actor.accountId "auth.invitation.created" "invitation" draws.sessionId
    [("role", .str (trimmed roleKey))]
  return (draws.sessionId, expiresAt)

/-- `INVITATION_INVALID`. -/
def invitationInvalid : String :=
  authServiceError "INVITATION_INVALID" "This invitation is invalid or has expired." 400

/-- The membership an invitation gives to an account there is. -/
def joinTenant (invitation : InvitationRow) (role : TenantRole) (draws : Draws)
    (existing : AccountCredential) : Service String := do
  let membership ← call (.findAccountMembership existing.accountId invitation.tenantId)
  let _ ← require (membership.isNone = true) invitationInvalid
  let _ ← call (.createMembershipInTenant {
    accountId := existing.accountId, tenantId := invitation.tenantId, role := invitation.roleKey
    roleId := some role.id, scopes := role.scopes, createdAt := draws.issuedAt })
  return existing.accountId

/-- The member an invitation makes. -/
def joinInvited (invitation : InvitationRow) (role : TenantRole) (displayName password : String)
    (minLength : ℕ) (draws : Draws) : Option AccountCredential → Service String
  | some existing => joinTenant invitation role draws existing
  | none => do
    let _ ← createTenantMember
      { tenantId := invitation.tenantId, email := invitation.email, displayName, password
        role := invitation.roleKey } none minLength draws
    return "invited-account"

/-- `acceptTenantInvitation` behind the invitation. -/
def acceptInvitation (invitation : InvitationRow) (displayName password : String) (minLength : ℕ)
    (draws : Draws) : Service PUnit := do
  let role ← call (.findRoleByKey invitation.tenantId invitation.roleKey)
  match role with
  | none => .fail invitationInvalid
  | some role =>
    let existing ← findAccountByEmail invitation.normalizedEmail
    let accountId ← joinInvited invitation role displayName password minLength draws existing
    audit invitation.tenantId accountId "auth.invitation.accepted" "invitation" invitation.email []

def acceptTenantInvitation (token displayName password : String) (minLength : ℕ) (now : ℤ)
    (draws : Draws) : Service PUnit := do
  let _ ← require (challengePattern token = true) invitationInvalid
  let invitation ← call (.consumeTenantInvitation (AuthText.hashSessionToken token) now)
  match invitation with
  | none => .fail invitationInvalid
  | some invitation => acceptInvitation invitation displayName password minLength draws

/-! ### Members an operator provisions -/

structure TenantSummary where
  tenantId : String
  name : String
  slug : String

/-- What a lookup of a workspace answers. -/
def tenantSummary : List String → Option TenantSummary
  | [tenantId, name, slug] => some { tenantId, name, slug }
  | _ => none

/-- `findTenant`: by identifier or name, then in lower case; the workspaces are not in the
tables. -/
def findTenant (reference : String) : Service (Option TenantSummary) :=
  let normalized := AuthText.nfkc (trimmed reference)
  if utf16Length normalized < 1 ∨ 128 < utf16Length normalized then .pure none
  else do
    let found ← call (.listing "findTenant" [normalized])
    match tenantSummary found with
    | some workspace => .pure (some workspace)
    | none => do
      let found ← call (.listing "findTenant" [AuthText.lower normalized])
      return tenantSummary found

structure MemberProvisionInput where
  workspace : String
  email : String
  role : String
  operator : String

structure MemberProvisionPlan where
  workspace : TenantSummary
  email : String
  role : TenantRole
  account : Option AccountCredential
  operator : String

/-- The account has no membership of the workspace yet. -/
def assertNoMember (workspace : TenantSummary) (email : String) : Option AccountCredential → Service PUnit
  | none => .pure ⟨⟩
  | some account => do
    let membership ← call (.findAccountMembership account.accountId workspace.tenantId)
    require (membership.isNone = true) (authServiceError "MEMBER_EXISTS"
      s!"{email} is already a member of \"{workspace.slug}\"." 409)

def planMemberProvision (input : MemberProvisionInput) : Service MemberProvisionPlan := do
  let operator ← Prog.ofExcept (identifier input.operator "operator")
  let email := normalizeEmail input.email
  let _ ← Prog.ofExcept (validateEmail email)
  let roleKey ← Prog.ofExcept (validateRoleKey input.role)
  let found ← findTenant input.workspace
  match found with
  | none => .fail (authServiceError "TENANT_NOT_FOUND" s!"No workspace matches \"{input.workspace}\"." 404)
  | some workspace =>
    let role ← call (.findRoleByKey workspace.tenantId roleKey)
    match role with
    | none =>
      .fail (authServiceError "ROLE_NOT_FOUND" s!"The workspace has no role \"{roleKey}\"." 404)
    | some role =>
      let account ← findAccountByEmail email
      let _ ← assertNoMember workspace email account
      return { workspace, email, role, account, operator }

/-- `ProvisionedMember`, as far as it is not in the plan. -/
structure ProvisionedMember where
  workspace : TenantSummary
  email : String
  role : String
  scopes : List String
  accountId : Option String
  invitation : Option (String × ℤ)
  operator : String

/-- `provisionMember` behind the plan: a membership of the account, or an invitation. -/
def provisionPlanned (plan : MemberProvisionPlan) (draws : Draws) : Service ProvisionedMember :=
  match plan.account with
  | some account => do
    let membership ← call (.createMembershipInTenant {
      accountId := account.accountId, tenantId := plan.workspace.tenantId, role := plan.role.key
      roleId := some plan.role.id, scopes := plan.role.scopes, createdAt := draws.issuedAt })
    match membership with
    | none => .fail "TypeError: Cannot read properties of null (reading 'accountId')"
    | some membership =>
      let _ ← audit plan.workspace.tenantId plan.operator "users.member.created" "account"
        membership.accountId [("email", .str membership.email), ("role", .str plan.role.key)]
      return {
        workspace := plan.workspace, email := membership.email, role := plan.role.key
        scopes := membership.scopes, accountId := some membership.accountId, invitation := none
        operator := plan.operator }
  | none => do
    let expiresAt := draws.issuedAt + invitationTtlMs
    let _ ← call (.createTenantInvitation {
      id := draws.sessionId, tenantId := plan.workspace.tenantId, email := plan.email
      normalizedEmail := plan.email, roleKey := plan.role.key
      tokenHash := AuthText.hashSessionToken draws.token, expiresAt, createdBy := plan.operator
      createdAt := draws.issuedAt })
    let _ ← audit plan.workspace.tenantId plan.operator "auth.invitation.created" "invitation"
      draws.sessionId [("role", .str plan.role.key)]
    return {
      workspace := plan.workspace, email := plan.email, role := plan.role.key
      scopes := plan.role.scopes, accountId := none
      invitation := some (draws.sessionId, expiresAt), operator := plan.operator }

def provisionMember (input : MemberProvisionInput) (draws : Draws) : Service ProvisionedMember := do
  let plan ← planMemberProvision input
  provisionPlanned plan draws

end

end Flowdular.Auth
