/-
# Signing in

`src/modules/auth/src/services/auth-service.ts`, lines 263-292 (`TenantProviderSignIn`,
`displayNameFromEmail`), 686-717 (`#issue`), 790-926 (`signIn` … `#recordFailure`),
2768-3030 (`completeMfaChallenge`, `signInExternalIdentity` …
`#provisionExternalMember`), 3083-3091 (`resolveSession`) and 3226-3255 (`switchTenant`);
`validation.ts`, lines 10-12, 38-47 and 256-273; `database-repository.ts`, lines 863-900
(`findAccountByEmail`, `findAccountCredentialById`).

Each of them reads the status of the account or of the membership in one transaction and
inserts the session in a later one; `completeMfaChallenge` reads no status at all.  The
passwords, the factors, the failures and the provider bindings are not in the tables.
-/

import Flowdular.Auth.Members

namespace Flowdular.Auth

open Lib Workflows

/-- What is drawn for a sign-in, and what its clock shows when a session is issued. -/
structure Draws where
  token : String := "token"
  csrfToken : String := "csrf"
  sessionId : String := "session"
  accountId : String := "account"
  passwordHash : String := "hash"
  issuedAt : ℤ := 0

/-- The text functions of the platform: `normalize('NFKC')`, `toLowerCase()`, and the
digest of a token. -/
class AuthText where
  nfkc : String → String
  lower : String → String
  hashSessionToken : String → String

/-- Text functions that are right for lower-case ASCII texts, for examples. -/
@[reducible] def plainText : AuthText where
  nfkc := id
  lower := id
  hashSessionToken token := "digest of " ++ token

/-- `AuthPolicy`, as far as sessions go. -/
structure AuthPolicy where
  sessionTtlMs : ℤ := 43200000
  sessionIdleMs : ℤ := 3600000

/-- An `if` that throws. -/
def require (condition : Prop) [Decidable condition] (error : String) : Service PUnit :=
  if condition then .pure ⟨⟩ else .fail error

def invalidCredentials : String :=
  authServiceError "INVALID_CREDENTIALS" "Email or password is incorrect." 401

/-! ### What is submitted -/

/-- `/^[^\s@]+@[^\s@]+\.[^\s@]+$/`. -/
def emailPattern (email : String) : Bool :=
  match email.toList.splitOn '@' with
  | [locals, domain] =>
    locals ≠ [] && locals.all (!isWhiteSpace ·) && domain.all (!isWhiteSpace ·) &&
      (domain.drop 1).dropLast.any (· = '.')
  | _ => false

def validateEmail (email : String) : Except String PUnit :=
  if 254 < utf16Length email ∨ emailPattern email = false then
    .error (authServiceError "INVALID_INPUT" "Enter a valid email address." 400)
  else .ok ⟨⟩

structure SignInInput where
  email : String
  password : String
  workspace : Option String := none

section

variable [AuthText]

def normalizeEmail (value : String) : String :=
  AuthText.lower (AuthText.nfkc (String.ofList (trimChars value.toList)))

def validateSignIn (input : SignInInput) : Except String SignInInput := do
  let email := normalizeEmail input.email
  validateEmail email
  if input.password = "" then
    .error (authServiceError "INVALID_INPUT" "Password is required." 400)
  else
    match input.workspace with
    | none => return { email, password := input.password }
    | some raw =>
      let workspace := String.ofList (trimChars raw.toList)
      if utf16Length workspace = 0 ∨ 128 < utf16Length workspace then
        .error (authServiceError "INVALID_INPUT" "Workspace reference is invalid." 400)
      else return { email, password := input.password, workspace := some workspace }

end

/-- `UNUSABLE_PASSWORD_HASH`. -/
def unusablePasswordHash : String :=
  "none$unusable"

/-! ### Sessions and challenges -/

structure AuthPrincipal where
  accountId : String
  tenantId : String
  email : String
  displayName : String
  role : String
  scopes : List String
  tenants : List (String × String)

/-- `IssuedSession`, and `MfaChallenge` where a factor is required. -/
structure IssuedSession where
  token : String
  csrfToken : String
  expiresAt : ℤ
  sessionId : String
  passwordChangeRequired : Bool
  principal : AuthPrincipal
  mfaRequired : Bool := false

/-- `MFA_CHALLENGE_TTL_MS`. -/
def mfaChallengeTtlMs : ℤ :=
  300000

/-- `SESSION_TOUCH_INTERVAL_MS`. -/
def sessionTouchIntervalMs : ℤ :=
  60000

section

variable [AuthText]

def issue (policy : AuthPolicy) (draws : Draws) (account : AccountCredential) :
    Service IssuedSession := do
  let expiresAt := draws.issuedAt + policy.sessionTtlMs
  let _ ← call (.createSession {
    number := 0, id := draws.sessionId, tokenHash := AuthText.hashSessionToken draws.token,
    accountId := account.accountId, tenantId := account.tenantId, csrfToken := draws.csrfToken,
    createdAt := draws.issuedAt, expiresAt, lastSeenAt := draws.issuedAt })
  let tenants ← call (.listTenantAccess account.accountId)
  return {
    token := draws.token, csrfToken := draws.csrfToken, expiresAt, sessionId := draws.sessionId,
    passwordChangeRequired := account.passwordChangeRequired,
    principal := {
      accountId := account.accountId, tenantId := account.tenantId, email := account.email,
      displayName := account.displayName, role := account.role, scopes := account.scopes, tenants } }

def issueMfaChallenge (draws : Draws) (now : ℤ) (account : AccountCredential) :
    Service IssuedSession := do
  let expiresAt := now + mfaChallengeTtlMs
  let _ ← call (.createMfaChallenge {
    tokenHash := AuthText.hashSessionToken draws.token, accountId := account.accountId,
    tenantId := account.tenantId, expiresAt, createdAt := now })
  return {
    token := draws.token, csrfToken := "", expiresAt, sessionId := "",
    passwordChangeRequired := account.passwordChangeRequired,
    principal := {
      accountId := account.accountId, tenantId := account.tenantId, email := account.email,
      displayName := account.displayName, role := account.role, scopes := [], tenants := [] }
    mfaRequired := true }

/-- A session, and the event that tells of it. -/
def issueAudited (policy : AuthPolicy) (draws : Draws) (action : String)
    (metadata : List (String × Json)) (account : AccountCredential) : Service IssuedSession := do
  let issued ← issue policy draws account
  let _ ← audit account.tenantId account.accountId action "session" issued.sessionId metadata
  return issued

/-- A challenge where the account has confirmed a factor, otherwise a session. -/
def issueOrChallenge (policy : AuthPolicy) (draws : Draws) (now : ℤ) (metadata : List (String × Json))
    (account : AccountCredential) : Service IssuedSession := do
  let confirmed ← call (.outside "findMfaTotp" [account.accountId])
  if confirmed then issueMfaChallenge draws now account
  else issueAudited policy draws "auth.sign-in.succeeded" metadata account

end

def findAccountCredentialById (accountId : String) : Service (Option AccountCredential) := do
  let tenantId ← call (.tenantOfAccount accountId)
  match tenantId with
  | none => .pure none
  | some tenantId => call (.findAccountMembership accountId tenantId)

def findAccountByEmail (email : String) : Service (Option AccountCredential) := do
  let identity ← call (.findAccountIdentity email)
  match identity with
  | none => .pure none
  | some identity => findAccountCredentialById identity.accountId

/-- A membership that is active, if the account has it. -/
def activeMembership (accountId tenantId : String) : Service (Option AccountCredential) := do
  let membership ← call (.findAccountMembership accountId tenantId)
  return membership.filter fun m => m.membershipStatus = .active

def signInAccount (input : SignInInput) : Service (Option AccountCredential) :=
  match input.workspace with
  | none => findAccountByEmail input.email
  | some workspace => do
    let tenantId ← call (.lookup "findTenant" [workspace])
    match tenantId with
    | none => .pure none
    | some tenantId =>
      let identity ← call (.findAccountIdentity input.email)
      match identity with
      | none => .pure none
      | some identity => activeMembership identity.accountId tenantId

/-- The address of a request in the metadata of an event. -/
def addressMetadata (address : Option String) : List (String × Json) :=
  address.toList.map fun address => ("address", .str address)

/-- `#recordFailure`; whether the address is locked now is not in the tables. -/
def recordFailure (email : String) (account : Option AccountCredential) (address : Option String) :
    Service PUnit := do
  let locked ← call (.outside "recordSignInFailure" [email])
  match account with
  | none => .pure ⟨⟩
  | some account =>
    audit account.tenantId account.accountId
      (if locked then "auth.sign-in.locked" else "auth.sign-in.failed") "account" account.accountId
      (addressMetadata address)

/-- A failure that is recorded. -/
def refuse (email : String) (account : Option AccountCredential) (address : Option String) :
    Service PUnit := do
  let _ ← recordFailure email account address
  .fail invalidCredentials

section

variable [AuthText]

/-- `signIn` behind the account. -/
def signInAs (policy : AuthPolicy) (input : SignInInput) (address : Option String) (now : ℤ)
    (draws : Draws) (account : AccountCredential) : Service IssuedSession := do
  let _ ← whenever (account.passwordHash = unusablePasswordHash) (refuse input.email account address)
  let valid ← call (.outside "verifyPassword" [input.password, account.passwordHash])
  let _ ← whenever (valid = false ∨ account.status ≠ .active) (refuse input.email account address)
  let _ ← call (.outside "clearSignInFailures" [input.email])
  issueOrChallenge policy draws now (addressMetadata address) account

def signIn (policy : AuthPolicy) (raw : SignInInput) (address : Option String) (now : ℤ)
    (draws : Draws) : Service IssuedSession := do
  let input ← Prog.ofExcept (validateSignIn raw)
  let locked ← call (.outside "findSignInFailure" [input.email])
  let _ ← require (locked = false)
    (authServiceError "ACCOUNT_LOCKED" "Too many failed sign-in attempts. Try again later." 423)
  let account ← signInAccount input
  match account with
  | none => do
    let _ ← recordFailure input.email none address
    .fail invalidCredentials
  | some account => signInAs policy input address now draws account

end

/-! ### The second factor -/

/-- `/^[A-Za-z0-9_-]{43}$/`. -/
def challengePattern (token : String) : Bool :=
  let cs := token.toList
  cs.length = 43 && cs.all fun c =>
    isLowerLetter c || (65 ≤ c.toNat && c.toNat ≤ 90) || isDigit c || c = '_' || c = '-'

/-- `/^(?:[A-F0-9]{12}|[A-F0-9]{20})$/`. -/
def recoveryCodePattern (code : String) : Bool :=
  let cs := code.toList
  (cs.length = 12 || cs.length = 20) && cs.all fun c => (65 ≤ c.toNat && c.toNat ≤ 70) || isDigit c

/-- A code of the application is right. -/
def totpAccepted (accountId : String) : Option String → Service Bool
  | none => .pure false
  | some code => call (.outside "verifyTotp" [accountId, code])

section

variable [AuthText]

/-- A recovery code is right, and spent. -/
def recoveryAccepted (accountId : String) : Option String → Service Bool
  | none => .pure false
  | some code =>
    if recoveryCodePattern code then
      call (.outside "consumeMfaRecoveryCode" [accountId, AuthText.hashSessionToken code])
    else .pure false

/-- The account has confirmed a factor, and the code is right. -/
def factorAccepted (code recoveryCode : Option String) : Option AccountCredential → Service Bool
  | none => .pure false
  | some account => do
    let confirmed ← call (.outside "findMfaTotp" [account.accountId])
    if confirmed then
      let accepted ← totpAccepted account.accountId code
      if accepted then .pure true else recoveryAccepted account.accountId recoveryCode
    else .pure false

def completeMfaChallenge (policy : AuthPolicy) (token : String) (code recoveryCode : Option String)
    (now : ℤ) (draws : Draws) : Service IssuedSession := do
  let invalid := authServiceError "MFA_CHALLENGE_INVALID"
    "The sign-in challenge is invalid or has expired." 401
  let _ ← require (challengePattern token = true) invalid
  let challenge ← call (.consumeMfaChallenge (AuthText.hashSessionToken token) now)
  match challenge with
  | none => .fail invalid
  | some (accountId, tenantId) =>
    let account ← call (.findAccountMembership accountId tenantId)
    let valid ← factorAccepted code recoveryCode account
    match account, valid with
    | some account, true => issueAudited policy draws "auth.mfa.challenge-succeeded" [] account
    | _, _ => .fail (authServiceError "MFA_CODE_INVALID" "The authentication code is invalid." 401)

end

/-! ### Identity providers -/

structure TenantProviderSignIn where
  tenantId : String
  jitEnabled : Bool
  allowedDomains : List String
  jitRole : String

/-- What stands behind the last `@`, or everything. -/
def emailDomain (email : String) : String :=
  String.ofList (email.toList.reverse.takeWhile (· ≠ '@')).reverse

def displayNameFromEmail (email : String) : String :=
  let cs := email.toList
  let locals := if '@' ∈ cs then (cs.reverse.dropWhile (· ≠ '@')).reverse.dropLast else cs.dropLast
  String.ofList ((if 2 ≤ locals.length then locals else cs).take 80)

def resolveLinkedAccount (accountId : String) : Option String → Service (Option AccountCredential)
  | none => findAccountCredentialById accountId
  | some tenantId => activeMembership accountId tenantId

/-- The refusal to provision, told. -/
def jitRefused (tenantId provider : String) (metadata : List (String × Json)) : Service PUnit :=
  audit tenantId ("oidc:" ++ provider) "auth.jit.refused" "sign-in" provider
    (("provider", .str provider) :: metadata)

/-- The member `#provisionExternalMember` makes of a role. -/
def createExternalMember (email : String) (accountId : Option String) (tenantId : String)
    (role : TenantRole) (now : ℤ) (draws : Draws) : Service (Option AccountCredential) :=
  match accountId with
  | some accountId =>
    call (.createMembershipInTenant {
      accountId, tenantId, role := role.key, roleId := some role.id, scopes := role.scopes
      createdAt := now })
  | none =>
    call (.createAccountInTenant
      { id := draws.accountId, email, passwordHash := draws.passwordHash
        displayName := displayNameFromEmail email }
      { accountId := draws.accountId, tenantId, role := role.key, roleId := some role.id
        scopes := role.scopes, createdAt := now })

/-- The role is given, and told. -/
def giveRole (email : String) (accountId : Option String) (provider tenantId : String)
    (role : TenantRole) (now : ℤ) (draws : Draws) : Service (Option AccountCredential) := do
  let member ← createExternalMember email accountId tenantId role now draws
  match member with
  | none => .pure none
  | some member =>
    let _ ← audit tenantId member.accountId "auth.member.provisioned" "account" member.accountId
      [("provider", .str provider), ("role", .str role.key)]
    return some member

/-- How many memberships an account has, if there is one. -/
def membershipsOf : Option String → Service ℕ
  | none => .pure 0
  | some accountId => call (.countMemberships accountId)

def provisionExternalMember (email : String) (accountId : Option String) (provider : String)
    (workspace : TenantProviderSignIn) (now : ℤ) (draws : Draws) :
    Service (Option AccountCredential) :=
  let domain := emailDomain email
  if workspace.jitEnabled = false ∨ domain = "" ∨ domain ∉ workspace.allowedDomains then .pure none
  else do
    let memberships ← membershipsOf accountId
    let _ ← whenever (0 < memberships) do
      let _ ← jitRefused workspace.tenantId provider [("reason", .str "account-has-other-membership")]
      .fail (authServiceError "JIT_ACCOUNT_EXISTS" "The account already belongs to another workspace."
        401)
    let role ← call (.findRoleByKey workspace.tenantId workspace.jitRole)
    match role with
    | none => do
      let _ ← jitRefused workspace.tenantId provider
        [("reason", .str "role-missing"), ("role", .str workspace.jitRole)]
      .pure none
    | some role => giveRole email accountId provider workspace.tenantId role now draws

/-- An account that is not linked answers to no other subject. -/
def checkSubject (linked : Option String) (provider accountId : String) (tenantId : Option String) :
    Service PUnit :=
  whenever (linked = none) do
    let subject ← call (.lookup "findExternalIdentitySubject" ([provider, accountId] ++ tenantId.toList))
    require (subject = none) invalidCredentials

/-- The membership of a known account in a workspace, if there is one. -/
def membershipOf (tenantId : String) : Option AccountIdentity → Service (Option AccountCredential)
  | none => .pure none
  | some identity => call (.findAccountMembership identity.accountId tenantId)

variable [AuthText]

def resolveExternalAccount (email provider : String) (now : ℤ) (draws : Draws) :
    Option TenantProviderSignIn → Service (Option AccountCredential)
  | none => findAccountByEmail (normalizeEmail email)
  | some workspace => do
    let identity ← call (.findAccountIdentity (normalizeEmail email))
    if identity.any fun identity => identity.status ≠ .active then .pure none
    else
      let membership ← membershipOf workspace.tenantId identity
      match membership with
      | some membership =>
        .pure (if membership.membershipStatus = .active then some membership else none)
      | none =>
        provisionExternalMember (normalizeEmail email) (identity.map (·.accountId)) provider workspace now
          draws

/-- The account a subject is linked to, or the one the address finds. -/
def resolveSubject (linked : Option String) (email provider : String)
    (workspace : Option TenantProviderSignIn) (now : ℤ) (draws : Draws) :
    Service (Option AccountCredential) :=
  match linked with
  | some accountId => resolveLinkedAccount accountId (workspace.map (·.tenantId))
  | none => resolveExternalAccount email provider now draws workspace

def signInExternalIdentity (policy : AuthPolicy) (provider subject email : String)
    (workspace : Option TenantProviderSignIn) (now : ℤ) (draws : Draws) : Service IssuedSession := do
  let provider ← Prog.ofExcept (identifier provider "provider")
  let subject ← Prog.ofExcept (identifier subject "subject")
  let tenantId := workspace.map (·.tenantId)
  let linked ← call (.lookup "findExternalIdentity" ([provider, subject] ++ tenantId.toList))
  let account ← resolveSubject linked email provider workspace now draws
  match account.filter fun account => account.status = .active with
  | none => .fail invalidCredentials
  | some account => do
    let _ ← checkSubject linked provider account.accountId tenantId
    let _ ← call (.outside "linkExternalIdentity"
      ([provider, subject, account.accountId] ++ tenantId.toList))
    issueOrChallenge policy draws now [("via", .str "oidc")] account

/-! ### Sessions that are held -/

/-- `resolveSession`, of a cookie. -/
def resolveSession (policy : AuthPolicy) (token : String) (now : ℤ) :
    Service (Option (SessionRow × AccountCredential)) :=
  if token = "" then .pure none
  else call (.findSession (AuthText.hashSessionToken token) now policy.sessionIdleMs
    sessionTouchIntervalMs)

/-- `AUTH_SCOPES.tenantSwitch`. -/
def tenantSwitchScope : String :=
  "auth.tenant.switch"

def switchTenant (policy : AuthPolicy) (token tenantId : String) (now : ℤ) (draws : Draws) :
    Service IssuedSession := do
  let current ← resolveSession policy token now
  match current with
  | none => .fail (authServiceError "UNAUTHENTICATED" "Authentication is required." 401)
  | some (_, principal) => do
    let _ ← require (tenantSwitchScope ∈ principal.scopes)
      (authServiceError "FORBIDDEN" "Tenant switching was not granted." 403)
    let account ← activeMembership principal.accountId tenantId
    match account with
    | none =>
      .fail (authServiceError "TENANT_ACCESS_DENIED" "The requested tenant is not available." 403)
    | some account =>
      let _ ← call (.deleteSession (AuthText.hashSessionToken token))
      issue policy draws account

end Flowdular.Auth
