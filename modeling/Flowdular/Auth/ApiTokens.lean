/-
# API tokens

`src/modules/auth/src/services/auth-service.ts`, lines 294-308, 561-589
(`apiTokenOrigins`), 3259-3371 (`issueApiToken`) and 3430-3482
(`resolveApiTokenIdentity`); `domain/types.ts`, lines 129-139.

A token carries scopes its membership holds when it is issued, and acts with those the
membership still holds when it is presented (`resolveApiTokenIdentity_scopes`).
-/

import Flowdular.Auth.SignIn

namespace Flowdular.Auth

open Lib Workflows

structure CreateApiTokenInput where
  tenantId : String
  accountId : String
  label : String
  scopes : List String
  allowWrites : Option Bool := none
  allowedOrigins : Option (List String) := none
  rateLimitPerMinute : Option ℤ := none
  expiresAt : Option ℤ := none
  createdBy : String

/-- `MAX_API_TOKEN_LIFETIME_MS`. -/
def maxApiTokenLifetimeMs : ℤ :=
  31536000000

/-- `MAX_API_TOKEN_ORIGINS`. -/
def maxApiTokenOrigins : ℕ :=
  8

/-- `MAX_API_TOKEN_RATE_LIMIT`. -/
def maxApiTokenRateLimit : ℤ :=
  100000

/-- `/^[a-z0-9.-]+(:\d{1,5})?$/`. -/
def originHostPattern (cs : List Char) : Bool :=
  let hostChar := fun c => isLowerLetter c || isDigit c || c = '.' || c = '-'
  match cs.splitOn ':' with
  | [host] => host ≠ [] && host.all hostChar
  | [host, port] =>
    host ≠ [] && host.all hostChar && 1 ≤ port.length && port.length ≤ 5 && port.all isDigit
  | _ => false

/-- `API_TOKEN_ORIGIN`, of a text in lower case. -/
def apiTokenOrigin (origin : String) : Bool :=
  let cs := origin.toList
  ("https://".toList.isPrefixOf cs && originHostPattern (cs.drop 8)) ||
    ("http://".toList.isPrefixOf cs && originHostPattern (cs.drop 7))

section

variable [AuthText]

/-- What `apiTokenOrigins` makes of one value. -/
def normalizeOrigin (value : String) : Except String String :=
  let lowered := (AuthText.lower (String.ofList (trimChars value.toList))).toList
  let origin := String.ofList (if lowered.getLast? = some '/' then lowered.dropLast else lowered)
  if apiTokenOrigin origin then .ok origin
  else .error (authServiceError "INVALID_ORIGINS"
    s!"Origin {value} must be a scheme, a host and an optional port." 400)

def apiTokenOrigins (values : List String) : Except String (List String) :=
  if maxApiTokenOrigins < values.length then
    .error (authServiceError "INVALID_ORIGINS"
      s!"A token may name at most {maxApiTokenOrigins} origins." 400)
  else do
    let origins ← values.mapM normalizeOrigin
    return sortStrings origins.dedup

end

/-- The label of a token. -/
def checkTokenLabel (raw : String) : Except String String :=
  let label := String.ofList (trimChars raw.toList)
  if utf16Length label < 2 ∨ 80 < utf16Length label then
    .error (authServiceError "INVALID_INPUT" "Token label must contain between 2 and 80 characters." 400)
  else .ok label

/-- The membership a token is issued to. -/
def checkTokenMembership : Option AccountCredential → Except String AccountCredential
  | none => .error notActiveMember
  | some membership =>
    if membership.status = .active ∧ membership.membershipStatus = .active then .ok membership
    else .error notActiveMember
where
  notActiveMember : String :=
    authServiceError "ACCOUNT_NOT_FOUND" "The account is not an active member of this workspace." 404

/-- The scopes of a token: those asked for that the membership holds. -/
def tokenScopes (held asked : List String) : Except String (List String) :=
  if asked.length = 0 ∨ 64 < asked.length then
    .error (authServiceError "INVALID_SCOPES" "A token must carry between 1 and 64 scopes." 400)
  else
    match asked.find? fun scope => !isIdentifier scope with
    | some scope =>
      .error (authServiceError "INVALID_SCOPES" s!"Scope {scope} is not a valid identifier." 400)
    | none =>
      let scopes := sortStrings (asked.dedup.filter fun scope => scope ∈ held)
      if scopes = [] then
        .error (authServiceError "INVALID_SCOPES"
          "None of the requested scopes are held by this membership." 409)
      else .ok scopes

/-- The expiry of a token. -/
def checkTokenExpiry (createdAt : ℤ) : Option ℤ → Except String PUnit
  | none => .ok ⟨⟩
  | some expiresAt =>
    if 9007199254740991 < expiresAt ∨ expiresAt ≤ createdAt ∨
        maxApiTokenLifetimeMs < expiresAt - createdAt then
      .error (authServiceError "INVALID_EXPIRY" "Token expiry must be a future timestamp within one year."
        400)
    else .ok ⟨⟩

/-- The rate limit of a token. -/
def checkTokenRateLimit (rateLimitPerMinute : ℤ) : Except String ℕ :=
  if rateLimitPerMinute < 0 ∨ maxApiTokenRateLimit < rateLimitPerMinute then
    .error (authServiceError "INVALID_RATE_LIMIT"
      s!"rateLimitPerMinute must be an integer between 0 and {maxApiTokenRateLimit}." 400)
  else .ok rateLimitPerMinute.toNat

section

variable [AuthText]

/-- The row of a token, behind the membership that was read. -/
def tokenRow (raw : CreateApiTokenInput) (tenantId accountId createdBy label : String) (draws : Draws)
    (membership : AccountCredential) : Except String ApiTokenRow := do
  let scopes ← tokenScopes membership.scopes raw.scopes
  checkTokenExpiry draws.issuedAt raw.expiresAt
  let allowedOrigins ← apiTokenOrigins (raw.allowedOrigins.getD [])
  let rateLimitPerMinute ← checkTokenRateLimit (raw.rateLimitPerMinute.getD 0)
  return {
    number := 0, id := draws.sessionId, tenantId, accountId, label
    tokenHash := AuthText.hashSessionToken ("clat_" ++ draws.token), scopes
    allowWrites := raw.allowWrites = some true, allowedOrigins, rateLimitPerMinute, createdBy
    createdAt := draws.issuedAt, expiresAt := raw.expiresAt }

def issueApiToken (raw : CreateApiTokenInput) (draws : Draws) : Service (ApiTokenRow × String) := do
  let tenantId ← Prog.ofExcept (identifier raw.tenantId "tenantId")
  let accountId ← Prog.ofExcept (identifier raw.accountId "accountId")
  let createdBy ← Prog.ofExcept (identifier raw.createdBy "createdBy")
  let label ← Prog.ofExcept (checkTokenLabel raw.label)
  let found ← call (.findAccountMembership accountId tenantId)
  let membership ← Prog.ofExcept (checkTokenMembership found)
  let row ← Prog.ofExcept (tokenRow raw tenantId accountId createdBy label draws membership)
  let _ ← call (.createApiToken row)
  let _ ← audit tenantId createdBy "auth.token.issued" "api-token" row.id
    [("label", .str label), ("scopes", .arr (row.scopes.map .str)), ("allowWrites", .bool row.allowWrites),
      ("allowedOrigins", .arr (row.allowedOrigins.map .str)),
      ("rateLimitPerMinute", .num (.ofNat row.rateLimitPerMinute))]
  return (row, "clat_" ++ draws.token)

end

/-! ### Presenting a token -/

/-- What a token acts with: its row, and the scopes its membership still holds. -/
structure ApiTokenIdentity where
  record : ApiTokenRow
  membership : AccountCredential
  scopes : List String

/-- `resolveApiTokenIdentity`, of a digest, where nobody comes in between its reads. -/
def Tables.resolveApiTokenIdentity (s : Tables) (tokenHash : String) (now : ℤ) :
    Option ApiTokenIdentity := do
  let record ← s.findApiTokenByHash tokenHash
  if record.expiresAt.any (· ≤ now) then none
  else
    let membership ← s.findAccountMembership record.accountId record.tenantId
    let scopes := record.scopes.filter fun scope => scope ∈ membership.scopes
    if membership.status ≠ .active ∨ membership.membershipStatus ≠ .active ∨ scopes = [] then none
    else return { record, membership, scopes }

/-- A token that is resolved has a row that is not revoked, of an active membership of an
active account, and scopes that both hold. -/
theorem Tables.resolveApiTokenIdentity_scopes {s : Tables} {tokenHash : String} {now : ℤ}
    {identity : ApiTokenIdentity} (h : s.resolveApiTokenIdentity tokenHash now = some identity) :
    identity.record ∈ s.apiTokens ∧ identity.record.revokedAt = none ∧
      s.findAccountMembership identity.record.accountId identity.record.tenantId =
        some identity.membership ∧
      identity.membership.status = .active ∧ identity.membership.membershipStatus = .active ∧
      ∀ scope ∈ identity.scopes, scope ∈ identity.record.scopes ∧ scope ∈ identity.membership.scopes := by
  rw [resolveApiTokenIdentity] at h
  obtain ⟨record, hr, h⟩ := Option.bind_eq_some_iff.1 h
  split at h
  · cases h
  obtain ⟨membership, hm, h⟩ := Option.bind_eq_some_iff.1 h
  dsimp only at h
  split at h
  · cases h
  · next ha =>
    have hi := Option.some.inj h
    subst hi
    push Not at ha
    have hf := List.find?_some hr
    simp only [Bool.and_eq_true, decide_eq_true_eq] at hf
    refine ⟨List.mem_of_find?_eq_some hr, hf.2, hm, ha.1, ha.2.1, ?_⟩
    intro scope hs
    have hb := List.mem_filter.1 hs
    exact ⟨hb.1, of_decide_eq_true hb.2⟩

end Flowdular.Auth
