/-
# Run grants

`src/modules/agents/src/services/run-grant.ts`, lines 19-275 (`AgentRunGrantAuthority`).

A grant is a token of three parts: a version, the claims as JSON in base64url, and the HMAC of what
stands before it.  Issuing bounds each claim by its length in UTF-16 units and the lifetime by the
lease; verifying bounds the token by its length, and reads each claim again.

What the code takes from its host are digests and the readers of `Buffer` and `JSON.parse`
(`GrantHost`); what it relies on of the readers is that they read what was written
(`GrantHost.Lawful`).
-/

import Flowdular.Lib.Bytes
import Flowdular.Metering.Usage
import Flowdular.Workflows.Audit

namespace Flowdular.Agents

open Lib (Bytes)
open Lib.Bytes (utf8)
open Workflows

/-! ### Base64url -/

/-- A character of the alphabet. -/
def base64urlChar (n : ℕ) : Char :=
  if n < 26 then Char.ofNat (65 + n)
  else if n < 52 then Char.ofNat (71 + n)
  else if n < 62 then Char.ofNat (n - 4)
  else if n = 62 then '-'
  else '_'

/-- `toString('base64url')`, on the characters: no padding. -/
def base64urlChars : Bytes → List Char
  | [] => []
  | [a] => [base64urlChar (a.toNat / 4), base64urlChar (a.toNat % 4 * 16)]
  | [a, b] =>
    [base64urlChar (a.toNat / 4), base64urlChar (a.toNat % 4 * 16 + b.toNat / 16),
      base64urlChar (b.toNat % 16 * 4)]
  | a :: b :: c :: rest =>
    base64urlChar (a.toNat / 4) :: base64urlChar (a.toNat % 4 * 16 + b.toNat / 16) ::
      base64urlChar (b.toNat % 16 * 4 + c.toNat / 64) :: base64urlChar (c.toNat % 64) ::
      base64urlChars rest

/-- `toString('base64url')`. -/
def base64url (bytes : Bytes) : String :=
  String.ofList (base64urlChars bytes)

/-! ### The host -/

/-- A digest, or a key of the authority. -/
abbrev Digest :=
  Vector UInt8 32

/-- What a grant takes from its host: SHA-256 and HMAC-SHA-256 of a text in UTF-8, and the readers
`Buffer.from(…, 'base64url')`, `toString('utf8')` and `JSON.parse`. -/
class GrantHost where
  sha256 : String → Digest
  hmac : Digest → String → Digest
  fromBase64url : String → Bytes
  toText : Bytes → String
  parse : String → Option Json

/-! ### Claims -/

structure AgentRunGrantError where
  code : String
  message : String
deriving DecidableEq

/-- `AgentRunGrantClaims`, less what is the same in all. -/
structure AgentRunGrantClaims where
  grantId : String
  tenantId : String
  runId : String
  providerId : String
  modelId : String
  workerId : String
  attempt : ℤ
  permissionDigest : String
  toolGrantDigest : String
  issuedAt : ℤ
  expiresAt : ℤ
deriving DecidableEq

/-- `GRANT_ISSUER`. -/
def grantIssuer : String :=
  "flowdular-control-plane"

/-- `GRANT_AUDIENCE`. -/
def grantAudience : String :=
  "agent-provider-broker"

/-- The entries of the claims. -/
def AgentRunGrantClaims.entries (claims : AgentRunGrantClaims) : List (String × Json) :=
  [("version", .num 1), ("issuer", .str grantIssuer), ("audience", .str grantAudience),
    ("grantId", .str claims.grantId), ("tenantId", .str claims.tenantId),
    ("runId", .str claims.runId), ("providerId", .str claims.providerId),
    ("modelId", .str claims.modelId), ("workerId", .str claims.workerId),
    ("attempt", .num (.ofInt claims.attempt)),
    ("permissionDigest", .str claims.permissionDigest),
    ("toolGrantDigest", .str claims.toolGrantDigest),
    ("issuedAt", .num (.ofInt claims.issuedAt)), ("expiresAt", .num (.ofInt claims.expiresAt))]

/-- The refusal of a claim. -/
def claimInvalid (field : String) : AgentRunGrantError :=
  ⟨"RUN_GRANT_INVALID", "Run grant " ++ field ++ " is invalid."⟩

def stringClaim (value : Option Json) (field : String) (maximum : ℕ := 256) :
    Except AgentRunGrantError String :=
  match value with
  | some (.str text) =>
    if 1 ≤ utf16Length text ∧ utf16Length text ≤ maximum ∧ Char.ofNat 0 ∉ text.toList then .ok text
    else .error (claimInvalid field)
  | _ => .error (claimInvalid field)

def numberClaim (value : Option Json) (field : String) : Except AgentRunGrantError ℤ :=
  match value with
  | some (.num number) =>
    if number.isSafeInteger ∧ 0 ≤ number.mantissa * 10 ^ number.exponent.toNat then
      .ok (number.mantissa * 10 ^ number.exponent.toNat)
    else .error (claimInvalid field)
  | _ => .error (claimInvalid field)

/-! ### Issuing -/

/-- `randomUUID()`. -/
structure Uuid where
  text : String
  length : text.toList.length = 36
  plain : ∀ c ∈ text.toList, c = '-' ∨ c ∈ "0123456789abcdef".toList

structure IssueAgentRunGrantInput where
  tenantId : String
  runId : String
  providerId : String
  modelId : String
  workerId : String
  attempt : ℤ
  permissions : List String := []
  toolGrants : List String := []
  leaseExpiresAt : ℤ

structure IssuedAgentRunGrant where
  token : String
  claims : AgentRunGrantClaims

/-- `AgentRunGrantAuthority`: a key of 32 bytes and a lifetime within its bounds. -/
structure AgentRunGrantAuthority where
  key : Digest
  ttlMs : ℤ := 30000
  bounded : 1000 ≤ ttlMs ∧ ttlMs ≤ 300000 := by decide

variable [GrantHost]

/-- `digest`. -/
def grantDigest (values : List String) : String :=
  base64url
    (GrantHost.sha256 (Json.stringify (.arr ((sortStrings values.dedup).map .str)))).toList

/-- The middle part of a token. -/
def grantPayload (claims : AgentRunGrantClaims) : String :=
  base64url (utf8 (Json.stringify (.obj claims.entries)))

namespace AgentRunGrantAuthority

variable (authority : AgentRunGrantAuthority)

/-- The claims of a grant. -/
def claimsOf (input : IssueAgentRunGrantInput) (grantId : Uuid) (issuedAt expiresAt : ℤ) :
    Except AgentRunGrantError AgentRunGrantClaims := do
  let tenantId ← stringClaim (some (.str input.tenantId)) "tenantId"
  let runId ← stringClaim (some (.str input.runId)) "runId"
  let providerId ← stringClaim (some (.str input.providerId)) "providerId"
  let modelId ← stringClaim (some (.str input.modelId)) "modelId"
  let workerId ← stringClaim (some (.str input.workerId)) "workerId"
  let attempt ← numberClaim (some (.num (.ofInt input.attempt))) "attempt"
  return {
    grantId := grantId.text, tenantId, runId, providerId, modelId, workerId, attempt
    permissionDigest := grantDigest input.permissions
    toolGrantDigest := grantDigest input.toolGrants
    issuedAt, expiresAt }

/-- The token of claims. -/
def tokenOf (claims : AgentRunGrantClaims) : String :=
  "v1." ++ grantPayload claims ++ "." ++
    base64url (GrantHost.hmac authority.key ("v1." ++ grantPayload claims)).toList

/-- When a grant expires. -/
def expiryOf (input : IssueAgentRunGrantInput) (issuedAt : ℤ) : ℤ :=
  min (issuedAt + authority.ttlMs) input.leaseExpiresAt

/-- `issue`, with the identifier it draws and the time it reads. -/
def issue (input : IssueAgentRunGrantInput) (grantId : Uuid) (issuedAt : ℤ) :
    Except AgentRunGrantError IssuedAgentRunGrant :=
  let expiresAt := authority.expiryOf input issuedAt
  if expiresAt - issuedAt < 500 then
    .error ⟨"RUN_GRANT_LEASE_TOO_SHORT", "The worker lease is too short to issue a run grant."⟩
  else do
    let claims ← claimsOf input grantId issuedAt expiresAt
    return ⟨authority.tokenOf claims, claims⟩

/-! ### Verifying -/

/-- The claims an object names, in the order they are read. -/
def claimsIn (fields : List (String × Json)) : Except AgentRunGrantError AgentRunGrantClaims := do
  let grantId ← stringClaim (fields.lookup "grantId") "grantId"
  let tenantId ← stringClaim (fields.lookup "tenantId") "tenantId"
  let runId ← stringClaim (fields.lookup "runId") "runId"
  let providerId ← stringClaim (fields.lookup "providerId") "providerId"
  let modelId ← stringClaim (fields.lookup "modelId") "modelId"
  let workerId ← stringClaim (fields.lookup "workerId") "workerId"
  let attempt ← numberClaim (fields.lookup "attempt") "attempt"
  let permissionDigest ← stringClaim (fields.lookup "permissionDigest") "permissionDigest" 64
  let toolGrantDigest ← stringClaim (fields.lookup "toolGrantDigest") "toolGrantDigest" 64
  let issuedAt ← numberClaim (fields.lookup "issuedAt") "issuedAt"
  let expiresAt ← numberClaim (fields.lookup "expiresAt") "expiresAt"
  return {
    grantId, tenantId, runId, providerId, modelId, workerId, attempt, permissionDigest,
    toolGrantDigest, issuedAt, expiresAt }

/-- The lifetime of claims is checked. -/
def checkLifetime (claims : AgentRunGrantClaims) (now : ℤ) :
    Except AgentRunGrantError AgentRunGrantClaims :=
  if now + 5000 < claims.issuedAt ∨ claims.expiresAt ≤ now ∨
      authority.ttlMs < claims.expiresAt - claims.issuedAt then
    .error ⟨"RUN_GRANT_EXPIRED", "Run grant is expired or outside its allowed lifetime."⟩
  else .ok claims

/-- What is made of the value of a payload. -/
def readPayload (raw : Option Json) (now : ℤ) : Except AgentRunGrantError AgentRunGrantClaims :=
  match raw with
  | some (.obj fields) =>
    if fields.lookup "version" ≠ some (.num 1) ∨ fields.lookup "issuer" ≠ some (.str grantIssuer) ∨
        fields.lookup "audience" ≠ some (.str grantAudience) then
      .error ⟨"RUN_GRANT_BOUNDARY_INVALID", "Run grant issuer or audience is invalid."⟩
    else do
      let claims ← claimsIn fields
      authority.checkLifetime claims now
  | _ => .error ⟨"RUN_GRANT_INVALID", "Run grant payload is invalid."⟩

/-- The signature is that of what stands before it. -/
def signs (payload signature : String) : Bool :=
  GrantHost.fromBase64url signature = (GrantHost.hmac authority.key ("v1." ++ payload)).toList

/-- The refusal of a token. -/
def grantInvalid : AgentRunGrantError :=
  ⟨"RUN_GRANT_INVALID", "Run grant is invalid."⟩

/-- The payload and the signature of a token. -/
def partsOf (token : String) : Option (String × String) :=
  match token.toList.splitOn '.' with
  | [version, payload, signature] =>
    if version ≠ ['v', '1'] ∨ payload = [] ∨ signature = [] then none
    else some (String.ofList payload, String.ofList signature)
  | _ => none

/-- `verify`, at the time it reads. -/
def verify (token : String) (now : ℤ) : Except AgentRunGrantError AgentRunGrantClaims :=
  if utf16Length token < 64 ∨ 8192 < utf16Length token then .error grantInvalid
  else
    match partsOf token with
    | none => .error grantInvalid
    | some (payload, signature) =>
      if authority.signs payload signature = false then
        .error ⟨"RUN_GRANT_SIGNATURE_INVALID", "Run grant signature is invalid."⟩
      else
        authority.readPayload
          (GrantHost.parse (GrantHost.toText (GrantHost.fromBase64url payload))) now

end AgentRunGrantAuthority

/-! ### What is relied on -/

/-- The readers read what was written. -/
structure GrantHost.Lawful : Prop where
  fromBase64url : ∀ bytes, GrantHost.fromBase64url (base64url bytes) = bytes
  toText : ∀ text, GrantHost.toText (utf8 text) = text
  parse : ∀ claims : AgentRunGrantClaims,
    GrantHost.parse (Json.stringify (.obj claims.entries)) = some (.obj claims.entries)

/-- **The MAC is unforgeable:** who presents a token with the MAC of its payload has the payload from a
grant that was issued. -/
def Unforged (authority : AgentRunGrantAuthority) (issued : List IssuedAgentRunGrant) (token : String) :
    Bool :=
  match AgentRunGrantAuthority.partsOf token with
  | none => true
  | some (payload, signature) =>
    !authority.signs payload signature || issued.any fun grant => grantPayload grant.claims = payload

end Flowdular.Agents
