/-
# The second factor

`src/modules/auth/src/services/auth-service.ts`, lines 2635-2691 (`enrollTotp`), 2718-2732
(`resetMemberMfa`) and 2734-2829 (`confirmTotp`, `completeMfaChallenge`);
`database-repository.ts`, lines 1931-2085 (`upsertMfaTotp` … `consumeMfaChallenge`);
`totp.ts`.

An enrolment looks for a confirmed factor, stores its secret and stores its recovery codes in
transactions of their own, and a confirmation confirms whatever secret is stored by then.
Where a secret is stored beside no confirmed factor and no recovery codes, a confirmation
finds the secret it has read, and recovery codes find their own, a factor is confirmed by its
own secret and lost by a reset only (`second_factor_kept`).
-/

import Flowdular.Auth.RoleScopes

namespace Flowdular.Auth

open Lib Workflows
open Discipline (All all_bind)
open Prog (History Recorded recorder recorder_signed_enter recorder_signed_next Along along_all_bind along_of_all along_need_bind along_ofExcept_bind Within
  within_pure within_fail within_bind within_need within_ofExcept)

/-! ### The tables -/

/-- `SealedMfaSecret`, or what is stored of it: the oldest rows have no key. -/
structure SealedMfaSecret where
  ciphertext : String
  keyId : Option String
deriving DecidableEq

/-- A row of `auth_mfa_totp`. -/
structure MfaTotpRow where
  accountId : String
  secret : SealedMfaSecret
  confirmedAt : Option ℤ := none
  createdAt : ℤ

/-- A row of `auth_mfa_recovery_codes`. -/
structure RecoveryCodeRow where
  codeHash : String
  accountId : String
  usedAt : Option ℤ := none
  createdAt : ℤ

/-- The tables, with those of the second factor. -/
structure FactorTables where
  tables : Tables
  totp : List MfaTotpRow := []
  recoveryCodes : List RecoveryCodeRow := []

namespace FactorTables

variable (s : FactorTables)

def findMfaTotp (accountId : String) : Option MfaTotpRow :=
  s.totp.find? fun f => f.accountId = accountId

def upsertMfaTotp (accountId : String) (secret : SealedMfaSecret) (createdAt : ℤ) :
    Except String FactorTables :=
  if (s.tables.account accountId).isNone then
    .error "error: insert on table \"auth_mfa_totp\" violates foreign key constraint"
  else if (s.findMfaTotp accountId).isSome then
    .ok { s with
      totp := Table.update (fun f => f.accountId = accountId)
        (fun f => { f with secret, confirmedAt := none, createdAt }) s.totp }
  else .ok { s with totp := s.totp ++ [{ accountId, secret, createdAt }] }

def confirmMfaTotp (accountId : String) (confirmedAt : ℤ) : FactorTables :=
  { s with
    totp := Table.update (fun f => f.accountId = accountId)
      (fun f => { f with confirmedAt := some confirmedAt }) s.totp }

def deleteMfaEnrolment (accountId : String) : FactorTables :=
  { s with
    totp := s.totp.filter fun f => f.accountId ≠ accountId
    recoveryCodes := s.recoveryCodes.filter fun x => x.accountId ≠ accountId }

/-- Insert recovery codes, one after the other. -/
def insertCodes (accountId : String) (createdAt : ℤ) :
    List String → List RecoveryCodeRow → Except String (List RecoveryCodeRow)
  | [], rows => .ok rows
  | codeHash :: rest, rows =>
    if rows.any fun x => x.codeHash = codeHash then
      .error "error: duplicate key value violates unique constraint \"auth_mfa_recovery_codes_pkey\""
    else insertCodes accountId createdAt rest (rows ++ [{ codeHash, accountId, createdAt }])

def replaceMfaRecoveryCodes (accountId : String) (codeHashes : List String) (createdAt : ℤ) :
    Except String FactorTables :=
  if codeHashes ≠ [] ∧ (s.tables.account accountId).isNone then
    .error "error: insert on table \"auth_mfa_recovery_codes\" violates foreign key constraint"
  else
    (insertCodes accountId createdAt codeHashes
      (s.recoveryCodes.filter fun x => x.accountId ≠ accountId)).map fun recoveryCodes =>
        { s with recoveryCodes }

/-- The rows `consumeMfaRecoveryCode` updates. -/
def unusedCode (accountId codeHash : String) (x : RecoveryCodeRow) : Bool :=
  x.accountId = accountId && x.codeHash = codeHash && x.usedAt = none

/-- `consumeMfaRecoveryCode`, by the clock of the database. -/
def consumeMfaRecoveryCode (accountId codeHash : String) (now : ℤ) : Bool × FactorTables :=
  (s.recoveryCodes.countP (unusedCode accountId codeHash) = 1, { s with
      recoveryCodes := Table.update (unusedCode accountId codeHash)
        (fun x => { x with usedAt := some now }) s.recoveryCodes })

end FactorTables

/-! ### Calls -/

/-- A call on the tables, those of the second factor included. -/
inductive FactorCall
  | auth (c : Call)
  | findMfaTotp (accountId : String)
  | upsertMfaTotp (accountId : String) (secret : SealedMfaSecret) (createdAt : ℤ)
  | confirmMfaTotp (accountId : String) (confirmedAt : ℤ)
  | deleteMfaEnrolment (accountId : String)
  | replaceMfaRecoveryCodes (accountId : String) (codeHashes : List String) (createdAt : ℤ)
  | consumeMfaRecoveryCode (accountId codeHash : String)

/-- What a call answers. -/
@[reducible] def FactorCall.Answer : FactorCall → Type
  | .auth c => c.Answer
  | .findMfaTotp _ => Option MfaTotpRow
  | .consumeMfaRecoveryCode .. => Bool
  | _ => PUnit

/-- How a call ends, and the clock of the database. -/
structure FactorChoice extends Choice where
  clock : ℤ := 0

/-- What a write leaves. -/
def FactorTables.written (s : FactorTables) : Except String FactorTables → Except String PUnit × FactorTables
  | .ok s' => (.ok ⟨⟩, s')
  | .error e => (.error e, s)

/-- What a call does where it does not fail. -/
def FactorCall.perform (c : FactorCall) (choice : FactorChoice) (s : FactorTables) :
    Except String c.Answer × FactorTables :=
  match c with
  | .auth c =>
    ((c.perform choice.toChoice s.tables).1,
      { s with tables := (c.perform choice.toChoice s.tables).2 })
  | .findMfaTotp accountId => (.ok (s.findMfaTotp accountId), s)
  | .upsertMfaTotp accountId secret createdAt =>
    s.written (s.upsertMfaTotp accountId secret createdAt)
  | .confirmMfaTotp accountId confirmedAt => (.ok ⟨⟩, s.confirmMfaTotp accountId confirmedAt)
  | .deleteMfaEnrolment accountId => (.ok ⟨⟩, s.deleteMfaEnrolment accountId)
  | .replaceMfaRecoveryCodes accountId codeHashes createdAt =>
    s.written (s.replaceMfaRecoveryCodes accountId codeHashes createdAt)
  | .consumeMfaRecoveryCode accountId codeHash =>
    (.ok (s.consumeMfaRecoveryCode accountId codeHash choice.clock).1,
      (s.consumeMfaRecoveryCode accountId codeHash choice.clock).2)

/-- A call, answered. -/
def FactorCall.serve (c : FactorCall) (s : FactorTables) (choice : FactorChoice) :
    Prog.Reply FactorCall.Answer c × FactorTables :=
  match choice.fails with
  | none => c.perform choice s
  | some (kept, error) => (.error error, if kept then (c.perform choice s).2 else s)

/-- A program of calls. -/
abbrev FactorService (α : Type) :=
  Prog FactorCall (Prog.Reply FactorCall.Answer) α

/-- A call of a service. -/
def factorCall (c : FactorCall) : FactorService c.Answer :=
  Prog.need c

/-- A program that leaves the second factor out. -/
def plain {α : Type} : Service α → FactorService α
  | .pure a => .pure a
  | .fail e => .fail e
  | .call c next => .call (.auth c) fun r => plain (next r)

/-! ### The operations -/

/-- The vault of the secrets, which draws a nonce for each, and the codes of a secret. -/
class MfaVault where
  sealSecret : String → String → Except String SealedMfaSecret
  openSecret : SealedMfaSecret → Except String String
  verifyTotp : String → String → ℤ → Except String Bool

/-- A code verifies against a stored secret. -/
def verifies [MfaVault] (secret : SealedMfaSecret) (code : String) (now : ℤ) : Except String Bool := do
  let opened ← MfaVault.openSecret secret
  MfaVault.verifyTotp opened code now

/-- What an enrolment draws. -/
structure EnrolmentDraws where
  secret : String
  nonce : String
  recoveryCodes : List String
  now : ℤ

/-- `MFA_CODE_INVALID`. -/
def mfaCodeInvalid (status : ℕ) : String :=
  authServiceError "MFA_CODE_INVALID" "The authentication code is invalid." status

/-- The factor of an account, if there is one. -/
def factorOf : Option AccountCredential → FactorService (Option MfaTotpRow)
  | none => .pure none
  | some account => factorCall (.findMfaTotp account.accountId)

section

variable [AuthText] [MfaVault]

/-- The digests of the recovery codes that are drawn. -/
def EnrolmentDraws.codeHashes (draws : EnrolmentDraws) : List String :=
  draws.recoveryCodes.map AuthText.hashSessionToken

/-- `enrollTotp` behind its checks. -/
def storeFactor (account : AccountCredential) (draws : EnrolmentDraws) : FactorService (String × List String) := do
  let secret ← Prog.ofExcept (MfaVault.sealSecret draws.nonce draws.secret)
  let _ ← factorCall (.upsertMfaTotp account.accountId secret draws.now)
  let _ ← factorCall (.replaceMfaRecoveryCodes account.accountId draws.codeHashes draws.now)
  let _ ← plain (audit account.tenantId account.accountId "auth.mfa.enrolled" "account"
    account.accountId [])
  return (draws.secret, draws.recoveryCodes)

/-- `enrollTotp`; the address of the authenticator is left out. -/
def enrollTotp (accountId : String) (draws : EnrolmentDraws) : FactorService (String × List String) := do
  let accountId ← Prog.ofExcept (identifier accountId "accountId")
  let account ← plain (findAccountCredentialById accountId)
  match account with
  | none => .fail (authServiceError "ACCOUNT_NOT_FOUND" "The account is not available." 404)
  | some account =>
    let factor ← factorCall (.findMfaTotp account.accountId)
    if factor.any fun f => f.confirmedAt ≠ none then
      .fail (authServiceError "MFA_ALREADY_CONFIGURED"
        "Multi-factor authentication is already enabled for this account." 409)
    else storeFactor account draws

def resetMemberMfa (actor : AuthActor) (accountId : String) : FactorService PUnit := do
  let target ← plain (targetMember actor accountId false)
  let _ ← factorCall (.deleteMfaEnrolment target.accountId)
  plain (audit actor.tenantId actor.accountId "auth.mfa.reset" "account" target.accountId
    [("email", .str target.email)])

/-- `confirmTotp` behind its reads; the clock is read once more. -/
def confirmFactor (code : String) (now later : ℤ) : Option AccountCredential → Option MfaTotpRow → FactorService PUnit
  | some account, some record => do
    let valid ← Prog.ofExcept (verifies record.secret code now)
    if valid then
      let _ ← factorCall (.confirmMfaTotp account.accountId later)
      plain (audit account.tenantId account.accountId "auth.mfa.confirmed" "account"
        account.accountId [])
    else .fail (mfaCodeInvalid 400)
  | _, _ => .fail (mfaCodeInvalid 400)

def confirmTotp (accountId code : String) (now later : ℤ) : FactorService PUnit := do
  let accountId ← Prog.ofExcept (identifier accountId "accountId")
  let account ← plain (findAccountCredentialById accountId)
  let record ← factorOf account
  confirmFactor code now later account record

/-- A code of the application is right. -/
def totpValid (record : MfaTotpRow) (now : ℤ) : Option String → Except String Bool
  | none => .ok false
  | some code => verifies record.secret code now

/-- A recovery code is right, and spent. -/
def recoveryValid (accountId : String) : Option String → FactorService Bool
  | none => .pure false
  | some code =>
    if recoveryCodePattern code then
      factorCall (.consumeMfaRecoveryCode accountId (AuthText.hashSessionToken code))
    else .pure false

/-- The account has confirmed a factor, and one of the codes is right. -/
def factorValid (code recoveryCode : Option String) (now : ℤ) :
    Option AccountCredential → Option MfaTotpRow → FactorService Bool
  | some account, some record =>
    if record.confirmedAt = none then .pure false
    else do
      let valid ← Prog.ofExcept (totpValid record now code)
      if valid then .pure true else recoveryValid account.accountId recoveryCode
  | _, _ => .pure false

/-- `completeMfaChallenge` behind the challenge. -/
def completeChallenge (policy : AuthPolicy) (code recoveryCode : Option String) (later : ℤ)
    (draws : Draws) : Option (String × String) → FactorService IssuedSession
  | none => .fail (authServiceError "MFA_CHALLENGE_INVALID"
      "The sign-in challenge is invalid or has expired." 401)
  | some (accountId, tenantId) => do
    let account ← plain (call (.findAccountMembership accountId tenantId))
    let record ← factorOf account
    let valid ← factorValid code recoveryCode later account record
    match account, valid with
    | some account, true =>
      plain (issueAudited policy draws "auth.mfa.challenge-succeeded" [] account)
    | _, _ => .fail (mfaCodeInvalid 401)

/-- `completeMfaChallenge`, with the reads of the factor in it; the clock is read once more. -/
def completeFactorChallenge (policy : AuthPolicy) (token : String) (code recoveryCode : Option String)
    (now later : ℤ) (draws : Draws) : FactorService IssuedSession := do
  let _ ← plain (require (challengePattern token = true) (authServiceError "MFA_CHALLENGE_INVALID"
    "The sign-in challenge is invalid or has expired." 401))
  let challenge ← plain (call (.consumeMfaChallenge (AuthText.hashSessionToken token) now))
  completeChallenge policy code recoveryCode later draws challenge

/-! ### The machine -/

/-- A call of one of the four operations. -/
inductive FactorRequest
  | enrollTotp (accountId : String) (draws : EnrolmentDraws)
  | confirmTotp (accountId code : String) (now later : ℤ)
  | completeMfaChallenge (policy : AuthPolicy) (token : String) (code recoveryCode : Option String)
      (now later : ℤ) (draws : Draws)
  | resetMemberMfa (actor : AuthActor) (accountId : String)

/-- The program that answers a request. -/
def FactorRequest.program : FactorRequest → FactorService PUnit
  | .enrollTotp accountId draws => do
    let _ ← Auth.enrollTotp accountId draws
    return ⟨⟩
  | .confirmTotp accountId code now later => Auth.confirmTotp accountId code now later
  | .completeMfaChallenge policy token code recoveryCode now later draws => do
    let _ ← completeFactorChallenge policy token code recoveryCode now later draws
    return ⟨⟩
  | .resetMemberMfa actor accountId => Auth.resetMemberMfa actor accountId

/-- A request and its process. -/
abbrev FactorProcess :=
  FactorRequest × Recorded FactorCall (Prog.Reply FactorCall.Answer) PUnit

/-- The operations on the second factors. -/
def factorCalls : Machine FactorTables FactorProcess FactorRequest FactorChoice :=
  (recorder FactorRequest.program FactorCall.serve).signed

/-! ### The condition -/

/-- The secret an enrolment stores. -/
def FactorRequest.secret : FactorRequest → Option SealedMfaSecret
  | .enrollTotp _ draws => (MfaVault.sealSecret draws.nonce draws.secret).toOption
  | _ => none

/-- The digests of the recovery codes an enrolment stores. -/
def FactorRequest.codeHashes : FactorRequest → List String
  | .enrollTotp _ draws => draws.codeHashes
  | _ => []

/-- What a process has read of the factor of an account is what is stored. -/
def readCurrent (accountId : String) (secret : SealedMfaSecret)
    (entry : Σ c, Prog.Reply FactorCall.Answer c) : Bool :=
  match entry with
  | ⟨.findMfaTotp a, .ok (some record)⟩ => a ≠ accountId || record.secret = secret
  | _ => true

/-- The condition on a move: a secret is stored beside no confirmed factor and no recovery
codes, what is confirmed is what was read, and recovery codes are stored beside their own
secret. -/
def factorCurrent (s : FactorTables) (p : FactorProcess) : Bool :=
  match p.2.rest with
  | .call (.upsertMfaTotp accountId _ _) _ =>
    (s.findMfaTotp accountId).all (fun f => f.confirmedAt = none) &&
      s.recoveryCodes.all fun x => x.accountId ≠ accountId
  | .call (.confirmMfaTotp accountId _) _ =>
    (s.findMfaTotp accountId).all fun f => p.2.history.all (readCurrent accountId f.secret)
  | .call (.replaceMfaRecoveryCodes accountId _ _) _ =>
    (s.findMfaTotp accountId).any fun f => p.1.secret = some f.secret
  | _ => true

/-- `factorCurrent`, as a condition of the machine. -/
def FactorCurrent : Machine.Condition FactorTables FactorProcess :=
  fun s _ p => factorCurrent s p = true

end

/-! ### What is said of a run -/

/-- A factor is confirmed, with its secret. -/
def FactorTables.confirmed (s : FactorTables) (accountId : String) (secret : SealedMfaSecret) : Prop :=
  ∃ f, s.findMfaTotp accountId = some f ∧ f.secret = secret ∧ f.confirmedAt ≠ none

/-- A call that accepted a sign-in challenge. -/
def acceptsChallenge (tokenHash : String) (entry : Σ c, Prog.Reply FactorCall.Answer c) : Bool :=
  match entry with
  | ⟨.auth (.consumeMfaChallenge hash _), .ok (some _)⟩ => hash = tokenHash
  | _ => false

/-- A call that accepted a recovery code. -/
def acceptsRecovery (codeHash : String) (entry : Σ c, Prog.Reply FactorCall.Answer c) : Bool :=
  match entry with
  | ⟨.consumeMfaRecoveryCode _ hash, .ok true⟩ => hash = codeHash
  | _ => false

section

variable [AuthText] [MfaVault]

/-- The calls that were made. -/
def entriesOf (ps : List FactorProcess) : List (Σ c, Prog.Reply FactorCall.Answer c) :=
  ps.flatMap (·.2.history)

/-- A recovery code was issued with a secret: they were stored at the start, or an enrolment
drew them. -/
def IssuedWith (start : FactorTables) (requests : List FactorRequest) (accountId : String)
    (secret : SealedMfaSecret) (codeHash : String) : Prop :=
  (∃ f, start.findMfaTotp accountId = some f ∧ f.secret = secret ∧
    ∃ x ∈ start.recoveryCodes, x.accountId = accountId ∧ x.codeHash = codeHash) ∨
  ∃ r ∈ requests, r.secret = some secret ∧ codeHash ∈ r.codeHashes

/-- How many recovery codes with a digest can still be used. -/
def FactorTables.unused (s : FactorTables) (codeHash : String) : ℕ :=
  s.recoveryCodes.countP fun x => x.codeHash = codeHash && x.usedAt = none

/-- How often a recovery code was drawn, or was there to be used at the start. -/
def drawn (start : FactorTables) (ps : List FactorProcess) (codeHash : String) : ℕ :=
  start.unused codeHash + ps.countP fun p => codeHash ∈ p.1.codeHashes

/-- A process is about to confirm a factor, for a code that verifies against its secret. -/
def presented (accountId : String) (secret : SealedMfaSecret) (p : FactorProcess) : Prop :=
  ∃ id code now later, p.1 = .confirmTotp id code now later ∧ verifies secret code now = .ok true ∧
    ∃ at' next, p.2.rest = .call (.confirmMfaTotp accountId at') next

/-- A process is about to reset a factor. -/
def resets (accountId : String) (p : FactorProcess) : Prop :=
  ∃ actor id, p.1 = .resetMemberMfa actor id ∧
    ∃ next, p.2.rest = .call (.deleteMfaEnrolment accountId) next

/-- What is said of the tables: recovery codes are those that were issued with the secret,
and a code that was drawn once and a challenge are accepted once at most. -/
structure FactorsKept (start s : FactorTables) (ps : List FactorProcess) : Prop where
  codes : ∀ x ∈ s.recoveryCodes, ∃ f, s.findMfaTotp x.accountId = some f ∧
    IssuedWith start (ps.map (·.1)) x.accountId f.secret x.codeHash
  recovery : ∀ codeHash, drawn start ps codeHash ≤ 1 →
    (entriesOf ps).countP (acceptsRecovery codeHash) ≤ 1
  challenges : ∀ tokenHash, (entriesOf ps).countP (acceptsChallenge tokenHash) ≤ 1

/-- What is said of a step: a factor becomes confirmed by its own secret, and one that is
confirmed keeps it, unless it is reset. -/
structure FactorStep (s s' : FactorTables) (ps : List FactorProcess) : Prop where
  confirmed : ∀ accountId secret, s'.confirmed accountId secret →
    s.confirmed accountId secret ∨ ∃ p ∈ ps, presented accountId secret p
  kept : ∀ accountId secret, s.confirmed accountId secret →
    s'.confirmed accountId secret ∨ s'.findMfaTotp accountId = none ∧ ∃ p ∈ ps, resets accountId p

end

/-! ### The calls of the operations -/

/-- A call on the other tables that an operation makes. -/
def Call.asksFactor : Call → Bool
  | .findAccountMembership .. => true
  | .tenantOfAccount _ => true
  | .createSession _ => true
  | .listTenantAccess _ => true
  | .appendAudit .. => true
  | .consumeMfaChallenge .. => true
  | _ => false

/-- A call that stores recovery codes. -/
def storesCodes (entry : Σ c, Prog.Reply FactorCall.Answer c) : Bool :=
  match entry.1 with
  | .replaceMfaRecoveryCodes .. => true
  | _ => false

section Programs

variable [AuthText] [MfaVault] {α β : Type}
  {history : History FactorCall (Prog.Reply FactorCall.Answer)} {r : FactorRequest}

/-- The calls of an operation: a secret and codes are those it drew, codes are stored once, a
factor is confirmed behind a code that verifies against what was read of it, and a reset
deletes. -/
def FactorAllowed (r : FactorRequest) (history : History FactorCall (Prog.Reply FactorCall.Answer)) :
    FactorCall → Prop
  | .auth c => c.asksFactor = true
  | .upsertMfaTotp _ secret _ => r.secret = some secret
  | .replaceMfaRecoveryCodes _ codeHashes _ =>
    codeHashes = r.codeHashes ∧ ∀ entry ∈ history, storesCodes entry = false
  | .confirmMfaTotp accountId _ => ∃ id code now later, r = .confirmTotp id code now later ∧
      ∃ record, ⟨.findMfaTotp accountId, .ok (some record)⟩ ∈ history ∧
        verifies record.secret code now = .ok true
  | .deleteMfaEnrolment _ => ∃ actor id, r = .resetMemberMfa actor id
  | _ => True

omit [AuthText] [MfaVault] in
/-- A call an operation makes behind any history, and that stores no codes. -/
def FactorCall.plainly : FactorCall → Bool
  | .auth c => c.asksFactor
  | .findMfaTotp _ => true
  | .consumeMfaRecoveryCode .. => true
  | _ => false

theorem allowed_of_plainly (c : FactorCall) (h : c.plainly = true) : FactorAllowed r history c := by
  cases c with
  | auth c => exact h
  | findMfaTotp => trivial
  | consumeMfaRecoveryCode => trivial
  | _ => cases h

/-- A program of plain calls. -/
abbrev Plainly (p : FactorService α) : Prop :=
  Within (fun c => c.plainly = true) p

omit [AuthText] [MfaVault] in
theorem plainly_plain {p : Service α} (h : Within (fun c => c.asksFactor = true) p) : Plainly (plain p) := by
  obtain ⟨ha⟩ := h
  refine ⟨?_⟩
  induction p with
  | pure a => trivial
  | fail e => trivial
  | call c next ih => exact ⟨ha.1, fun r => ih r (ha.2 r)⟩

variable {p : FactorService α} {draws : EnrolmentDraws} {later now : ℤ}

theorem along_plainly (h : Plainly p) : Along (FactorAllowed r) history p :=
  along_of_all (fun _ => allowed_of_plainly) h.all

theorem along_plainly_bind {f : α → FactorService β} (hp : Plainly p)
    (hf : ∀ a extra, (∀ entry ∈ extra, storesCodes entry = false) →
      Along (FactorAllowed r) (history ++ extra) (f a)) : Along (FactorAllowed r) history (p >>= f) := by
  refine along_all_bind (fun _ => allowed_of_plainly) hp.all fun a extra he => hf a extra fun entry hent => ?_
  have hpla := he entry hent
  obtain ⟨c, reply⟩ := entry
  cases c with
  | replaceMfaRecoveryCodes => cases hpla
  | _ => rfl

omit [AuthText] [MfaVault] in
theorem asks_findAccountCredentialById {accountId : String} :
    Within (fun c : Call => c.asksFactor = true) (findAccountCredentialById accountId) := by
  unfold findAccountCredentialById
  refine within_bind (within_need rfl) fun tenantId => ?_
  cases tenantId with
  | none => exact within_pure
  | some tenantId => exact within_need rfl

omit [AuthText] [MfaVault] in
theorem asks_audit {tenantId actorId action subjectType subjectId : String}
    {metadata : List (String × Json)} :
    Plainly (plain (audit tenantId actorId action subjectType subjectId metadata)) :=
  plainly_plain (within_audit rfl)

theorem along_storeFactor {accountId : String} {account : AccountCredential}
    (hh : ∀ entry ∈ history, storesCodes entry = false) :
    Along (FactorAllowed (.enrollTotp accountId draws)) history (storeFactor account draws) := by
  unfold storeFactor
  refine along_ofExcept_bind fun secret hs => along_need_bind ?_ fun _ => along_need_bind ?_ fun _ => ?_
  · show (MfaVault.sealSecret draws.nonce draws.secret).toOption = some secret
    rw [hs]
    rfl
  · exact ⟨rfl, List.forall_mem_append.2 ⟨hh, List.forall_mem_singleton.2 rfl⟩⟩
  · exact along_plainly (within_bind asks_audit fun _ => within_pure)

theorem along_enrollTotp {accountId : String} :
    Along (FactorAllowed (.enrollTotp accountId draws)) [] (enrollTotp accountId draws) := by
  unfold enrollTotp
  refine along_ofExcept_bind fun id _ => along_plainly_bind (plainly_plain asks_findAccountCredentialById)
    fun account extra he => ?_
  cases account with
  | none => exact .fail
  | some account =>
    refine along_need_bind trivial fun factor => ?_
    split
    · exact .fail
    · exact along_storeFactor (List.forall_mem_append.2 ⟨he, List.forall_mem_singleton.2 rfl⟩)

theorem along_confirmTotp {accountId code : String} :
    Along (FactorAllowed (.confirmTotp accountId code now later)) [] (confirmTotp accountId code now later) := by
  unfold confirmTotp
  refine along_ofExcept_bind fun id _ => along_plainly_bind (plainly_plain asks_findAccountCredentialById)
    fun account extra _ => ?_
  cases account with
  | none => exact .fail
  | some account =>
    refine along_need_bind trivial fun record => ?_
    cases record with
    | none => exact .fail
    | some record =>
      refine along_ofExcept_bind fun valid hv => ?_
      cases valid with
      | false => exact .fail
      | true =>
        refine along_need_bind ⟨_, _, _, _, rfl, record, ?_, hv⟩ fun _ => along_plainly asks_audit
        exact List.mem_append_right _ (List.mem_singleton_self _)

theorem plainly_completeFactorChallenge {policy : AuthPolicy} {token : String}
    {code recoveryCode : Option String} {draws : Draws} :
    Plainly (completeFactorChallenge policy token code recoveryCode now later draws) := by
  have hreq : ∀ {condition : Prop} [Decidable condition] {e : String},
      Plainly (plain (require condition e)) := plainly_plain within_require
  have hi : ∀ account, Plainly (plain (issueAudited policy draws "auth.mfa.challenge-succeeded" [] account)) := by
    intro account
    refine plainly_plain ?_
    unfold issueAudited issue
    refine within_bind (within_bind (within_need rfl) fun _ => within_bind (within_need rfl) fun _ =>
      within_pure) fun issued => within_bind (within_audit rfl) fun _ => within_pure
  have hr : ∀ accountId, Plainly (recoveryValid accountId recoveryCode) := by
    intro accountId
    cases recoveryCode with
    | none => exact within_pure
    | some code =>
      rw [recoveryValid]
      split
      · exact within_need rfl
      · exact within_pure
  have hv : ∀ account record, Plainly (factorValid code recoveryCode later account record) := by
    intro account record
    cases account with
    | none => exact within_pure
    | some account =>
      cases record with
      | none => exact within_pure
      | some record =>
        rw [factorValid]
        split
        · exact within_pure
        · refine within_bind within_ofExcept fun valid => ?_
          cases valid with
          | true => exact within_pure
          | false => exact hr account.accountId
  unfold completeFactorChallenge
  refine within_bind hreq fun _ => within_bind (plainly_plain (within_need rfl)) fun challenge => ?_
  cases challenge with
  | none => exact within_fail
  | some challenge =>
    unfold completeChallenge
    refine within_bind (plainly_plain (within_need rfl)) fun account => within_bind ?_ fun record =>
      within_bind (hv account record) fun valid => ?_
    · cases account with
      | none => exact within_pure
      | some account => exact within_need rfl
    · cases account with
      | none => exact within_fail
      | some account =>
        cases valid with
        | true => exact hi account
        | false => exact within_fail

theorem along_resetMemberMfa {actor : AuthActor} {accountId : String} :
    Along (FactorAllowed (.resetMemberMfa actor accountId)) [] (resetMemberMfa actor accountId) := by
  unfold resetMemberMfa
  refine along_plainly_bind (plainly_plain ?_) fun target extra _ =>
    along_need_bind ⟨_, _, rfl⟩ fun _ => along_plainly asks_audit
  unfold targetMember
  exact within_bind within_ofExcept fun _ => within_bind (within_need rfl) fun _ => within_ofExcept

/-- **The calls of the operations** are those they may make. -/
theorem along_factorRequest : Along (FactorAllowed r) [] r.program := by
  cases r with
  | enrollTotp accountId draws => exact Prog.along_bind along_enrollTotp fun _ _ _ => .pure
  | confirmTotp accountId code now later => exact along_confirmTotp
  | completeMfaChallenge policy token code recoveryCode now later draws =>
    exact along_plainly (within_bind plainly_completeFactorChallenge fun _ => within_pure)
  | resetMemberMfa actor accountId => exact along_resetMemberMfa

end Programs

/-! ### The tables -/

section Tables

variable {s s' : FactorTables} {a accountId : String}

/-- A factor behind an update of rows of an account. -/
theorem findMfaTotp_update {change : MfaTotpRow → MfaTotpRow}
    (hk : ∀ f, (change f).accountId = f.accountId) :
    ({ s with totp := Table.update (fun f => f.accountId = a) change s.totp } : FactorTables).findMfaTotp
      accountId = (s.findMfaTotp accountId).map fun f => if decide (f.accountId = a) then change f else f :=
  Table.find?_update (fun f : MfaTotpRow => f.accountId) hk accountId

variable {createdAt : ℤ} {secret : SealedMfaSecret} {codeHash e tokenHash : String}

/-- A factor of another account behind an upsert. -/
theorem findMfaTotp_upsert (h : s.upsertMfaTotp a secret createdAt = .ok s') (hne : accountId ≠ a) :
    s'.findMfaTotp accountId = s.findMfaTotp accountId := by
  unfold FactorTables.upsertMfaTotp at h
  split_ifs at h
  · cases h
    rw [findMfaTotp_update]
    · cases hf : s.findMfaTotp accountId with
      | none => rfl
      | some f =>
        have hid : f.accountId = accountId := by simpa using List.find?_some hf
        rw [Option.map_some, if_neg (by simpa [hid] using hne)]
    · exact fun _ => rfl
  · cases h
    exact Table.find?_append_of_ne (fun f : MfaTotpRow => f.accountId) fun h => hne h.symm

/-- What an upsert stores is not confirmed. -/
theorem findMfaTotp_upserted
    (h : s.upsertMfaTotp a secret createdAt = .ok s') {f : MfaTotpRow} (hf : s'.findMfaTotp a = some f) :
    f.confirmedAt = none := by
  unfold FactorTables.upsertMfaTotp at h
  split_ifs at h with _ hs
  · cases h
    rw [findMfaTotp_update] at hf
    · obtain ⟨f₀, hf₀, rfl⟩ := Option.map_eq_some_iff.1 hf
      have hid := List.find?_some hf₀
      rw [if_pos hid]
    · exact fun _ => rfl
  · cases h
    have hn : s.findMfaTotp a = none := by simpa using hs
    have hfind : (s.totp ++ [_]).find? (fun f => f.accountId = a) = some f := hf
    rw [List.find?_append, show s.totp.find? (fun f => f.accountId = a) = none from hn,
      Option.none_or, List.find?_singleton] at hfind
    split_ifs at hfind
    rw [← Option.some.inj hfind]

theorem findMfaTotp_confirm {confirmedAt : ℤ} :
    (s.confirmMfaTotp a confirmedAt).findMfaTotp accountId =
      (s.findMfaTotp accountId).map fun f =>
        if decide (f.accountId = a) then { f with confirmedAt := some confirmedAt } else f :=
  findMfaTotp_update fun _ => rfl

theorem findMfaTotp_delete (hne : accountId ≠ a) :
    (s.deleteMfaEnrolment a).findMfaTotp accountId = s.findMfaTotp accountId := by
  unfold FactorTables.deleteMfaEnrolment FactorTables.findMfaTotp
  rw [List.find?_filter]
  refine congrArg (fun q => List.find? q s.totp) (funext fun f => ?_)
  by_cases hid : f.accountId = accountId
  · simp [hid, hne]
  · simp [hid]

theorem findMfaTotp_deleted : (s.deleteMfaEnrolment a).findMfaTotp a = none := by
  unfold FactorTables.deleteMfaEnrolment FactorTables.findMfaTotp
  refine List.find?_eq_none.2 fun f hf => ?_
  exact (List.mem_filter.1 hf).2 |> of_decide_eq_true |> fun h => by simpa using h

/-- Codes are inserted behind the others, each once, where no other has its digest. -/
theorem insertCodes_ok : ∀ {hashes : List String} {rows rows' : List RecoveryCodeRow},
    FactorTables.insertCodes a createdAt hashes rows = .ok rows' →
      rows' = rows ++ hashes.map (fun codeHash => { codeHash, accountId := a, createdAt }) ∧
        hashes.Nodup ∧ ∀ x ∈ rows, x.codeHash ∉ hashes := by
  intro hashes
  induction hashes with
  | nil =>
    intro rows rows' h
    cases h
    simp
  | cons codeHash rest ih =>
    intro rows rows' h
    rw [FactorTables.insertCodes] at h
    split_ifs at h with ha
    obtain ⟨rfl, hn, hnot⟩ := ih h
    have hnew : codeHash ∉ rest := hnot _ (List.mem_append_right _ (List.mem_singleton_self _))
    refine ⟨by simp, List.nodup_cons.2 ⟨hnew, hn⟩, fun x hx hm => ?_⟩
    rcases List.mem_cons.1 hm with heq | hm
    · exact ha (List.any_eq_true.2 ⟨x, hx, decide_eq_true heq⟩)
    · exact hnot x (List.mem_append_left _ hx) hm

theorem replaceMfaRecoveryCodes_ok {hashes : List String}
    (h : s.replaceMfaRecoveryCodes a hashes createdAt = .ok s') :
    hashes.Nodup ∧ s' = { s with
      recoveryCodes := s.recoveryCodes.filter (fun x => x.accountId ≠ a) ++
        hashes.map fun codeHash => { codeHash, accountId := a, createdAt } } := by
  unfold FactorTables.replaceMfaRecoveryCodes at h
  split_ifs at h
  cases hi : FactorTables.insertCodes a createdAt hashes
      (s.recoveryCodes.filter fun x => x.accountId ≠ a) with
  | error e =>
    rw [hi] at h
    cases h
  | ok rows =>
    rw [hi] at h
    cases h
    obtain ⟨rfl, hn, -⟩ := insertCodes_ok hi
    exact ⟨hn, rfl⟩

/-! ### What is left to accept -/

/-- A call stores a recovery code. -/
def FactorCall.stores (codeHash : String) : FactorCall → Bool
  | .replaceMfaRecoveryCodes _ codeHashes _ => codeHash ∈ codeHashes
  | _ => false

/-- How many challenges of a digest can still be used. -/
def Tables.openChallenges (s : Tables) (tokenHash : String) : ℕ :=
  s.challenges.countP fun x => x.tokenHash = tokenHash && x.usedAt = none

variable {c : FactorCall} {choice : FactorChoice}

theorem factorServe_cases : (c.serve s choice).2 = s ∨ (c.serve s choice).2 = (c.perform choice s).2 := by
  unfold FactorCall.serve
  split
  · exact .inr rfl
  · next kept error _ =>
    cases kept with
    | false => exact .inl rfl
    | true => exact .inr rfl

/-- A call accepts what it accepts where it is performed. -/
theorem serve_accepts {accepts : (Σ c, Prog.Reply FactorCall.Answer c) → Bool} {f : FactorTables → ℕ}
    {more : ℕ} (he : ∀ e, accepts ⟨c, .error e⟩ = false)
    (h : (if accepts ⟨c, (c.perform choice s).1⟩ then 1 else 0) + f (c.perform choice s).2 ≤ f s + more) :
    (if accepts ⟨c, (c.serve s choice).1⟩ then 1 else 0) + f (c.serve s choice).2 ≤ f s + more := by
  unfold FactorCall.serve
  split
  · exact h
  · next kept error _ =>
    rw [he, if_neg Bool.false_ne_true]
    cases kept with
    | false => simp
    | true =>
      show 0 + f (c.perform choice s).2 ≤ f s + more
      omega

theorem acceptsRecovery_error : acceptsRecovery codeHash ⟨c, .error e⟩ = false := by
  cases c <;> rfl

theorem acceptsChallenge_error : acceptsChallenge tokenHash ⟨c, .error e⟩ = false := by
  cases c with
  | auth c => cases c <;> rfl
  | _ => rfl

/-- **A recovery code that is accepted can be used no more**, and one that is stored can be
used. -/
theorem unused_serve : (if acceptsRecovery codeHash ⟨c, (c.serve s choice).1⟩ then 1 else 0) +
        (c.serve s choice).2.unused codeHash ≤
      s.unused codeHash + if c.stores codeHash then 1 else 0 := by
  refine serve_accepts (f := fun s => s.unused codeHash) (fun e => acceptsRecovery_error) ?_
  cases c with
  | auth c => simp [acceptsRecovery, FactorCall.perform, FactorTables.unused]
  | findMfaTotp => simp [acceptsRecovery, FactorCall.perform]
  | confirmMfaTotp => simp [acceptsRecovery, FactorCall.perform, FactorTables.unused, FactorTables.confirmMfaTotp]
  | upsertMfaTotp a secret createdAt =>
    rw [FactorCall.perform]
    cases hu : s.upsertMfaTotp a secret createdAt with
    | error e => simp [FactorTables.written, acceptsRecovery]
    | ok s' =>
      have hcod : s'.recoveryCodes = s.recoveryCodes := by
        unfold FactorTables.upsertMfaTotp at hu
        split_ifs at hu <;> cases hu <;> rfl
      simp [FactorTables.written, acceptsRecovery, FactorTables.unused, hcod]
  | deleteMfaEnrolment a =>
    have hle : (s.deleteMfaEnrolment a).unused codeHash ≤ s.unused codeHash :=
      List.filter_sublist.countP_le
    simpa [acceptsRecovery, FactorCall.perform, FactorCall.stores] using hle
  | replaceMfaRecoveryCodes a hashes createdAt =>
    rw [FactorCall.perform]
    cases hr : s.replaceMfaRecoveryCodes a hashes createdAt with
    | error e => simp [FactorTables.written, acceptsRecovery]
    | ok s' =>
      obtain ⟨hn, rfl⟩ := replaceMfaRecoveryCodes_ok hr
      have hold : (s.recoveryCodes.filter fun x => x.accountId ≠ a).countP
          (fun x => x.codeHash = codeHash && x.usedAt = none) ≤ s.unused codeHash :=
        List.filter_sublist.countP_le
      have hnew : (hashes.map fun codeHash => ({ codeHash, accountId := a, createdAt } : RecoveryCodeRow)).countP
          (fun x => x.codeHash = codeHash && x.usedAt = none) = hashes.count codeHash := by
        rw [List.countP_map, List.count]
        refine List.countP_congr fun x _ => ?_
        simp
      have hc : hashes.count codeHash = if codeHash ∈ hashes then 1 else 0 := hn.count
      simp only [FactorTables.written, acceptsRecovery, FactorCall.stores, Bool.false_eq_true, if_false,
        decide_eq_true_eq]
      rw [FactorTables.unused, List.countP_append, hnew, hc]
      omega
  | consumeMfaRecoveryCode a hash =>
    have hb : ∀ x, FactorTables.unusedCode a hash x = true →
        (decide (x.codeHash = hash) && decide (x.usedAt = none)) = true := by
      intro x hx
      simp only [FactorTables.unusedCode, Bool.and_eq_true] at hx ⊢
      exact ⟨hx.1.2, hx.2⟩
    cases ha : acceptsRecovery codeHash ⟨.consumeMfaRecoveryCode a hash,
        (FactorCall.perform (.consumeMfaRecoveryCode a hash) choice s).1⟩ with
    | true =>
      have ho : s.recoveryCodes.countP (FactorTables.unusedCode a hash) = 1 ∧ hash = codeHash := by
        by_cases hc : s.recoveryCodes.countP (FactorTables.unusedCode a hash) = 1
        · simp only [acceptsRecovery, FactorCall.perform, FactorTables.consumeMfaRecoveryCode, hc,
            decide_true] at ha
          exact ⟨hc, of_decide_eq_true ha⟩
        · simp [acceptsRecovery, FactorCall.perform, FactorTables.consumeMfaRecoveryCode, hc] at ha
      obtain ⟨ho, rfl⟩ := ho
      have hc : (s.consumeMfaRecoveryCode a hash choice.clock).2.unused hash +
          s.recoveryCodes.countP (FactorTables.unusedCode a hash) = s.unused hash :=
        Table.countP_update_add hb fun x _ => by simp
      rw [if_pos rfl]
      show 1 + (s.consumeMfaRecoveryCode a hash choice.clock).2.unused hash ≤ s.unused hash + 0
      omega
    | false =>
      have hle : (s.consumeMfaRecoveryCode a hash choice.clock).2.unused codeHash ≤ s.unused codeHash :=
        Table.countP_update_le fun x hx => by simp at hx
      rw [if_neg Bool.false_ne_true]
      show 0 + (s.consumeMfaRecoveryCode a hash choice.clock).2.unused codeHash ≤ s.unused codeHash + 0
      omega

/-- **A challenge that is accepted can be used no more.** -/
theorem openChallenges_serve (hc : ∀ c', c = .auth c' → c'.asksFactor = true) :
    (if acceptsChallenge tokenHash ⟨c, (c.serve s choice).1⟩ then 1 else 0) +
        (c.serve s choice).2.tables.openChallenges tokenHash ≤
      s.tables.openChallenges tokenHash + 0 := by
  refine serve_accepts (f := fun s => s.tables.openChallenges tokenHash) (fun e => acceptsChallenge_error) ?_
  cases c with
  | auth c =>
    have hasks := hc c rfl
    cases c with
    | consumeMfaChallenge hash now =>
      cases ha : acceptsChallenge tokenHash ⟨.auth (.consumeMfaChallenge hash now),
          (FactorCall.perform (.auth (.consumeMfaChallenge hash now)) choice s).1⟩ with
      | true =>
        have hf : (s.tables.consumeMfaChallenge hash now).1 ≠ none ∧ hash = tokenHash := by
          cases hfind : (s.tables.consumeMfaChallenge hash now).1 with
          | none => simp [acceptsChallenge, FactorCall.perform, Call.perform, hfind] at ha
          | some found =>
            simp only [acceptsChallenge, FactorCall.perform, Call.perform, hfind] at ha
            exact ⟨Option.some_ne_none _, of_decide_eq_true ha⟩
        obtain ⟨hf, rfl⟩ := hf
        have hp : 0 < s.tables.challenges.countP fun x : ChallengeRow =>
            x.tokenHash = hash && x.usedAt = none && now < x.expiresAt := by
          rw [List.countP_pos_iff]
          by_contra hn
          refine hf (Option.map_eq_none_iff.2 (List.find?_eq_none.2 fun x hx hl => ?_))
          exact hn ⟨x, hx, hl⟩
        have hcou : (s.tables.consumeMfaChallenge hash now).2.openChallenges hash +
            (s.tables.challenges.countP fun x : ChallengeRow =>
              x.tokenHash = hash && x.usedAt = none && now < x.expiresAt) = s.tables.openChallenges hash := by
          refine Table.countP_update_add (fun x hx => ?_) fun x _ => by simp
          exact (Bool.and_eq_true_iff.1 hx).1
        rw [if_pos rfl]
        show 1 + (s.tables.consumeMfaChallenge hash now).2.openChallenges hash ≤
          s.tables.openChallenges hash + 0
        omega
      | false =>
        have hle : (s.tables.consumeMfaChallenge hash now).2.openChallenges tokenHash ≤
            s.tables.openChallenges tokenHash :=
          Table.countP_update_le fun x hx => by simp at hx
        rw [if_neg Bool.false_ne_true]
        show 0 + (s.tables.consumeMfaChallenge hash now).2.openChallenges tokenHash ≤
          s.tables.openChallenges tokenHash + 0
        omega
    | createSession row =>
      have hs : (written s.tables PUnit.unit (s.tables.createSession row)).2.challenges =
          s.tables.challenges := by
        unfold Tables.createSession
        split_ifs <;> rfl
      simp [acceptsChallenge, FactorCall.perform, Call.perform, Tables.openChallenges, hs]
    | findAccountMembership => simp [acceptsChallenge, FactorCall.perform, Call.perform]
    | tenantOfAccount => simp [acceptsChallenge, FactorCall.perform, Call.perform]
    | listTenantAccess => simp [acceptsChallenge, FactorCall.perform, Call.perform]
    | appendAudit => simp [acceptsChallenge, FactorCall.perform, Call.perform]
    | _ => cases hasks
  | upsertMfaTotp a secret createdAt =>
    rw [FactorCall.perform]
    cases hu : s.upsertMfaTotp a secret createdAt with
    | error e => simp [FactorTables.written, acceptsChallenge]
    | ok s' =>
      have ht : s'.tables = s.tables := by
        unfold FactorTables.upsertMfaTotp at hu
        split_ifs at hu <;> cases hu <;> rfl
      simp [FactorTables.written, acceptsChallenge, ht]
  | replaceMfaRecoveryCodes a hashes createdAt =>
    rw [FactorCall.perform]
    cases hr : s.replaceMfaRecoveryCodes a hashes createdAt with
    | error e => simp [FactorTables.written, acceptsChallenge]
    | ok s' =>
      obtain ⟨-, rfl⟩ := replaceMfaRecoveryCodes_ok hr
      simp [FactorTables.written, acceptsChallenge]
  | _ => simp [acceptsChallenge, FactorCall.perform, FactorTables.confirmMfaTotp,
      FactorTables.deleteMfaEnrolment, FactorTables.consumeMfaRecoveryCode]

end Tables

/-! ### One call -/

section Steps

variable [AuthText] [MfaVault] {start s s' : FactorTables} {requests : List FactorRequest}
  {r : FactorRequest} {history : History FactorCall (Prog.Reply FactorCall.Answer)} {c : FactorCall}
  {next : Prog.Reply FactorCall.Answer c → FactorService PUnit} {choice : FactorChoice}
  {ps : List FactorProcess} {p : FactorProcess}

/-- The recovery codes are those that were issued with the secret. -/
def CodesKept (start : FactorTables) (requests : List FactorRequest) (s : FactorTables) : Prop :=
  ∀ x ∈ s.recoveryCodes, ∃ f, s.findMfaTotp x.accountId = some f ∧
    IssuedWith start requests x.accountId f.secret x.codeHash

theorem CodesKept.mono {requests' : List FactorRequest} (hs : requests ⊆ requests')
    (h : CodesKept start requests s) : CodesKept start requests' s := by
  intro x hx
  obtain ⟨f, hf, hi⟩ := h x hx
  refine ⟨f, hf, hi.imp_right ?_⟩
  rintro ⟨r, hr, hd⟩
  exact ⟨r, hs hr, hd⟩

theorem CodesKept.written {e : Except String FactorTables} (h : CodesKept start requests s)
    (hok : ∀ s', e = .ok s' → CodesKept start requests s') : CodesKept start requests (s.written e).2 := by
  cases e with
  | error e => exact h
  | ok s' => exact hok s' rfl

/-- **What a call that meets the condition leaves of the codes.** -/
theorem CodesKept.perform (h : CodesKept start requests s) (hr : r ∈ requests)
    (ha : FactorAllowed r history c)
    (hc : factorCurrent s (r, ⟨history, .call c next⟩) = true) :
    CodesKept start requests (c.perform choice s).2 := by
  cases c with
  | auth c => exact h
  | findMfaTotp => exact h
  | upsertMfaTotp a secret createdAt =>
    refine h.written fun s' hu x hx => ?_
    obtain ⟨-, hn⟩ := Bool.and_eq_true_iff.1 hc
    have hcod : s'.recoveryCodes = s.recoveryCodes := by
      unfold FactorTables.upsertMfaTotp at hu
      split_ifs at hu <;> cases hu <;> rfl
    rw [hcod] at hx
    have hne : x.accountId ≠ a := of_decide_eq_true (List.all_eq_true.1 hn x hx)
    rw [findMfaTotp_upsert hu hne]
    exact h x hx
  | confirmMfaTotp a confirmedAt =>
    intro x hx
    obtain ⟨f, hf, hi⟩ := h x hx
    refine ⟨_, findMfaTotp_confirm.trans (congrArg (Option.map _) hf), ?_⟩
    dsimp only
    split_ifs <;> exact hi
  | deleteMfaEnrolment a =>
    intro x hx
    obtain ⟨hx, hne⟩ := List.mem_filter.1 hx
    obtain ⟨f, hf, hi⟩ := h x hx
    exact ⟨f, (findMfaTotp_delete (of_decide_eq_true hne)).trans hf, hi⟩
  | replaceMfaRecoveryCodes a hashes createdAt =>
    refine h.written fun s' hrep x hx => ?_
    obtain ⟨-, rfl⟩ := replaceMfaRecoveryCodes_ok hrep
    obtain ⟨f, hf, hsec⟩ := (Option.any_eq_true _ _).1 hc
    rcases List.mem_append.1 hx with hx | hx
    · exact h x (List.mem_filter.1 hx).1
    · obtain ⟨codeHash, hm, rfl⟩ := List.mem_map.1 hx
      refine ⟨f, hf, .inr ⟨r, hr, of_decide_eq_true hsec, ?_⟩⟩
      rw [← ha.1]
      exact hm
  | consumeMfaRecoveryCode a hash =>
    intro x hx
    obtain ⟨x₀, hx₀, rfl⟩ := Table.mem_update.1 hx
    have hs : ∀ x : RecoveryCodeRow, (if FactorTables.unusedCode a hash x then
        { x with usedAt := some choice.clock } else x).accountId = x.accountId ∧
        (if FactorTables.unusedCode a hash x then
          { x with usedAt := some choice.clock } else x).codeHash = x.codeHash := by
      intro x
      split_ifs <;> exact ⟨rfl, rfl⟩
    rw [(hs x₀).1, (hs x₀).2]
    exact h x₀ hx₀

variable {secret : SealedMfaSecret}

/-- **What a call that meets the condition confirms** was presented. -/
theorem confirmed_of_perform (ha : FactorAllowed r history c)
    (hc : factorCurrent s (r, ⟨history, .call c next⟩) = true) {accountId : String}
    (h : (c.perform choice s).2.confirmed accountId secret) :
    s.confirmed accountId secret ∨ presented accountId secret (r, ⟨history, .call c next⟩) := by
  obtain ⟨f, hf, rfl, hcon⟩ := h
  cases c with
  | auth c => exact .inl ⟨f, hf, rfl, hcon⟩
  | findMfaTotp => exact .inl ⟨f, hf, rfl, hcon⟩
  | consumeMfaRecoveryCode => exact .inl ⟨f, hf, rfl, hcon⟩
  | upsertMfaTotp a secret createdAt =>
    rw [FactorCall.perform] at hf
    cases hu : s.upsertMfaTotp a secret createdAt with
    | error e =>
      rw [hu] at hf
      exact .inl ⟨f, hf, rfl, hcon⟩
    | ok s' =>
      rw [hu] at hf
      by_cases hid : accountId = a
      · subst hid
        exact absurd (findMfaTotp_upserted hu hf) hcon
      · exact .inl ⟨f, (findMfaTotp_upsert hu hid).symm.trans hf, rfl, hcon⟩
  | deleteMfaEnrolment a =>
    by_cases hid : accountId = a
    · subst hid
      have hn := findMfaTotp_deleted.symm.trans hf
      cases hn
    · exact .inl ⟨f, (findMfaTotp_delete hid).symm.trans hf, rfl, hcon⟩
  | replaceMfaRecoveryCodes a hashes createdAt =>
    rw [FactorCall.perform] at hf
    cases hr : s.replaceMfaRecoveryCodes a hashes createdAt with
    | error e =>
      rw [hr] at hf
      exact .inl ⟨f, hf, rfl, hcon⟩
    | ok s' =>
      rw [hr] at hf
      obtain ⟨-, rfl⟩ := replaceMfaRecoveryCodes_ok hr
      exact .inl ⟨f, hf, rfl, hcon⟩
  | confirmMfaTotp a confirmedAt =>
    obtain ⟨f₀, hf₀, rfl⟩ := Option.map_eq_some_iff.1 (findMfaTotp_confirm.symm.trans hf)
    by_cases hid : f₀.accountId = a
    · have hs : accountId = a := by
        have hfou := List.find?_some hf₀
        rw [decide_eq_true_eq] at hfou
        exact hfou.symm.trans hid
      subst hs
      obtain ⟨id, code, now, later, rfl, record, hrec, hv⟩ := ha
      have hcur : (s.findMfaTotp accountId).all
          (fun f => history.all (readCurrent accountId f.secret)) = true := hc
      rw [hf₀, Option.all_some] at hcur
      have hread := List.all_eq_true.1 hcur _ hrec
      have hsec : record.secret = f₀.secret := by simpa [readCurrent] using hread
      rw [hsec] at hv
      rw [if_pos (decide_eq_true hid)]
      exact .inr ⟨id, code, now, later, rfl, hv, confirmedAt, next, rfl⟩
    · rw [if_neg (by simpa using hid)] at hcon ⊢
      exact .inl ⟨f₀, hf₀, rfl, hcon⟩

/-- **What is confirmed stays** behind a call that meets the condition, unless it is reset. -/
theorem kept_of_perform (ha : FactorAllowed r history c)
    (hc : factorCurrent s (r, ⟨history, .call c next⟩) = true) {accountId : String}
    (h : s.confirmed accountId secret) :
    (c.perform choice s).2.confirmed accountId secret ∨
      (c.perform choice s).2.findMfaTotp accountId = none ∧
        resets accountId (r, ⟨history, .call c next⟩) := by
  obtain ⟨f, hf, rfl, hcon⟩ := h
  cases c with
  | auth c => exact .inl ⟨f, hf, rfl, hcon⟩
  | findMfaTotp => exact .inl ⟨f, hf, rfl, hcon⟩
  | consumeMfaRecoveryCode => exact .inl ⟨f, hf, rfl, hcon⟩
  | upsertMfaTotp a secret createdAt =>
    rw [FactorCall.perform]
    cases hu : s.upsertMfaTotp a secret createdAt with
    | error e => exact .inl ⟨f, hf, rfl, hcon⟩
    | ok s' =>
      have hid : accountId ≠ a := by
        rintro rfl
        obtain ⟨hn, -⟩ := Bool.and_eq_true_iff.1 hc
        rw [hf, Option.all_some] at hn
        exact hcon (of_decide_eq_true hn)
      exact .inl ⟨f, (findMfaTotp_upsert hu hid).trans hf, rfl, hcon⟩
  | deleteMfaEnrolment a =>
    by_cases hid : accountId = a
    · subst hid
      obtain ⟨actor, id, rfl⟩ := ha
      exact .inr ⟨findMfaTotp_deleted, actor, id, rfl, next, rfl⟩
    · exact .inl ⟨f, (findMfaTotp_delete hid).trans hf, rfl, hcon⟩
  | replaceMfaRecoveryCodes a hashes createdAt =>
    rw [FactorCall.perform]
    cases hr : s.replaceMfaRecoveryCodes a hashes createdAt with
    | error e => exact .inl ⟨f, hf, rfl, hcon⟩
    | ok s' =>
      obtain ⟨-, rfl⟩ := replaceMfaRecoveryCodes_ok hr
      exact .inl ⟨f, hf, rfl, hcon⟩
  | confirmMfaTotp a confirmedAt =>
    refine .inl ⟨_, findMfaTotp_confirm.trans (congrArg (Option.map _) hf), ?_, ?_⟩
    · dsimp only
      split_ifs <;> rfl
    · dsimp only
      split_ifs
      · exact Option.some_ne_none _
      · exact hcon

/-- What holds of the tables and all processes there were. -/
structure FactorRun (start s : FactorTables) (ps : List FactorProcess) : Prop where
  allowed : ∀ p ∈ ps, Along (FactorAllowed p.1) p.2.history p.2.rest
  stored : ∀ p ∈ ps, ∀ codeHash, p.2.history.countP (fun entry => entry.1.stores codeHash) ≤
    if codeHash ∈ p.1.codeHashes then 1 else 0
  codes : CodesKept start (ps.map (·.1)) s
  recovery : ∀ codeHash, (entriesOf ps).countP (acceptsRecovery codeHash) + s.unused codeHash ≤
    start.unused codeHash + (entriesOf ps).countP fun entry => entry.1.stores codeHash
  challenges : ∀ tokenHash,
    (entriesOf ps).countP (acceptsChallenge tokenHash) + s.tables.openChallenges tokenHash ≤ 1

omit [AuthText] [MfaVault] in
theorem countP_entriesOf {accepts : (Σ c, Prog.Reply FactorCall.Answer c) → Bool} :
    (entriesOf (p :: ps)).countP accepts = p.2.history.countP accepts + (entriesOf ps).countP accepts := by
  rw [entriesOf, List.flatMap_cons, List.countP_append]
  rfl

/-- A process stores its recovery codes once. -/
theorem stored_append {entry : Σ c, Prog.Reply FactorCall.Answer c}
    (ha : FactorAllowed r history entry.1)
    (h : ∀ codeHash, history.countP (fun entry => entry.1.stores codeHash) ≤
      if codeHash ∈ r.codeHashes then 1 else 0) (codeHash : String) :
    (history ++ [entry]).countP (fun entry => entry.1.stores codeHash) ≤
      if codeHash ∈ r.codeHashes then 1 else 0 := by
  obtain ⟨c, reply⟩ := entry
  rw [List.countP_append, List.countP_singleton]
  cases c with
  | replaceMfaRecoveryCodes a hashes createdAt =>
    obtain ⟨rfl, hn⟩ := ha
    have hz : history.countP (fun entry => entry.1.stores codeHash) = 0 := by
      refine List.countP_eq_zero.2 fun entry he hs => ?_
      have ho := hn entry he
      obtain ⟨c, reply⟩ := entry
      cases c with
      | replaceMfaRecoveryCodes => cases ho
      | _ => cases hs
    rw [hz, Nat.zero_add]
    simp [FactorCall.stores]
  | _ => simpa [FactorCall.stores] using h codeHash

/-- **One call of an operation.** -/
theorem FactorRun.call (h : FactorRun start s ((r, ⟨history, .call c next⟩) :: ps))
    (hc : factorCurrent s (r, ⟨history, .call c next⟩) = true) :
    FactorRun start (c.serve s choice).2
      ((r, ⟨history ++ [⟨c, (c.serve s choice).1⟩], next (c.serve s choice).1⟩) :: ps) := by
  obtain ⟨hp, ho⟩ := List.forall_mem_cons.1 h.allowed
  obtain ⟨hs, hsto⟩ := List.forall_mem_cons.1 h.stored
  have ha : FactorAllowed r history c := Along.ok_call hp
  refine ⟨List.forall_mem_cons.2 ⟨Along.next hp _, ho⟩,
    List.forall_mem_cons.2 ⟨stored_append ha hs, hsto⟩, ?_, fun codeHash => ?_,
    fun tokenHash => ?_⟩
  · have hm : r ∈ (((r, ⟨history, .call c next⟩) : FactorProcess) :: ps).map (·.1) := List.mem_cons_self
    rcases factorServe_cases with hsame | hper
    · rw [hsame]
      exact h.codes
    · rw [hper]
      exact h.codes.perform hm ha hc
  · have hb := h.recovery codeHash
    have hser : (if acceptsRecovery codeHash ⟨c, (c.serve s choice).1⟩ then 1 else 0) +
        (c.serve s choice).2.unused codeHash ≤
      s.unused codeHash + if c.stores codeHash then 1 else 0 := unused_serve
    rw [countP_entriesOf, countP_entriesOf] at hb ⊢
    rw [List.countP_append, List.countP_append, List.countP_singleton, List.countP_singleton]
    dsimp only at hb hser ⊢
    omega
  · have hb := h.challenges tokenHash
    have hasks : ∀ c', c = .auth c' → c'.asksFactor = true := by
      rintro c' rfl
      exact ha
    have hser : (if acceptsChallenge tokenHash ⟨c, (c.serve s choice).1⟩ then 1 else 0) +
        (c.serve s choice).2.tables.openChallenges tokenHash ≤
      s.tables.openChallenges tokenHash + 0 := openChallenges_serve hasks
    rw [countP_entriesOf] at hb ⊢
    rw [List.countP_append, List.countP_singleton]
    dsimp only at hb hser ⊢
    omega

/-- What holds of the tables and all processes. -/
def factorChronicle (start : FactorTables) : Chronicle factorCalls FactorCurrent where
  holds := FactorRun start
  perm := by
    intro s ps ps' hperm h
    have hentries : (entriesOf ps).Perm (entriesOf ps') := hperm.flatMap_right _
    refine ⟨fun p hp => h.allowed p (hperm.mem_iff.2 hp), fun p hp => h.stored p (hperm.mem_iff.2 hp),
      h.codes.mono (hperm.map _).subset, fun codeHash => ?_, fun tokenHash => ?_⟩
    · rw [← hentries.countP_eq, ← hentries.countP_eq]
      exact h.recovery codeHash
    · rw [← hentries.countP_eq]
      exact h.challenges tokenHash
  start := by
    rintro s ps r p h hstart
    obtain rfl := recorder_signed_enter hstart
    refine ⟨List.forall_mem_cons.2 ⟨along_factorRequest, h.allowed⟩,
      List.forall_mem_cons.2 ⟨fun _ => Nat.zero_le _, h.stored⟩,
      h.codes.mono (List.subset_cons_self _ _), h.recovery, h.challenges⟩
  stop h := h
  move := by
    rintro s others gone p choice s' p' h hcond hmove
    obtain ⟨r, history, c, next, rfl, rfl, rfl⟩ := recorder_signed_next hmove
    exact h.call hcond

omit [MfaVault] in
/-- A recovery code is stored as often as it is drawn, at most. -/
theorem stored_le_drawn {codeHash : String} (h : ∀ p ∈ ps, p.2.history.countP (fun entry =>
    entry.1.stores codeHash) ≤ if codeHash ∈ p.1.codeHashes then 1 else 0) :
    ((entriesOf ps).countP fun entry => entry.1.stores codeHash) ≤
      ps.countP fun p => codeHash ∈ p.1.codeHashes := by
  induction ps with
  | nil => exact le_rfl
  | cons p ps ih =>
    obtain ⟨hp, hps⟩ := List.forall_mem_cons.1 h
    have hr := ih hps
    rw [countP_entriesOf, List.countP_cons]
    simp only [decide_eq_true_eq]
    omega

/-- **What one step does to the factors.** -/
theorem factorStep_of_step {crew crew' : Crew (FactorTables × List FactorProcess) FactorProcess}
    (ha : ∀ p ∈ crew.processes, Along (FactorAllowed p.1) p.2.history p.2.rest)
    (hstep : Crew.Step factorCalls.ledger (Machine.Condition.ledger FactorCurrent) crew crew') :
    FactorStep crew.shared.1 crew'.shared.1 crew.processes := by
  have hs : ∀ s : FactorTables, ∀ ps, FactorStep s s ps := fun s ps =>
    ⟨fun _ _ h => .inl h, fun _ _ h => .inl h⟩
  cases hstep with
  | start h => exact hs _ _
  | stop => exact hs _ _
  | @move s s' before behind p p' choice h hc =>
    obtain ⟨r, history, c, next, rfl, hser⟩ := Prog.recorder_ledger_next h
    rw [hser]
    have hm : ((r, ⟨history, .call c next⟩) : FactorProcess) ∈ before ++ (r, ⟨history, .call c next⟩) :: behind :=
      List.mem_append_right _ List.mem_cons_self
    have hcall : FactorAllowed r history c := Along.ok_call (ha _ hm)
    have hserve : (c.serve s.1 choice).2 = s.1 ∨ (c.serve s.1 choice).2 = (c.perform choice s.1).2 :=
      factorServe_cases
    rcases hserve with hstay | hper
    · rw [hstay]
      exact hs _ _
    · rw [hper]
      refine ⟨fun accountId secret h => ?_, fun accountId secret h => ?_⟩
      · exact (confirmed_of_perform hcall hc h).imp_right fun hp => ⟨_, hm, hp⟩
      · exact (kept_of_perform hcall hc h).imp_right fun hp => ⟨hp.1, _, hm, hp.2⟩

/-- **A second factor is confirmed by its own secret and lost by a reset**: in every run in
which a secret is stored beside no confirmed factor and no recovery codes, what is confirmed
is what was read, and recovery codes are stored beside their own secret. -/
theorem second_factor_kept
    (hcodes : ∀ x ∈ start.recoveryCodes, (start.findMfaTotp x.accountId).isSome = true)
    (hchallenges : (start.tables.challenges.map (·.tokenHash)).Nodup)
    {crew : Crew (FactorTables × List FactorProcess) FactorProcess}
    (h : Crew.Reachable factorCalls.ledger (Machine.Condition.ledger FactorCurrent) (start, []) crew) :
    FactorsKept start crew.shared.1 crew.everyone ∧
      ∀ crew', Crew.Step factorCalls.ledger (Machine.Condition.ledger FactorCurrent) crew crew' →
        FactorStep crew.shared.1 crew'.shared.1 crew.processes := by
  have hemp : FactorRun start start [] := by
    refine ⟨fun _ h => (nomatch h), fun _ h => (nomatch h), fun x hx => ?_, fun _ => ?_, fun tokenHash => ?_⟩
    · obtain ⟨f, hf⟩ := Option.isSome_iff_exists.1 (hcodes x hx)
      exact ⟨f, hf, .inl ⟨f, hf, rfl, x, hx, rfl, rfl⟩⟩
    · exact (Nat.zero_add _).le
    · have hle : start.tables.openChallenges tokenHash ≤
          start.tables.challenges.countP fun x => x.tokenHash = tokenHash :=
        List.countP_mono_left fun x _ hx => (Bool.and_eq_true_iff.1 hx).1
      have hc := List.nodup_iff_count_le_one.1 hchallenges tokenHash
      rw [List.count, List.countP_map] at hc
      have hs : start.tables.challenges.countP ((· == tokenHash) ∘ (·.tokenHash)) =
          start.tables.challenges.countP fun x => x.tokenHash = tokenHash :=
        List.countP_congr fun x _ => by simp
      rw [hs] at hc
      exact (Nat.zero_add _).trans_le (hle.trans hc)
  have he : FactorRun start crew.shared.1 crew.everyone := (factorChronicle start).reachable hemp h
  refine ⟨⟨he.codes, fun codeHash hd => ?_, fun tokenHash => ?_⟩, fun crew' hstep => ?_⟩
  · have ha := he.recovery codeHash
    have hsto := stored_le_drawn fun p hp => he.stored p hp codeHash
    rw [drawn] at hd
    omega
  · have ha := he.challenges tokenHash
    omega
  · exact factorStep_of_step (fun p hp => he.allowed p (List.mem_append_left _ hp)) hstep

end Steps

/-! ### Sample runs -/

/-- A vault that keeps a secret as it is; the code of a secret is six digits for good. -/
@[reducible] def sampleVault : MfaVault where
  sealSecret nonce secret := .ok ⟨secret, some nonce⟩
  openSecret secret := .ok secret.ciphertext
  verifyTotp secret code _ := .ok (code = if secret = "first" then "111111" else "222222")

theorem sampleOwner_keys : ([sampleOwner "ada" "t"].map fun m => m.key).Nodup :=
  List.nodup_singleton _

/-- An account without a factor. -/
def factorTables : FactorTables where
  tables := {
    accounts := [sampleAccount "ada"]
    memberships := [sampleOwner "ada" "t"]
    keys := sampleOwner_keys }

/-- An enrolment that draws a secret and a recovery code. -/
def sampleEnrolment (secret : String) : FactorRequest :=
  .enrollTotp "ada" { secret, nonce := "k", recoveryCodes := [secret ++ " code"], now := 0 }

/-- A confirmation with the code of the first secret. -/
def sampleConfirmation : FactorRequest :=
  .confirmTotp "ada" "111111" 1 1

/-- Moves of the operation at a position. -/
def factorMoves (i n : ℕ) : List (Crew.Turn FactorRequest FactorChoice) :=
  List.replicate n (.move i {})

/-- The factor of the sample account, as far as it is told. -/
def sampleFactor (s : FactorTables) : Option (String × Option ℤ) :=
  (s.findMfaTotp "ada").map fun f => (f.secret.ciphertext, f.confirmedAt)

/-- An enrolment, and the confirmation of its secret. -/
theorem second_factor_confirmed : ∃ crew, Crew.Reachable (@factorCalls plainText sampleVault).ledger
    (Machine.Condition.ledger (@FactorCurrent sampleVault)) (factorTables, []) crew ∧
    sampleFactor crew.shared.1 = some ("first", some 1) ∧
    @FactorsKept plainText sampleVault factorTables crew.shared.1 crew.everyone ∧
    ∀ crew', Crew.Step (@factorCalls plainText sampleVault).ledger
      (Machine.Condition.ledger (@FactorCurrent sampleVault)) crew crew' →
        @FactorStep sampleVault crew.shared.1 crew'.shared.1 crew.processes := by
  have hp : (Crew.play (@factorCalls plainText sampleVault).ledger
      (fun s _ p => @factorCurrent sampleVault s.1 p = true) ⟨(factorTables, []), []⟩
      (.start (sampleEnrolment "first") :: factorMoves 0 6 ++
        .start sampleConfirmation :: factorMoves 0 5)).map (fun crew => sampleFactor crew.shared.1) =
        some (some ("first", some 1)) := by decide +kernel
  obtain ⟨crew, hc, hf⟩ := Option.map_eq_some_iff.1 hp
  have hr : Crew.Reachable (@factorCalls plainText sampleVault).ledger
      (Machine.Condition.ledger (@FactorCurrent sampleVault)) (factorTables, []) crew :=
    (Crew.reachable_of_play hc).mono fun _ _ _ h => h
  exact ⟨crew, hr, hf,
    @second_factor_kept plainText sampleVault factorTables (fun x hx => absurd hx List.not_mem_nil)
      List.nodup_nil _ hr⟩

/-- Nobody has a code of the second secret. -/
def noSecondCode (p : FactorProcess) : Bool :=
  match p.1 with
  | .confirmTotp _ code _ _ => code ≠ "222222"
  | _ => true

variable {s : FactorTables}

theorem sampleFactor_of_confirmed {secret : SealedMfaSecret}
    (h : s.confirmed "ada" secret) : ∃ at', sampleFactor s = some (secret.ciphertext, some at') := by
  obtain ⟨f, hf, rfl, hc⟩ := h
  obtain ⟨at', hat⟩ := Option.ne_none_iff_exists'.1 hc
  exact ⟨at', by rw [sampleFactor, hf, Option.map_some, hat]⟩

theorem confirmed_of_sampleFactor {ciphertext : String} {at' : ℤ}
    (h : sampleFactor s = some (ciphertext, some at')) :
    ∃ secret : SealedMfaSecret, secret.ciphertext = ciphertext ∧ s.confirmed "ada" secret := by
  obtain ⟨f, hf, hp⟩ := Option.map_eq_some_iff.1 h
  obtain ⟨hc, hcon⟩ := Prod.mk.inj hp
  exact ⟨f.secret, hc, f, hf, rfl, by rw [hcon]; exact Option.some_ne_none _⟩

/-- Two enrolments and a confirmation.  The second secret is stored before the first is
confirmed, and the confirmation of the first confirms the second.  And it is stored behind the
confirmation by an enrolment that has looked before, and the factor is switched off. -/
theorem second_factor_swapped :
    (∃ crew crew', Crew.Reachable (@factorCalls plainText sampleVault).ledger (fun _ _ _ => True)
        (factorTables, []) crew ∧
      Crew.Step (@factorCalls plainText sampleVault).ledger (fun _ _ _ => True) crew crew' ∧
      sampleFactor crew'.shared.1 = some ("second", some 1) ∧
      ¬ @FactorStep sampleVault crew.shared.1 crew'.shared.1 crew.processes) ∧
    ∃ crew crew', Crew.Reachable (@factorCalls plainText sampleVault).ledger (fun _ _ _ => True)
        (factorTables, []) crew ∧
      Crew.Step (@factorCalls plainText sampleVault).ledger (fun _ _ _ => True) crew crew' ∧
      sampleFactor crew.shared.1 = some ("first", some 1) ∧
      sampleFactor crew'.shared.1 = some ("second", none) ∧
      ¬ @FactorStep sampleVault crew.shared.1 crew'.shared.1 crew.processes := by
  have hs : ((Crew.play (@factorCalls plainText sampleVault).ledger (fun _ _ _ => True)
      ⟨(factorTables, []), []⟩ (.start (sampleEnrolment "first") :: factorMoves 0 6 ++
        .start sampleConfirmation :: factorMoves 0 3 ++
        .start (sampleEnrolment "second") :: factorMoves 0 6)).bind fun crew =>
      (Crew.turn (@factorCalls plainText sampleVault).ledger (fun _ _ _ => True) crew (.move 1 {})).bind
        fun crew' => some ((crew, crew'), sampleFactor crew.shared.1, crew.processes.all noSecondCode,
          sampleFactor crew'.shared.1)).map Prod.snd =
        some (some ("second", none), true, some ("second", some 1)) := by decide +kernel
  have hd : ((Crew.play (@factorCalls plainText sampleVault).ledger (fun _ _ _ => True)
      ⟨(factorTables, []), []⟩ (.start (sampleEnrolment "second") :: factorMoves 0 3 ++
        .start (sampleEnrolment "first") :: factorMoves 0 6 ++
        .start sampleConfirmation :: factorMoves 0 5)).bind fun crew =>
      (Crew.turn (@factorCalls plainText sampleVault).ledger (fun _ _ _ => True) crew (.move 2 {})).bind
        fun crew' => some ((crew, crew'), sampleFactor crew.shared.1, sampleFactor crew'.shared.1)).map
        Prod.snd = some (some ("first", some 1), some ("second", none)) := by decide +kernel
  obtain ⟨_, hrun, hres⟩ := Option.map_eq_some_iff.1 hs
  obtain ⟨crew, hcrew, hrun⟩ := Option.bind_eq_some_iff.1 hrun
  obtain ⟨crew', ht, hrun⟩ := Option.bind_eq_some_iff.1 hrun
  obtain rfl := Option.some.inj hrun
  obtain ⟨hb, hn, ha⟩ :
      sampleFactor crew.shared.1 = some ("second", none) ∧ crew.processes.all noSecondCode = true ∧
        sampleFactor crew'.shared.1 = some ("second", some 1) := by simpa using hres
  obtain ⟨_, hrun₂, hresult₂⟩ := Option.map_eq_some_iff.1 hd
  obtain ⟨crew₂, hcrew₂, hrun₂⟩ := Option.bind_eq_some_iff.1 hrun₂
  obtain ⟨crew₂', hturn₂, hrun₂⟩ := Option.bind_eq_some_iff.1 hrun₂
  obtain rfl := Option.some.inj hrun₂
  obtain ⟨hbefore₂, hafter₂⟩ : sampleFactor crew₂.shared.1 = some ("first", some 1) ∧
      sampleFactor crew₂'.shared.1 = some ("second", none) := by simpa using hresult₂
  refine ⟨⟨crew, crew', Crew.reachable_of_play hcrew, Crew.step_of_turn ht, ha, fun h => ?_⟩,
    crew₂, crew₂', Crew.reachable_of_play hcrew₂, Crew.step_of_turn hturn₂, hbefore₂, hafter₂, fun h => ?_⟩
  · obtain ⟨secret, hsec, hcon⟩ := confirmed_of_sampleFactor ha
    rcases @FactorStep.confirmed sampleVault _ _ _ h "ada" secret hcon with hcon | ⟨p, hp, hc⟩
    · obtain ⟨at', hat⟩ := sampleFactor_of_confirmed hcon
      rw [hb] at hat
      exact nomatch congrArg (Option.map Prod.snd) hat
    · obtain ⟨id, code, now, later, hr, hv, -⟩ := hc
      have ho := List.all_eq_true.1 hn p hp
      rw [noSecondCode, hr] at ho
      have hc : code = if secret.ciphertext = "first" then "111111" else "222222" :=
        of_decide_eq_true (Except.ok.inj hv)
      rw [hsec, if_neg (by decide)] at hc
      exact of_decide_eq_true ho hc
  · obtain ⟨secret, -, hcon⟩ := confirmed_of_sampleFactor hbefore₂
    rcases @FactorStep.kept sampleVault _ _ _ h "ada" secret hcon with hcon | ⟨hnone, -⟩
    · obtain ⟨at', hat⟩ := sampleFactor_of_confirmed hcon
      rw [hafter₂] at hat
      exact nomatch congrArg (Option.map Prod.snd) hat
    · rw [sampleFactor, hnone] at hafter₂
      cases hafter₂

end Flowdular.Auth
