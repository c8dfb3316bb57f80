/-
# Failed sign-ins

`src/modules/auth/src/services/auth-service.ts`, lines 309-311, 790-841 (`signIn`) and 903-928
(`#recordFailure`); `database-repository.ts`, lines 2348-2426 (`findSignInFailure`,
`recordSignInFailure`, `clearSignInFailures`).

Attempts to sign in take turns statement by statement.  A failure is counted in a transaction of
three statements: the rows past the retention are dropped, the row of the address is read, and it
is written with absolute values.  At read committed each statement sees what is committed; a row
that a transaction drops is held until it ends, and the statements of others that would write it
wait.  The account, the derivation of the password and the clock are answers.
-/

import Flowdular.Auth.SignIn
import Flowdular.Lib.Crew
import Flowdular.Lib.Table

namespace Flowdular.Auth

open Lib

/-- `LOCK_THRESHOLD`. -/
def lockThreshold : ℕ := 5

/-- `LOCK_MS`. -/
def lockMs : ℤ := 15 * 60 * 1000

/-- `FAILURE_RETENTION_MS`. -/
def failureRetentionMs : ℤ := 24 * 60 * 60 * 1000

/-- A row of `auth_sign_in_failures`. -/
structure SignInFailureRow where
  emailNormalized : String
  failures : ℕ
  lockedUntil : Option ℤ
  updatedAt : ℤ
deriving DecidableEq

structure SignInFailureRecord where
  failures : ℕ
  lockedUntil : Option ℤ
deriving DecidableEq

/-- What happened to the failures of an address: one was recorded, a success cleared them, or the
retention dropped them. -/
inductive Mark
  | failed (email : String) (now : ℤ)
  | cleared (email : String)
  | dropped (emails : List String)
deriving DecidableEq

/-- The failures, the addresses whose rows are held by transactions, and the clock.  The marks, the
newest first, are a history variable: nothing reads them. -/
structure FailureTable where
  rows : List SignInFailureRow := []
  held : List String := []
  clock : ℤ := 0
  marks : List Mark := []

/-- The row of an address. -/
def failureRow (rows : List SignInFailureRow) (email : String) : Option SignInFailureRow :=
  rows.find? fun row => row.emailNormalized = email

/-- What a query finds of a row. -/
def SignInFailureRow.record (row : SignInFailureRow) : SignInFailureRecord :=
  ⟨row.failures, row.lockedUntil⟩

def findSignInFailure (rows : List SignInFailureRow) (email : String) : Option SignInFailureRecord :=
  (failureRow rows email).map (·.record)

/-- The address is locked at a time. -/
def lockedAt (failure : Option SignInFailureRecord) (now : ℤ) : Bool :=
  match failure.bind (·.lockedUntil) with
  | some lockedUntil => now < lockedUntil
  | none => false

/-- The addresses whose rows a deletion takes. -/
def staleFailures (rows : List SignInFailureRow) (before : ℤ) : List String :=
  (rows.filter fun row => row.updatedAt < before).map (·.emailNormalized)

/-- What a transaction sees behind its deletion. -/
def undropped (rows : List SignInFailureRow) (dropped : List String) : List SignInFailureRow :=
  rows.filter fun row => row.emailNormalized ∉ dropped

/-- One failure more. -/
def countFailure (previous : Option SignInFailureRecord) (now : ℤ) : SignInFailureRecord :=
  let failures := (previous.map (·.failures)).getD 0 + 1
  ⟨failures,
    if lockThreshold ≤ failures then some (now + lockMs) else previous.bind (·.lockedUntil)⟩

/-- The row that is written of it. -/
def countedRow (email : String) (record : SignInFailureRecord) (now : ℤ) : SignInFailureRow where
  emailNormalized := email
  failures := if lockThreshold ≤ record.failures then 0 else record.failures
  lockedUntil := record.lockedUntil
  updatedAt := now

/-- An attempt to sign in: it reads the clock, then the failures of the address; it waits for the
account and the derivation; and it counts its failure or clears the failures.  `begun` is a history
variable, the marks there were when it began. -/
inductive Attempt
  | asked (input : SignInInput) (now : ℤ) (begun : List Mark)
  | checking (input : SignInInput) (now : ℤ) (begun : List Mark)
  | failed (email : String) (account : Option AccountCredential)
  | recording (email : String) (account : Option AccountCredential) (now : ℤ)
  | pruned (email : String) (account : Option AccountCredential) (now : ℤ) (dropped : List String)
  | read (email : String) (account : Option AccountCredential) (now : ℤ) (dropped : List String)
      (previous : Option SignInFailureRecord)
  | recorded (email : String) (account : Option AccountCredential) (record : SignInFailureRecord)
  | clearing (email : String)
  | cleared (email : String)
  | refused (email : String)

/-- The rows that a transaction of an attempt has dropped. -/
def Attempt.drops : Attempt → List String
  | .pruned _ _ _ dropped => dropped
  | .read _ _ _ dropped _ => dropped
  | _ => []

/-- What a move leaves open: the time it takes, the account that is found, and whether the password
is that of the account. -/
structure AttemptChoice where
  elapsed : ℕ := 0
  account : Option AccountCredential := none
  valid : Bool := false

/-- The table a while later. -/
def FailureTable.later (s : FailureTable) (elapsed : ℕ) : FailureTable :=
  { s with clock := s.clock + elapsed }

/-- The password that is checked lets the account in. -/
def letsIn (valid : Bool) : Option AccountCredential → Bool
  | none => false
  | some account =>
    account.passwordHash ≠ unusablePasswordHash && valid && account.status = .active

/-- `DELETE FROM auth_sign_in_failures WHERE updated_at < …`, which waits for the rows that others
hold. -/
def dropStale (s : FailureTable) (email : String) (account : Option AccountCredential) (now : ℤ) :
    Option (FailureTable × Attempt) :=
  let dropped := staleFailures s.rows (now - failureRetentionMs)
  if dropped.any (· ∈ s.held) then none
  else some ({ s with held := dropped ++ s.held }, .pruned email account now dropped)

/-- The write of `recordSignInFailure` and the end of its transaction; the write waits where another
transaction holds the row. -/
def writeFailure (s : FailureTable) (email : String) (account : Option AccountCredential) (now : ℤ)
    (dropped : List String) (previous : Option SignInFailureRecord) :
    Option (FailureTable × Attempt) :=
  if email ∈ s.held ∧ email ∉ dropped then none
  else
    let record := countFailure previous now
    some ({ s with
      rows := Table.upsert (·.emailNormalized) (countedRow email record now) (undropped s.rows dropped)
      held := s.held.filter (· ∉ dropped)
      marks := .failed email now :: .dropped dropped :: s.marks }, .recorded email account record)

/-- `clearSignInFailures`, which waits where a transaction holds the row. -/
def clearFailures (s : FailureTable) (email : String) : Option (FailureTable × Attempt) :=
  if email ∈ s.held then none
  else some ({ s with
    rows := s.rows.filter fun row => row.emailNormalized ≠ email
    marks := .cleared email :: s.marks }, .cleared email)

/-- What an attempt does next. -/
def attemptNext (s : FailureTable) : Attempt → AttemptChoice → Option (FailureTable × Attempt)
  | .asked input now begun, _ =>
    some (s, if lockedAt (findSignInFailure s.rows input.email) now then .refused input.email
      else .checking input now begun)
  | .checking input _ _, c =>
    some (s, if letsIn c.valid c.account then .clearing input.email
      else .failed input.email c.account)
  | .failed email account, _ => some (s, .recording email account s.clock)
  | .recording email account now, _ => dropStale s email account now
  | .pruned email account now dropped, _ =>
    some (s, .read email account now dropped (findSignInFailure (undropped s.rows dropped) email))
  | .read email account now dropped previous, _ => writeFailure s email account now dropped previous
  | .clearing email, _ => clearFailures s email
  | .recorded .., _ => none
  | .cleared _, _ => none
  | .refused _, _ => none

variable [AuthText]

/-- The attempts of any number of processes; one that stops leaves its transaction undone. -/
def signInAttempts : Machine FailureTable Attempt SignInInput AttemptChoice where
  enter s raw :=
    match validateSignIn raw with
    | .ok input => some (.asked input s.clock s.marks)
    | .error _ => none
  next s p c := attemptNext (s.later c.elapsed) p c
  stop s p := { s with held := s.held.filter (· ∉ p.drops) }

/-! ### What the marks say -/

/-- The failures of an address since the last success or retention gap. -/
def failuresSince : List Mark → String → ℕ
  | [], _ => 0
  | .failed e _ :: marks, email =>
    if e = email then failuresSince marks email + 1 else failuresSince marks email
  | .cleared e :: marks, email => if e = email then 0 else failuresSince marks email
  | .dropped emails :: marks, email => if email ∈ emails then 0 else failuresSince marks email

/-- Until when the failures of an address lock it: the last that fills up a threshold does, for
`LOCK_MS` from the time it was recorded. -/
def lockOf : List Mark → String → Option ℤ
  | [], _ => none
  | .failed e now :: marks, email =>
    if e = email ∧ lockThreshold ∣ failuresSince marks email + 1 then some (now + lockMs)
    else lockOf marks email
  | .cleared e :: marks, email => if e = email then none else lockOf marks email
  | .dropped emails :: marks, email => if email ∈ emails then none else lockOf marks email

end Flowdular.Auth
