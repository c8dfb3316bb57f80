/-
# Metered usage

`src/modules/metering/src/services/metering-service.ts`, lines 46-69 (`utcDay`, `thresholdPoint`),
119-175 (`record`), 279-302 (`setLimit`) and 362-440 (`#declared`, `#instant`, `#percent`,
`#notifyThresholds`); `database-repository.ts`, lines 77-168 (the statements), 170-185 (`monthSum`),
250-253 (`monthRange`) and 284-399 (`#monthUsage`, `recordFact`, `claimThresholds`), 452-510
(`setLimit`); `notifications.ts`.

The transaction of `recordFact` is made statement by statement.  A statement reads what is committed
when it is made, and what its own transaction wrote; the rows a transaction wrote or locked are held
from the reply to its statement to its commit, and a statement that needs a row that is held is not
made until then (`Unblocked`).  A process that gives up waiting is one that stops, and what it wrote
is gone.  What a transaction wrote is kept by its process, and passed to the commit.

A day is its year, month and day, which are of fixed width in the text of a column.
-/

import Flowdular.Audit.Repository
import Flowdular.Lib.Civil
import Flowdular.Lib.Record
import Flowdular.Lib.Table

namespace Flowdular.Metering

open Lib Workflows

/-! ### Errors and inputs -/

/-- `MeteringServiceError`, as one text. -/
def meteringServiceError (code message : String) (status : ℕ) : String :=
  s!"{status} {code}: {message}"

/-- `bounded`, which is that of the audit module. -/
def bounded (value field : String) (minimum maximum : ℕ) : Except String String :=
  Audit.bounded value field minimum maximum

def wholeNumber (value : Decimal) (field : String) (maximum : ℕ) : Except String {n : ℕ // n ≤ maximum} :=
  let whole := value.mantissa * 10 ^ value.exponent.toNat
  if h : value.isSafeInteger ∧ 0 ≤ whole ∧ whole ≤ maximum then .ok ⟨whole.toNat, by omega⟩
  else
    .error (meteringServiceError "INVALID_INPUT"
      s!"{field} must be a whole number between 0 and {maximum}." 400)

/-- `METER_LIMITS`, as far as it is used. -/
structure MeterLimits where
  key : ℕ := 96
  sourceRef : ℕ := 200
  tenantId : ℕ := 128
  amount : ℕ := 1000000000000
  monthlyLimit : ℕ := 1000000000000
  setBy : ℕ := 128

def METER_LIMITS : MeterLimits := {}

def MAX_INSTANT_MS : ℤ := 8640000000000000

def MAX_SAFE_INTEGER : ℕ := 9007199254740991

/-- The greatest number of a `BIGINT` column. -/
def MAX_BIGINT : ℕ := 9223372036854775807

/-! ### Days and months -/

/-- A month, `YYYY-MM`. -/
structure UtcMonth where
  year : ℕ
  month : ℕ
deriving DecidableEq

/-- A day, `YYYY-MM-DD`. -/
structure UtcDay where
  month : UtcMonth
  day : ℕ
  within : 1 ≤ day ∧ day ≤ 31
deriving DecidableEq

/-- The order of the texts of two days. -/
def UtcDay.le (a b : UtcDay) : Bool :=
  a.month.year < b.month.year || a.month.year = b.month.year &&
    (a.month.month < b.month.month || a.month.month = b.month.month && a.day ≤ b.day)

def monthRange (month : UtcMonth) : UtcDay × UtcDay :=
  (⟨month, 1, by omega⟩, ⟨month, 31, by omega⟩)

/-- `day >= $3 AND day <= $4`, for the range of a month. -/
def inMonth (day : UtcDay) (month : UtcMonth) : Bool :=
  (monthRange month).1.le day && day.le (monthRange month).2

/-- The days of the range of a month are those of the month. -/
theorem inMonth_iff {day : UtcDay} {month : UtcMonth} : inMonth day month = true ↔ day.month = month := by
  obtain ⟨⟨y, m⟩, d, hp, hle⟩ := day
  obtain ⟨y', m'⟩ := month
  rw [UtcMonth.mk.injEq]
  unfold inMonth monthRange UtcDay.le
  simp only [Bool.and_eq_true, Bool.or_eq_true, decide_eq_true_eq]
  constructor
  · intro h
    omega
  · rintro ⟨rfl, rfl⟩
    omega

/-- The milliseconds of a day. -/
def DAY_MS : ℤ := 86400000

/-- `utcDay`: a day whose year has four digits. -/
def utcDay (timestamp : ℤ) : Except String UtcDay :=
  let date := Civil.ofDays (timestamp / DAY_MS)
  if -MAX_INSTANT_MS ≤ timestamp ∧ timestamp ≤ MAX_INSTANT_MS ∧ 0 ≤ date.year ∧ date.year ≤ 9999 then
    .ok ⟨⟨date.year.toNat, date.month⟩, date.day, Civil.day_pos _, Civil.day_le _⟩
  else .error (meteringServiceError "INVALID_INPUT" "The instant is outside the range a UTC day covers." 400)

/-! ### Rows -/

/-- A meter of a workspace. -/
structure MeterKey where
  tenantId : String
  meter : String
deriving DecidableEq

/-- The key of a bucket. -/
structure BucketKey where
  meter : MeterKey
  day : UtcDay
deriving DecidableEq

/-- The bucket is of the meter and the month. -/
def BucketKey.of (k : BucketKey) (meter : MeterKey) (month : UtcMonth) : Bool :=
  k.meter = meter && inMonth k.day month

/-- The key of a fact that is counted once. -/
structure RecordKey where
  meter : MeterKey
  sourceRef : String
deriving DecidableEq

inductive MeterThreshold
  | warning
  | exhausted
deriving DecidableEq

/-- The text of a threshold. -/
def MeterThreshold.text : MeterThreshold → String
  | .warning => "warning"
  | .exhausted => "exhausted"

/-- The key of a notice. -/
structure NoticeKey where
  meter : MeterKey
  month : UtcMonth
  threshold : MeterThreshold
deriving DecidableEq

/-- What `record` counts. -/
structure Fact where
  meter : MeterKey
  day : UtcDay
  amount : ℕ
  sourceRef : Option String
  recordedAt : ℤ
deriving DecidableEq

/-- The bucket of a fact. -/
def Fact.bucket (fact : Fact) : BucketKey :=
  ⟨fact.meter, fact.day⟩

/-- The key a fact is counted once by. -/
def Fact.ref (fact : Fact) : Option RecordKey :=
  fact.sourceRef.map fun sourceRef => ⟨fact.meter, sourceRef⟩

/-- The fact is of the meter and the month. -/
def Fact.of (fact : Fact) (meter : MeterKey) (month : UtcMonth) : Bool :=
  fact.bucket.of meter month

/-- A row of `metering_records`. -/
structure RecordRow where
  key : RecordKey
  day : UtcDay
  amount : ℕ
  recordedAt : ℤ
deriving DecidableEq

/-- The row of a fact that has a source reference. -/
def Fact.row (fact : Fact) : Option RecordRow :=
  fact.ref.map fun key => ⟨key, fact.day, fact.amount, fact.recordedAt⟩

/-- A row of `metering_buckets`. -/
structure BucketRow where
  key : BucketKey
  amount : ℕ
  events : ℕ
  updatedAt : ℤ
deriving DecidableEq

/-- A row of `metering_limits`; a limit is a whole number within its bounds. -/
structure LimitRow where
  meter : MeterKey
  monthlyLimit : ℕ
  setBy : String
  updatedAt : ℤ
  within : monthlyLimit ≤ METER_LIMITS.monthlyLimit

/-- A row of `metering_limit_events`. -/
structure LimitEvent where
  meter : MeterKey
  monthlyLimit : ℕ
  previousLimit : Option ℕ
  setBy : String
  occurredAt : ℤ

/-- The committed tables.  The facts are no table: they are those whose transaction was committed, in
order. -/
structure MeteringTables where
  records : List RecordRow := []
  buckets : List BucketRow := []
  limits : List LimitRow := []
  limitEvents : List LimitEvent := []
  notices : List NoticeKey := []
  facts : List Fact := []

/-! ### Statements -/

/-- Write a bucket over the one of its key, or beside the others. -/
def writeBucket (row : BucketRow) (buckets : List BucketRow) : List BucketRow :=
  Table.upsert (·.key) row buckets

/-- `SUM(amount)` of the buckets of a month. -/
def monthTotal (buckets : List BucketRow) (meter : MeterKey) (month : UtcMonth) : ℕ :=
  ((buckets.filter fun b => b.key.of meter month).map (·.amount)).sum

def monthSum (total : ℕ) : ℕ :=
  min total MAX_SAFE_INTEGER

/-- What the transaction of `recordFact` returns where it counted its fact, and what it wrote. -/
structure RecordedFact where
  fact : Fact
  row : BucketRow
  limit : Option ℕ
  used : ℕ

namespace MeteringTables

variable (s : MeteringTables)

/-- The bucket of a key. -/
def bucket (k : BucketKey) : Option BucketRow :=
  s.buckets.find? fun b => b.key = k

/-- The usage of a meter in a month. -/
def total (meter : MeterKey) (month : UtcMonth) : ℕ :=
  monthTotal s.buckets meter month

/-- `claimRecord`: nothing is committed under the key. -/
def claimRecord (row : RecordRow) : Bool :=
  !s.records.any fun r => r.key = row.key

/-- `accumulateBucket`: the row as the transaction leaves it. -/
def accumulateBucket (fact : Fact) : Except String BucketRow :=
  let old := s.bucket fact.bucket
  let amount := (old.map (·.amount)).getD 0 + fact.amount
  let events := (old.map (·.events)).getD 0 + 1
  if MAX_BIGINT < amount then .error "error: bigint out of range"
  else .ok ⟨fact.bucket, amount, events, fact.recordedAt⟩

/-- `findLimit`, and `findLimitForUpdate`. -/
def findLimit (meter : MeterKey) : Option ℕ :=
  (s.limits.find? fun l => l.meter = meter).map (·.monthlyLimit)

/-- `#monthUsage`, in a transaction that wrote a bucket. -/
def monthUsage (meter : MeterKey) (month : UtcMonth) (own : BucketRow) : ℕ :=
  monthSum (monthTotal (writeBucket own s.buckets) meter month)

/-- What the transaction of `recordFact` leaves. -/
def commit (recorded : RecordedFact) : MeteringTables :=
  { s with
    records := s.records ++ recorded.fact.row.toList
    buckets := writeBucket recorded.row s.buckets
    facts := s.facts ++ [recorded.fact] }

/-- `setLimit`, behind the read of the previous one. -/
def setLimit (row : LimitRow) (previousLimit : Option ℕ) : MeteringTables :=
  { s with
    limits := Table.upsert (·.meter) row s.limits
    limitEvents := s.limitEvents ++
      [⟨row.meter, row.monthlyLimit, previousLimit, row.setBy, row.updatedAt⟩] }

end MeteringTables

/-- `claimThreshold`, for each of the thresholds; those that were claimed. -/
def claimThresholds (meter : MeterKey) (month : UtcMonth) :
    List MeterThreshold → MeteringTables → List MeterThreshold × MeteringTables
  | [], s => ([], s)
  | threshold :: thresholds, s =>
    if s.notices.contains ⟨meter, month, threshold⟩ then claimThresholds meter month thresholds s
    else
      let rest := claimThresholds meter month thresholds
        { s with notices := s.notices ++ [⟨meter, month, threshold⟩] }
      (threshold :: rest.1, rest.2)

/-! ### Calls -/

/-- `NotificationPublishInput` of a notice. -/
structure ThresholdNotice where
  tenantId : String
  sourceModule : String
  sourceRef : String
  title : String
  body : String
  recipients : List String

/-- A statement, a transaction that is one step, or a question to another module. -/
inductive MeteringCall
  | claimRecord (row : RecordRow)
  | accumulateBucket (fact : Fact)
  | findLimitForUpdate (meter : MeterKey)
  | monthUsage (meter : MeterKey) (month : UtcMonth) (own : BucketRow)
  | commit (recorded : Option RecordedFact)
  | warningPercent
  | claimThresholds (meter : MeterKey) (month : UtcMonth) (thresholds : List MeterThreshold)
  | owners (tenantId : String)
  | publisher
  | publish (notice : ThresholdNotice)
  | findLimit (meter : MeterKey)
  | setLimit (row : LimitRow) (previousLimit : Option ℕ)

/-- What a call answers; a percentage that is no number is none. -/
@[reducible] def MeteringCall.Answer : MeteringCall → Type
  | .claimRecord _ => Bool
  | .accumulateBucket _ => BucketRow
  | .findLimitForUpdate _ => Option ℕ
  | .monthUsage .. => ℕ
  | .warningPercent => Option ℤ
  | .claimThresholds .. => List MeterThreshold
  | .owners _ => List String
  | .publisher => Bool
  | .findLimit _ => Option ℕ
  | _ => Unit

/-- What a call answers that is not asked of the tables, and how it ends: it fails, before or after it
was committed, or it is answered. -/
structure MeteringChoice where
  fails : Option (Bool × String) := none
  percent : Option ℤ := some 80
  owners : List String := []
  publisher : Bool := true

/-- What a call does where it does not fail. -/
def MeteringCall.perform (c : MeteringCall) (choice : MeteringChoice) (s : MeteringTables) :
    Except String c.Answer × MeteringTables :=
  match c with
  | .claimRecord row => (.ok (s.claimRecord row), s)
  | .accumulateBucket fact => (s.accumulateBucket fact, s)
  | .findLimitForUpdate meter => (.ok (s.findLimit meter), s)
  | .monthUsage meter month own => (.ok (s.monthUsage meter month own), s)
  | .commit none => (.ok (), s)
  | .commit (some recorded) => (.ok (), s.commit recorded)
  | .warningPercent => (.ok choice.percent, s)
  | .claimThresholds meter month thresholds =>
    let claimed := Metering.claimThresholds meter month thresholds s
    (.ok claimed.1, claimed.2)
  | .owners _ => (.ok choice.owners, s)
  | .publisher => (.ok choice.publisher, s)
  | .publish _ => (.ok (), s)
  | .findLimit meter => (.ok (s.findLimit meter), s)
  | .setLimit row previousLimit => (.ok (), s.setLimit row previousLimit)

/-- A call, answered. -/
def MeteringCall.serve (c : MeteringCall) (s : MeteringTables) (choice : MeteringChoice) :
    Prog.Reply MeteringCall.Answer c × MeteringTables :=
  match choice.fails with
  | none => c.perform choice s
  | some (kept, error) => (.error error, if kept then (c.perform choice s).2 else s)

/-- A call with its reply. -/
abbrev MeteringEntry :=
  Σ c, Prog.Reply MeteringCall.Answer c

/-- A program of calls. -/
abbrev MeteringService (α : Type) :=
  Prog MeteringCall (Prog.Reply MeteringCall.Answer) α

/-- A call of a program. -/
def meteringCall (c : MeteringCall) : MeteringService c.Answer :=
  Prog.need c

/-! ### Operations -/

structure DeclaredMeter where
  key : String
  label : String
  unit : String

/-- The meters that were declared, and whether the owners of a workspace can be asked for. -/
class MeteringHost where
  resolve : String → Option DeclaredMeter
  hasOwners : Bool

structure MeterRecordInput where
  tenantId : String
  meter : String
  amount : Decimal
  sourceRef : Option String := none
  at? : Option Decimal := none

section

variable [MeteringHost]

def declared (key : String) : Except String DeclaredMeter := do
  let name ← bounded key "meter" 1 METER_LIMITS.key
  match MeteringHost.resolve name with
  | some meter => .ok meter
  | none => .error (meteringServiceError "METER_NOT_DECLARED"
      ("No composed module declared the meter \"" ++ key ++ "\".") 404)

def instant (value : Option Decimal) (now : ℤ) : Except String ℤ :=
  match value with
  | none => .ok now
  | some value =>
    let whole := value.mantissa * 10 ^ value.exponent.toNat
    if ¬ value.isSafeInteger ∨ whole < 0 ∨ MAX_INSTANT_MS < whole then
      .error (meteringServiceError "INVALID_INPUT" "at must be whole epoch milliseconds inside the Date range." 400)
    else .ok whole

/-- What `record` checks before it asks anybody: the meter, and the fact. -/
def prepare (input : MeterRecordInput) (now : ℤ) : Except String (DeclaredMeter × Fact) := do
  let tenantId ← bounded input.tenantId "tenantId" 1 METER_LIMITS.tenantId
  let meter ← declared input.meter
  let amount ← wholeNumber input.amount "amount" METER_LIMITS.amount
  let recordedAt ← instant input.at? now
  let sourceRef ← match input.sourceRef with
    | none => .ok none
    | some sourceRef => some <$> bounded sourceRef "sourceRef" 1 METER_LIMITS.sourceRef
  let day ← utcDay recordedAt
  return (meter, ⟨⟨tenantId, meter.key⟩, day, amount.1, sourceRef, recordedAt⟩)

end

/-- The claim of a fact, where it has a source reference. -/
def claimFact (fact : Fact) : MeteringService Bool :=
  match fact.row with
  | none => .pure true
  | some row => meteringCall (.claimRecord row)

/-- The month a fact is summed over, where the meter has a limit. -/
def usageOf (fact : Fact) (row : BucketRow) (limit : Option ℕ) : MeteringService ℕ :=
  match limit with
  | none => .pure 0
  | some _ => meteringCall (.monthUsage fact.meter fact.day.month row)

/-- What follows the claim of `recordFact`. -/
def countFact (fact : Fact) : MeteringService (Option RecordedFact) := do
  let row ← meteringCall (.accumulateBucket fact)
  let limit ← meteringCall (.findLimitForUpdate fact.meter)
  let used ← usageOf fact row limit
  let _ ← meteringCall (.commit (some ⟨fact, row, limit, used⟩))
  return some ⟨fact, row, limit, used⟩

/-- `recordFact`; a repeat is no fact. -/
def recordFact (fact : Fact) : MeteringService (Option RecordedFact) := do
  let claimed ← claimFact fact
  if claimed then countFact fact
  else do
    let _ ← meteringCall (.commit none)
    return none

/-- `#percent`, of the setting that was read. -/
def percent (value : Option ℤ) : ℕ :=
  (min (max (value.getD 50) 50) 99).toNat

/-- `thresholdPoint`: the quotient of whole numbers below `2 ^ 53` rounds to no other whole number. -/
def thresholdPoint (limit percent : ℕ) : ℕ :=
  (limit * percent + 99) / 100

/-- The usage at which a threshold is reached. -/
def MeterThreshold.point (threshold : MeterThreshold) (limit : ℕ) (setting : Option ℤ) : ℕ :=
  match threshold with
  | .warning => thresholdPoint limit (percent setting)
  | .exhausted => limit

/-- The thresholds a usage has reached. -/
def reached (used limit : ℕ) (setting : Option ℤ) : List MeterThreshold :=
  [.warning, .exhausted].filter fun threshold => threshold.point limit setting ≤ used

/-- The text of a month. -/
def UtcMonth.text (month : UtcMonth) : String :=
  let pad := fun (width n : ℕ) => String.ofList (List.replicate (width - (toString n).length) '0') ++ toString n
  pad 4 month.year ++ "-" ++ pad 2 month.month

/-- The first characters of a text, `clamp`. -/
def clamp (value : String) (limit : ℕ) : String :=
  if limit < utf16Length value then String.ofList (value.toList.take limit) else value

/-- `publishThresholdNotice`, which never rejects. -/
def publishThresholdNotice (notice : ThresholdNotice) : MeteringService Unit :=
  if notice.recipients = [] then .pure ()
  else
    .call .publisher fun
      | .ok true =>
        .call (.publish
          { notice with
            sourceModule := clamp notice.sourceModule 64, sourceRef := clamp notice.sourceRef 200
            title := clamp notice.title 200, body := clamp notice.body 4000
            recipients := (notice.recipients.take 64).map fun recipient => clamp recipient 128 }) fun _ => .pure ()
      | _ => .pure ()

/-- The title of a notice; that of a warning reads the percentage again. -/
def noticeTitle (meter : DeclaredMeter) : MeterThreshold → MeteringService String
  | .exhausted => .pure (meter.label ++ " reached its monthly limit")
  | .warning => do
    let setting ← meteringCall .warningPercent
    return meter.label ++ " passed " ++ toString (percent setting) ++ "% of its monthly limit"

/-- A notice for each threshold that was claimed. -/
def publishNotices (meter : DeclaredMeter) (fact : Fact) (used limit : ℕ) (owners : List String) :
    List MeterThreshold → MeteringService Unit
  | [] => .pure ()
  | threshold :: thresholds => do
    let title ← noticeTitle meter threshold
    let month := fact.day.month.text
    publishThresholdNotice
      { tenantId := fact.meter.tenantId, sourceModule := "metering.core"
        sourceRef := meter.key ++ ":" ++ month ++ ":" ++ threshold.text, title
        body := toString used ++ " of " ++ toString limit ++ " " ++ meter.unit ++ " used in " ++ month ++ "."
        recipients := owners }
    publishNotices meter fact used limit owners thresholds

section

variable [MeteringHost]

/-- The owners are told of what was claimed. -/
def tellOwners (meter : DeclaredMeter) (fact : Fact) (used limit : ℕ) (claimed : List MeterThreshold) :
    MeteringService Unit :=
  if claimed = [] ∨ MeteringHost.hasOwners = false then .pure ()
  else do
    let owners ← meteringCall (.owners fact.meter.tenantId)
    publishNotices meter fact used limit owners claimed

def notifyThresholds (meter : DeclaredMeter) (fact : Fact) (used limit : ℕ) : MeteringService Unit := do
  let setting ← meteringCall .warningPercent
  let thresholds := reached used limit setting
  if thresholds = [] then .pure ()
  else do
    let claimed ← meteringCall (.claimThresholds fact.meter fact.day.month thresholds)
    tellOwners meter fact used limit claimed

/-- What follows a fact that was counted; it is let go where it fails. -/
def afterFact (meter : DeclaredMeter) (recorded : Option RecordedFact) : MeteringService Unit :=
  match recorded with
  | some ⟨fact, _, some limit, used⟩ =>
    (notifyThresholds meter fact used limit).orElse fun _ => .pure ()
  | _ => .pure ()

def record (input : MeterRecordInput) (now : ℤ) : MeteringService Unit := do
  let (meter, fact) ← .ofExcept (prepare input now)
  let recorded ← recordFact fact
  afterFact meter recorded

def setLimit (tenantId meter : String) (monthlyLimit : Decimal) (setBy : String) (now : ℤ) :
    MeteringService Unit := do
  let tenantId ← .ofExcept (bounded tenantId "tenantId" 1 METER_LIMITS.tenantId)
  let meter ← .ofExcept (bounded meter "meter" 1 METER_LIMITS.key)
  let monthlyLimit ← .ofExcept (wholeNumber monthlyLimit "monthlyLimit" METER_LIMITS.monthlyLimit)
  let setBy ← .ofExcept (bounded setBy "setBy" 1 METER_LIMITS.setBy)
  let previousLimit ← meteringCall (.findLimit ⟨tenantId, meter⟩)
  meteringCall (.setLimit ⟨⟨tenantId, meter⟩, monthlyLimit.1, setBy, now, monthlyLimit.2⟩ previousLimit)

/-- An operation, as its caller makes it. -/
inductive MeteringOperation
  | record (input : MeterRecordInput) (now : ℤ)
  | setLimit (tenantId meter : String) (monthlyLimit : Decimal) (setBy : String) (now : ℤ)

/-- The program of an operation. -/
def MeteringOperation.program : MeteringOperation → MeteringService Unit
  | .record input now => Metering.record input now
  | .setLimit tenantId meter monthlyLimit setBy now => Metering.setLimit tenantId meter monthlyLimit setBy now

/-- An operation and its process. -/
abbrev MeteringProcess :=
  MeteringOperation × Prog.Recorded MeteringCall (Prog.Reply MeteringCall.Answer) Unit

/-- The operations, by any number of callers. -/
def meteringOperations : Machine MeteringTables MeteringProcess MeteringOperation MeteringChoice :=
  (Prog.recorder MeteringOperation.program MeteringCall.serve).signed

end

/-! ### Rows that are held -/

/-- The process is in the transaction of `recordFact`: it goes on, and has not committed. -/
def inTransaction (p : MeteringProcess) : Bool :=
  p.2.running && p.2.history.all fun entry => match entry.1 with | .commit _ => false | _ => true

/-- A row, or a place for one, that one transaction holds at a time. -/
inductive LockedRow
  | record (key : RecordKey)
  | bucket (key : BucketKey)
  | limit (meter : MeterKey)
deriving DecidableEq

/-- The reply gives its transaction the row. -/
def takes (row : LockedRow) (entry : MeteringEntry) : Bool :=
  match entry with
  | ⟨.claimRecord r, .ok true⟩ => row = .record r.key
  | ⟨.accumulateBucket fact, .ok _⟩ => row = .bucket fact.bucket
  | ⟨.findLimitForUpdate meter, .ok (some _)⟩ => row = .limit meter
  | _ => false

/-- The process holds a row. -/
def holds (row : LockedRow) (p : MeteringProcess) : Bool :=
  inTransaction p && p.2.history.any (takes row)

/-- The row a call waits for. -/
def MeteringCall.waitsFor : MeteringCall → Option LockedRow
  | .claimRecord r => some (.record r.key)
  | .accumulateBucket fact => some (.bucket fact.bucket)
  | .findLimitForUpdate meter => some (.limit meter)
  | .setLimit row _ => some (.limit row.meter)
  | _ => none

/-- No other process holds the row the call waits for. -/
def unblocked (others : List MeteringProcess) (p : MeteringProcess) : Bool :=
  match p.2.rest with
  | .call c _ => c.waitsFor.all fun row => others.all fun q => !holds row q
  | _ => true

/-- `unblocked`, as a condition of the machine. -/
def Unblocked : Machine.Condition MeteringTables MeteringProcess :=
  fun _ others p => unblocked others p = true

end Flowdular.Metering
