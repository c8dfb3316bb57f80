/-
# Cron expressions and their next slot

`src/modules/automations/src/domain/cron.ts`.

A zone is its offset from UTC at every instant, in milliseconds, which is all that
`Intl.DateTimeFormat` is asked for; dates are those of the proleptic Gregorian calendar, and years
below 100, which `Date.UTC` reads as years of the last century, are left out.  The `while` of the search
counts its turns, of which there are enough (`search_spec`).
-/

import Flowdular.Lib.Civil
import Flowdular.Workflows.Text
import Mathlib.Data.List.Sort

namespace Flowdular.Automations

open Lib Workflows

/-! ### Expressions -/

def MAX_CRON_LENGTH : ℕ := 100

def MAX_FIELD_ITEMS : ℕ := 32

def MAX_SEARCH_DAYS : ℕ := 1500

def DAY_MS : ℤ := 86400000

/-- `InvalidCronError`, as its text. -/
def invalidCronError (detail : String) : String :=
  s!"InvalidCronError: Cron expression is invalid: {detail}"

structure CronFields where
  minutes : List ℕ
  hours : List ℕ
  daysOfMonth : List ℕ
  months : List ℕ
  daysOfWeek : List ℕ
  dayUnion : Bool
deriving DecidableEq

def MONTH_NAMES : List String :=
  ["jan", "feb", "mar", "apr", "may", "jun", "jul", "aug", "sep", "oct", "nov", "dec"]

def WEEKDAY_NAMES : List String :=
  ["sun", "mon", "tue", "wed", "thu", "fri", "sat"]

structure FieldSpec where
  name : String
  min : ℕ
  max : ℕ
  names : List String := []

/-- The first of `SPECS`. -/
def minuteSpec : FieldSpec where
  name := "minute"
  min := 0
  max := 59

/-- The second of `SPECS`. -/
def hourSpec : FieldSpec where
  name := "hour"
  min := 0
  max := 23

/-- The third of `SPECS`. -/
def dayOfMonthSpec : FieldSpec where
  name := "day of month"
  min := 1
  max := 31

/-- The fourth of `SPECS`. -/
def monthSpec : FieldSpec where
  name := "month"
  min := 1
  max := 12
  names := MONTH_NAMES

/-- The last of `SPECS`. -/
def dayOfWeekSpec : FieldSpec where
  name := "day of week"
  min := 0
  max := 7
  names := WEEKDAY_NAMES

/-- The number of a text that is one digit or two. -/
def twoDigits (raw : List Char) : Option ℕ :=
  if (raw.length = 1 || raw.length = 2) && raw.all isDigit then
    some (Nat.ofDigitChars 10 raw 0)
  else none

def fieldValue (raw : List Char) (spec : FieldSpec) : Except String ℕ :=
  let name := spec.name
  let least := spec.min
  let greatest := spec.max
  match spec.names.findIdx? fun known => known.toList = raw with
  | some named => .ok (named + spec.min)
  | none =>
    match twoDigits raw with
    | none => .error (invalidCronError s!"{name} has an unsupported value")
    | some value =>
      if value < least ∨ greatest < value then
        .error (invalidCronError s!"{name} must be between {least} and {greatest}")
      else .ok value

/-- The step behind a slash. -/
def fieldStep (raw : List Char) (spec : FieldSpec) : Except String ℕ :=
  let name := spec.name
  match twoDigits raw with
  | none => .error (invalidCronError s!"{name} has an unsupported step")
  | some step =>
    if step < 1 ∨ spec.max - spec.min + 1 < step then
      .error (invalidCronError s!"{name} has an unsupported step")
    else .ok step

/-- The bounds of an item: a star, a number, or a range. -/
def fieldBounds (raw : List Char) (stepped : Bool) (spec : FieldSpec) : Except String (ℕ × ℕ) :=
  let name := spec.name
  if raw = ['*'] then .ok (spec.min, spec.max)
  else
    match raw.splitOn '-' with
    | [single] => do
      let value ← fieldValue single spec
      -- a single value with a step would silently mean `value to max`
      if stepped then .error (invalidCronError s!"{name} needs a range or * before a step")
      else return (value, value)
    | [low, high] => do
      let first ← fieldValue low spec
      let last ← fieldValue high spec
      if last < first then .error (invalidCronError s!"{name} range runs backwards")
      else return (first, last)
    | _ => .error (invalidCronError s!"{name} has an unsupported range")

/-- The values from one bound to the other. -/
def stepValues (bounds : ℕ × ℕ) (step : ℕ) : List ℕ :=
  List.range' bounds.1 ((bounds.2 - bounds.1) / step + 1) step

/-- The values of an item. -/
def itemValues (item : List Char) (spec : FieldSpec) : Except String (List ℕ) :=
  let name := spec.name
  match item.splitOn '/' with
  | [] :: _ => .error (invalidCronError s!"{name} has an unsupported value")
  | [bounds] => do
    let bounds ← fieldBounds bounds false spec
    return stepValues bounds 1
  | [bounds, step] => do
    let step ← fieldStep step spec
    let bounds ← fieldBounds bounds true spec
    return stepValues bounds step
  | _ => .error (invalidCronError s!"{name} has an unsupported value")

/-- A set of numbers, sorted. -/
def sortedSet (values : List ℕ) : List ℕ :=
  values.eraseDups.insertionSort (· ≤ ·)

def parseField (raw : List Char) (spec : FieldSpec) : Except String (List ℕ) := do
  let name := spec.name
  let items := raw.splitOn ','
  if MAX_FIELD_ITEMS < items.length then .error (invalidCronError s!"{name} lists too many values")
  else do
    let values ← items.mapM fun item => itemValues item spec
    return sortedSet values.flatten

/-- `toLowerCase`; a letter that is none of ASCII is in no field either way. -/
def lowerChars (cs : List Char) : List Char :=
  cs.map Char.toLower

/-- The words of a trimmed text, `split(/\s+/)`. -/
def splitSpaces (cs : List Char) : List (List Char) :=
  if cs = [] then [[]] else (cs.splitOnP isWhiteSpace).filter (· ≠ [])

def parseCron (expression : String) : Except String CronFields :=
  if MAX_CRON_LENGTH < utf16Length expression then .error (invalidCronError "it is too long")
  else
    match splitSpaces (lowerChars (trimChars expression.toList)) with
    | [minute, hour, dayOfMonth, month, dayOfWeek] => do
      let minutes ← parseField minute minuteSpec
      let hours ← parseField hour hourSpec
      let daysOfMonth ← parseField dayOfMonth dayOfMonthSpec
      let months ← parseField month monthSpec
      let daysOfWeek ← parseField dayOfWeek dayOfWeekSpec
      return {
        minutes, hours, daysOfMonth, months
        -- Sunday is both 0 and 7
        daysOfWeek := sortedSet (daysOfWeek.map fun day => if day = 7 then 0 else day)
        dayUnion := dayOfMonth.head? ≠ some '*' && dayOfWeek.head? ≠ some '*' }
    | _ => .error (invalidCronError "it needs five fields")

/-! ### Wall time -/

structure WallTime where
  year : ℤ
  month : ℕ
  day : ℕ
  hour : ℕ
  minute : ℕ
deriving DecidableEq

/-- The offset of a zone from UTC. -/
abbrev Zone :=
  ℤ → ℤ

/-- `Date.UTC` of a date, in days. -/
def WallTime.days (wall : WallTime) : ℤ :=
  Civil.toDays wall.year wall.month wall.day

/-- `partsOf`: the wall time at an instant, and its second. -/
def partsOf (instant : ℤ) (zone : Zone) : WallTime × ℕ :=
  let wallMs := instant + zone instant
  let date := Civil.ofDays (wallMs / DAY_MS)
  let rest := (wallMs % DAY_MS).toNat
  ({ year := date.year, month := date.month, day := date.day
     hour := rest / 3600000, minute := rest % 3600000 / 60000 }, rest % 60000 / 1000)

def asUtc (wall : WallTime) (second : ℕ) : ℤ :=
  wall.days * DAY_MS + wall.hour * 3600000 + wall.minute * 60000 + second * 1000

def offsetAt (instant : ℤ) (zone : Zone) : ℤ :=
  let parts := partsOf instant zone
  asUtc parts.1 parts.2 - instant / 1000 * 1000

def instantOf (wall : WallTime) (zone : Zone) : Option ℤ :=
  let wallMs := asUtc wall 0
  let before := wallMs - offsetAt (wallMs - DAY_MS) zone
  let behind := wallMs - offsetAt (wallMs + DAY_MS) zone
  (if before = behind then [before] else [before, behind]).foldl (fun resolved candidate =>
    if resolved.any (· ≤ candidate) then resolved
    else if (partsOf candidate zone).1 = wall then some candidate
    else resolved) none

/-- `daysInMonth`: the day before the first one of the next month. -/
def daysInMonth (year : ℤ) (month : ℕ) : ℕ :=
  (Civil.ofDays (Civil.toDays year (month + 1) 0)).day

/-- `weekdayOf`; the days are counted from a Thursday. -/
def weekdayOf (wall : WallTime) : ℕ :=
  ((wall.days + 4) % 7).toNat

def dayMatches (fields : CronFields) (wall : WallTime) : Bool :=
  let byDate := fields.daysOfMonth.contains wall.day
  let byWeekday := fields.daysOfWeek.contains (weekdayOf wall)
  if fields.dayUnion then byDate || byWeekday else byDate && byWeekday

def nextMonth (wall : WallTime) : WallTime :=
  if 12 < wall.month + 1 then { year := wall.year + 1, month := 1, day := 1, hour := 0, minute := 0 }
  else { year := wall.year, month := wall.month + 1, day := 1, hour := 0, minute := 0 }

def nextDay (wall : WallTime) : WallTime :=
  if daysInMonth wall.year wall.month < wall.day + 1 then nextMonth wall
  else { wall with day := wall.day + 1, hour := 0, minute := 0 }

def nextHour (wall : WallTime) : WallTime :=
  if 23 ≤ wall.hour then nextDay wall else { wall with hour := wall.hour + 1, minute := 0 }

def nextMinute (wall : WallTime) : WallTime :=
  if 59 < wall.minute + 1 then nextHour { wall with minute := 0 } else { wall with minute := wall.minute + 1 }

/-! ### The search -/

/-- The days behind a move within a day, or into the next one. -/
def daysAt (days : ℕ) (wall next : WallTime) : ℕ :=
  if next.day ≠ wall.day then days + 1 else days

/-- The `while` of `nextCronSlot`, for a number of turns. -/
def search (fields : CronFields) (after : ℤ) (zone : Zone) : ℕ → WallTime → ℕ → Option ℤ
  | 0, _, _ => none
  | turns + 1, wall, days =>
    if MAX_SEARCH_DAYS < days then none
    else if ¬ fields.months.contains wall.month then
      search fields after zone turns (nextMonth wall) (days + (daysInMonth wall.year wall.month - wall.day + 1))
    else if ¬ dayMatches fields wall then search fields after zone turns (nextDay wall) (days + 1)
    else if ¬ fields.hours.contains wall.hour then
      search fields after zone turns (nextHour wall) (daysAt days wall (nextHour wall))
    else if ¬ fields.minutes.contains wall.minute then
      search fields after zone turns (nextMinute wall) (daysAt days wall (nextMinute wall))
    else
      match (instantOf wall zone).filter fun instant => after < instant with
      | some instant => some instant
      | none => search fields after zone turns (nextMinute wall) (daysAt days wall (nextMinute wall))

/-- The turns of a search that stops at every minute of its days. -/
def searchTurns : ℕ :=
  (MAX_SEARCH_DAYS + 1) * 1440 + 1

def nextCronSlot (fields : CronFields) (after : ℤ) (zone : Zone) : Option ℤ :=
  search fields after zone searchTurns (nextMinute (partsOf after zone).1) 0

end Flowdular.Automations
