/-
# Civil dates

The date a number of days from 1970-01-01 falls on, in the proleptic Gregorian calendar.  The
days are cut into eras of 400 years, which are all alike; in an era a year is taken to start
with March, so that the day that is inserted is its last one.  A date has its number of days
(`toDays`), and the two are inverse on the dates there are (`toDays_ofDays`, `ofDays_toDays`).
-/

import Mathlib.Algebra.Group.Int.Defs
import Mathlib.Data.Int.Notation
import Mathlib.Tactic.Common

namespace Flowdular.Lib

/-- A date. -/
structure Civil where
  year : ℤ
  month : ℕ
  day : ℕ
deriving DecidableEq

namespace Civil

/-- The day of its era, from 0000-03-01 on. -/
def dayOfEra (days : ℤ) : ℕ :=
  ((days + 719468) % 146097).toNat

/-- The year of the era a day is in, the year starting with March. -/
def yearOfEra (day : ℕ) : ℕ :=
  (day - day / 1460 + day / 36524 - day / 146096) / 365

/-- The day of its year, from March on. -/
def dayOfYear (day : ℕ) : ℕ :=
  day - (365 * yearOfEra day + yearOfEra day / 4 - yearOfEra day / 100)

/-- The month of a day of its year, counted from March. -/
def monthOfYear (dayOfYear : ℕ) : ℕ :=
  (5 * dayOfYear + 2) / 153

/-- The days before a month, counted from March. -/
def daysBefore (month : ℕ) : ℕ :=
  (153 * month + 2) / 5

/-- The date of a number of days. -/
def ofDays (days : ℤ) : Civil :=
  let day := dayOfEra days
  let month := monthOfYear (dayOfYear day)
  { year := yearOfEra day + (days + 719468) / 146097 * 400 + if month < 10 then 0 else 1
    month := if month < 10 then month + 3 else month - 9
    day := dayOfYear day - daysBefore month + 1 }

/-- A day of its month is one of 31. -/
theorem day_le (days : ℤ) : (ofDays days).day ≤ 31 := by
  unfold ofDays
  dsimp only
  generalize dayOfYear (dayOfEra days) = n
  unfold daysBefore monthOfYear
  omega

theorem day_pos (days : ℤ) : 0 < (ofDays days).day :=
  Nat.succ_pos _

/-! ### Years that start with March -/

/-- The days from 0000-03-01 to the first of March of a year. -/
def yearStart (year : ℤ) : ℤ :=
  365 * year + year / 4 - year / 100 + year / 400

theorem yearStart_next (year : ℤ) :
    yearStart year + 365 ≤ yearStart (year + 1) ∧ yearStart (year + 1) ≤ yearStart year + 366 := by
  unfold yearStart
  omega

theorem yearStart_era (era year : ℤ) :
    yearStart (era * 400 + year) = era * 146097 + yearStart year := by
  unfold yearStart
  omega

theorem yearOfEra_mono {m n : ℕ} (h : m ≤ n) : yearOfEra m ≤ yearOfEra n := by
  unfold yearOfEra
  refine Nat.div_le_div_right ?_
  induction h with
  | refl => exact Nat.le_refl _
  | step _ ih =>
    refine Nat.le_trans ih ?_
    omega

theorem yearOfEra_ends : ∀ year : ℕ, year < 400 → yearOfEra (yearStart year).toNat = year ∧
    yearOfEra ((yearStart (year + 1)).toNat - 1) = year := by
  decide +kernel

/-- The year of a day is the one it falls in: `yearOfEra` is monotone, and right at both ends of a
year. -/
theorem yearOfEra_eq {year n : ℕ} (hy : year < 400) (h : yearStart year ≤ n)
    (h' : n < yearStart (year + 1)) : yearOfEra n = year := by
  obtain ⟨hs, he⟩ := yearOfEra_ends year hy
  have hge : yearOfEra (yearStart year).toNat ≤ yearOfEra n := yearOfEra_mono (by omega)
  have hle : yearOfEra n ≤ yearOfEra ((yearStart (year + 1)).toNat - 1) :=
    yearOfEra_mono (by omega)
  omega

theorem exists_year {n : ℕ} : ∀ {bound : ℕ}, n < yearStart bound →
    ∃ year < bound, yearStart year ≤ n ∧ n < yearStart (year + 1) := by
  intro bound
  induction bound with
  | zero =>
    intro h
    have hz : yearStart ((0 : ℕ) : ℤ) = 0 := rfl
    omega
  | succ bound ih =>
    intro h
    by_cases hlt : n < yearStart bound
    · obtain ⟨year, hy, hn⟩ := ih hlt
      exact ⟨year, by omega, hn⟩
    · exact ⟨bound, by omega, by omega, h⟩

/-- Every day falls in a year. -/
theorem exists_dayOfYear (days : ℤ) : ∃ (year : ℤ) (day : ℕ),
    days + 719468 = yearStart year + day ∧ day < yearStart (year + 1) - yearStart year := by
  have hd : (dayOfEra days : ℤ) = (days + 719468) % 146097 := by
    unfold dayOfEra
    omega
  have hlt : (dayOfEra days : ℤ) < yearStart (400 : ℕ) := by
    have he : yearStart ((400 : ℕ) : ℤ) = 146097 := rfl
    omega
  obtain ⟨year, -, hs, hend⟩ := exists_year hlt
  have he := yearStart_era ((days + 719468) / 146097) year
  have he' := yearStart_era ((days + 719468) / 146097) (year + 1)
  rw [← add_assoc] at he'
  refine ⟨(days + 719468) / 146097 * 400 + year, (dayOfEra days - yearStart year).toNat, ?_, ?_⟩
  · omega
  · omega

theorem daysBefore_le {month : ℕ} (h : month ≤ 11) : daysBefore month ≤ 337 := by
  unfold daysBefore
  omega

/-- The month of a day of its year is the one it falls in. -/
theorem monthOfYear_eq {month n : ℕ} (h : daysBefore month ≤ n)
    (h' : n < daysBefore (month + 1)) : monthOfYear n = month := by
  unfold daysBefore at h h'
  unfold monthOfYear
  omega

theorem monthOfYear_spec {n : ℕ} (h : n ≤ 365) :
    monthOfYear n ≤ 11 ∧ daysBefore (monthOfYear n) ≤ n ∧ n < daysBefore (monthOfYear n + 1) := by
  unfold daysBefore monthOfYear
  omega

/-- The date of a day of a year. -/
def ofParts (year : ℤ) (day : ℕ) : Civil :=
  let month := monthOfYear day
  { year := year + if month < 10 then 0 else 1
    month := if month < 10 then month + 3 else month - 9
    day := day - daysBefore month + 1 }

theorem ofDays_eq {days year : ℤ} {day : ℕ} (h : days + 719468 = yearStart year + day)
    (hlt : day < yearStart (year + 1) - yearStart year) : ofDays days = ofParts year day := by
  obtain ⟨era, he⟩ : ∃ era, era = year / 400 := ⟨_, rfl⟩
  obtain ⟨r, hr⟩ : ∃ r : ℕ, (r : ℤ) = year % 400 := ⟨(year % 400).toNat, by omega⟩
  have hy : year = era * 400 + r := by omega
  have hs : yearStart year = era * 146097 + yearStart r := by
    rw [hy, yearStart_era]
  have hend : yearStart (year + 1) = era * 146097 + yearStart (r + 1) := by
    rw [hy, add_assoc, yearStart_era]
  have hp : 0 ≤ yearStart r := by
    unfold yearStart
    omega
  have hle : yearStart (r + 1) ≤ 146097 := by
    unfold yearStart
    omega
  have hd : (days + 719468) / 146097 = era := by omega
  have hday : (dayOfEra days : ℤ) = yearStart r + day := by
    unfold dayOfEra
    omega
  have hyearOf : yearOfEra (dayOfEra days) = r :=
    yearOfEra_eq (by omega) (by omega) (by omega)
  have hdayOf : dayOfYear (dayOfEra days) = day := by
    unfold dayOfYear
    rw [hyearOf]
    have hpla : yearStart r = 365 * r + r / 4 - r / 100 := by
      unfold yearStart
      omega
    omega
  unfold ofDays ofParts
  dsimp only
  rw [hdayOf, hyearOf, hd, hy]
  simp only [Civil.mk.injEq, and_true]
  omega

/-! ### The number of a date -/

/-- The number of days of a date, whose month may lie past December and whose day past its month. -/
def toDays (year : ℤ) (month day : ℕ) : ℤ :=
  yearStart (year + (month + 9) / 12 - 1) + daysBefore ((month + 9) % 12) + day - 719469

/-- The days of a month. -/
def monthLength (year : ℤ) (month : ℕ) : ℤ :=
  toDays year (month + 1) 1 - toDays year month 1

theorem toDays_day (year : ℤ) (month day : ℕ) :
    toDays year month day = toDays year month 1 + day - 1 := by
  unfold toDays
  omega

/-- Past December comes January. -/
theorem toDays_carry (year : ℤ) (day : ℕ) : toDays year 13 day = toDays (year + 1) 1 day := by
  have hy : year + ((13 : ℕ) + 9) / 12 - 1 = year + 1 + ((1 : ℕ) + 9) / 12 - 1 := by omega
  unfold toDays
  rw [hy]

/-- The last month of a year that starts with March is cut where the next year starts. -/
theorem monthLength_cases {year shifted : ℤ} {month m : ℕ} (h : month ≤ 12)
    (hs : shifted = year + (month + 9) / 12 - 1) (hm : m = (month + 9) % 12) :
    m < 11 ∧ monthLength year month = daysBefore (m + 1) - daysBefore m ∨ m = 11 ∧
        monthLength year month = yearStart (shifted + 1) - yearStart shifted - daysBefore m := by
  unfold monthLength toDays
  rw [← hs, ← hm]
  by_cases hl : m = 11
  · have hy : year + ((month + 1 : ℕ) + 9) / 12 - 1 = shifted + 1 := by omega
    have hmon : (month + 1 + 9) % 12 = 0 := by omega
    have hz : daysBefore 0 = 0 := rfl
    rw [hy, hmon, hz]
    exact Or.inr ⟨hl, by omega⟩
  · have hy : year + ((month + 1 : ℕ) + 9) / 12 - 1 = shifted := by omega
    have hmon : (month + 1 + 9) % 12 = m + 1 := by omega
    rw [hy, hmon]
    exact Or.inl ⟨by omega, by omega⟩

/-- A date that there is. -/
structure Valid (date : Civil) : Prop where
  month_pos : 1 ≤ date.month
  month_le : date.month ≤ 12
  day_pos : 1 ≤ date.day
  day_le : date.day ≤ monthLength date.year date.month

/-- A day of a year is a date that there is, and has its number. -/
theorem ofParts_spec {year : ℤ} {day : ℕ} (hlt : day < yearStart (year + 1) - yearStart year) :
    Valid (ofParts year day) ∧
      toDays (ofParts year day).year (ofParts year day).month (ofParts year day).day =
        yearStart year + day - 719468 := by
  have hn := yearStart_next year
  obtain ⟨hle, hs, he⟩ := monthOfYear_spec (show day ≤ 365 by omega)
  unfold ofParts
  dsimp only
  generalize monthOfYear day = m at *
  have hy : year =
      (year + if m < 10 then 0 else 1) + ((if m < 10 then m + 3 else m - 9 : ℕ) + 9) / 12 - 1 := by
    split_ifs <;> omega
  have hmon : m = ((if m < 10 then m + 3 else m - 9) + 9) % 12 := by
    split_ifs <;> omega
  have hm : 1 ≤ (if m < 10 then m + 3 else m - 9) ∧ (if m < 10 then m + 3 else m - 9) ≤ 12 := by
    split_ifs <;> omega
  refine ⟨⟨hm.1, hm.2, Nat.succ_pos _, ?_⟩, ?_⟩
  · have hd : ((day - daysBefore m + 1 : ℕ) : ℤ) ≤ monthLength
        (year + if m < 10 then 0 else 1) (if m < 10 then m + 3 else m - 9) := by
      rcases monthLength_cases hm.2 hy hmon with ⟨-, h⟩ | ⟨-, h⟩ <;> rw [h] <;> omega
    exact hd
  · unfold toDays
    rw [← hy, ← hmon]
    omega

/-- The date of a day is one that there is. -/
theorem valid_ofDays (days : ℤ) : Valid (ofDays days) := by
  obtain ⟨year, day, h, hlt⟩ := exists_dayOfYear days
  rw [ofDays_eq h hlt]
  exact (ofParts_spec hlt).1

/-- **The number of the date of a day is the day.** -/
theorem toDays_ofDays (days : ℤ) :
    toDays (ofDays days).year (ofDays days).month (ofDays days).day = days := by
  obtain ⟨year, day, h, hlt⟩ := exists_dayOfYear days
  rw [ofDays_eq h hlt, (ofParts_spec hlt).2]
  omega

/-- **The date of the number of a date is the date**, where there is one. -/
theorem ofDays_toDays {date : Civil} (h : Valid date) :
    ofDays (toDays date.year date.month date.day) = date := by
  obtain ⟨year, month, day⟩ := date
  obtain ⟨hm, hm', hd, hd'⟩ := h
  dsimp only at hm hm' hd hd' ⊢
  have hdays : toDays year month day =
    yearStart (year + (month + 9) / 12 - 1) + daysBefore ((month + 9) % 12) + day - 719469 := rfl
  obtain ⟨shifted, hs⟩ : ∃ y : ℤ, y = year + (month + 9) / 12 - 1 := ⟨_, rfl⟩
  obtain ⟨m, hmon⟩ : ∃ m, m = (month + 9) % 12 := ⟨_, rfl⟩
  have hl := monthLength_cases hm' hs hmon
  rw [← hs, ← hmon] at hdays
  have hyea := yearStart_next shifted
  have hb : daysBefore m ≤ 337 := daysBefore_le (by omega)
  have hy : ((daysBefore m + (day - 1) : ℕ) : ℤ) < yearStart (shifted + 1) - yearStart shifted := by
    rcases hl with ⟨hlt, h⟩ | ⟨-, h⟩
    · have hn : daysBefore (m + 1) ≤ 337 := daysBefore_le hlt
      omega
    · omega
  have hin : daysBefore m + (day - 1) < daysBefore (m + 1) := by
    rcases hl with ⟨hlt, h⟩ | ⟨rfl, h⟩
    · omega
    · have hn : daysBefore (11 + 1) = 367 := rfl
      have ht : daysBefore 11 = 337 := rfl
      omega
  have hmonthOf : monthOfYear (daysBefore m + (day - 1)) = m :=
    monthOfYear_eq (Nat.le_add_right _ _) hin
  rw [ofDays_eq (show toDays year month day + 719468 =
    yearStart shifted + (daysBefore m + (day - 1) : ℕ) by omega) hy]
  unfold ofParts
  dsimp only
  rw [hmonthOf]
  simp only [Civil.mk.injEq]
  split_ifs <;> omega

theorem monthLength_ge {month : ℕ} (h : month ≤ 12) (year : ℤ) : 28 ≤ monthLength year month := by
  obtain ⟨shifted, hs⟩ : ∃ y : ℤ, y = year + (month + 9) / 12 - 1 := ⟨_, rfl⟩
  obtain ⟨m, hm⟩ : ∃ m, m = (month + 9) % 12 := ⟨_, rfl⟩
  have hy := yearStart_next shifted
  rcases monthLength_cases h hs hm with ⟨hlt, hl⟩ | ⟨rfl, hl⟩
  · rw [hl]
    unfold daysBefore
    omega
  · have ht : daysBefore 11 = 337 := rfl
    omega

/-- The first day of the month behind one. -/
theorem ofDays_month {month : ℕ} (hp : 1 ≤ month) (h : month ≤ 12) (year : ℤ) :
    ofDays (toDays year (month + 1) 1) =
      if 12 < month + 1 then ⟨year + 1, 1, 1⟩ else ⟨year, month + 1, 1⟩ := by
  split_ifs with hl
  · obtain rfl : month = 12 := by omega
    have hlen := monthLength_ge (show 1 ≤ 12 by omega) (year + 1)
    rw [toDays_carry]
    exact @ofDays_toDays ⟨year + 1, 1, 1⟩ ⟨Nat.le_refl _, by dsimp only; omega, Nat.le_refl _, by dsimp only; omega⟩
  · have hlen := monthLength_ge (show month + 1 ≤ 12 by omega) year
    exact @ofDays_toDays ⟨year, month + 1, 1⟩ ⟨by dsimp only; omega, by dsimp only; omega,
      Nat.le_refl _, by dsimp only; omega⟩

/-- A day of the month of a date. -/
theorem ofDays_in_month {days days' : ℤ} {date : Civil} (h : ofDays days = date)
    (hle : toDays date.year date.month 1 ≤ days') (hlt : days' < toDays date.year (date.month + 1) 1) :
    ofDays days' = { date with day := (days' - toDays date.year date.month 1).toNat + 1 } := by
  have hv : Valid date := h ▸ valid_ofDays days
  obtain ⟨year, month, day⟩ := date
  obtain ⟨hp, hm, -, -⟩ := hv
  dsimp only at hle hlt hp hm ⊢
  obtain ⟨d, hd⟩ : ∃ d : ℕ, d = (days' - toDays year month 1).toNat + 1 := ⟨_, rfl⟩
  have hdays : days' = toDays year month d := by
    rw [toDays_day]
    omega
  rw [hdays]
  have hl : monthLength year month = toDays year (month + 1) 1 - toDays year month 1 := rfl
  have hdate := @ofDays_toDays ⟨year, month, d⟩ ⟨hp, hm, by dsimp only; omega, by dsimp only; omega⟩
  rw [hdate, ← hdays, ← hd]

example : ofDays 0 = ⟨1970, 1, 1⟩ := by decide +kernel

example : ofDays 19782 = ⟨2024, 2, 29⟩ := by decide +kernel

end Civil
end Flowdular.Lib
