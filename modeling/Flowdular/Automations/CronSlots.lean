/-
# What the search of a cron slot finds

The search walks the wall clock by months, days, hours and minutes, and a move passes by no wall time
that matches (`Found.skip`); so it finds the first minute of its 1,500 days that matches and whose
instant lies ahead, or there is none in them (`search_spec`).  A date may be further ahead than that: a
29 February on a given weekday, or the one behind a century that is no leap year.  There the search ends
without a slot although the expression has a date (`no_slot_no_date_exact`), and without the slot there
is (`next_slot_exact`).
-/

import Flowdular.Automations.Cron
import Flowdular.Lib.LocalClock

namespace Flowdular.Automations

open Lib Workflows

/-! ### Wall times as numbers -/

/-- The wall time of a number of minutes. -/
def wallAt (p : ℤ) : WallTime :=
  let date := Civil.ofDays (p / 1440)
  { year := date.year, month := date.month, day := date.day
    hour := (p % 1440).toNat / 60, minute := (p % 1440).toNat % 60 }

section Moves

variable {p q : ℤ}

@[simp] theorem days_wallAt (p : ℤ) : (wallAt p).days = p / 1440 :=
  Civil.toDays_ofDays _

@[simp] theorem hour_wallAt (p : ℤ) : (wallAt p).hour = (p % 1440).toNat / 60 := rfl

@[simp] theorem minute_wallAt (p : ℤ) : (wallAt p).minute = (p % 1440).toNat % 60 := rfl

/-- The date of a wall time is one that there is. -/
theorem valid_wallAt (p : ℤ) : Civil.Valid ⟨(wallAt p).year, (wallAt p).month, (wallAt p).day⟩ :=
  Civil.valid_ofDays (p / 1440)

theorem daysInMonth_eq {month : ℕ} (hp : 1 ≤ month) (h : month ≤ 12) (year : ℤ) :
    (daysInMonth year month : ℤ) = Civil.monthLength year month := by
  have hl := Civil.monthLength_ge h year
  obtain ⟨d, hd⟩ : ∃ d : ℕ, (d : ℤ) = Civil.monthLength year month :=
    ⟨(Civil.monthLength year month).toNat, by omega⟩
  have hdays : Civil.toDays year (month + 1) 0 = Civil.toDays year month d := by
    have hn := Civil.toDays_day year (month + 1) 0
    have ht := Civil.toDays_day year month d
    unfold Civil.monthLength at hd
    omega
  unfold daysInMonth
  rw [hdays, @Civil.ofDays_toDays ⟨year, month, d⟩ ⟨hp, h, by dsimp only; omega, hd.le⟩]
  exact hd

/-- The day behind the month of a wall time. -/
def monthEnd (p : ℤ) : ℤ :=
  Civil.toDays (wallAt p).year ((wallAt p).month + 1) 1

/-- The days that are left of the month. -/
theorem monthEnd_eq (p : ℤ) : monthEnd p =
    p / 1440 + (daysInMonth (wallAt p).year (wallAt p).month - (wallAt p).day + 1 : ℕ) := by
  obtain ⟨hp, hm, hday, hle⟩ := valid_wallAt p
  have hl := daysInMonth_eq hp hm (wallAt p).year
  have hd : Civil.toDays (wallAt p).year (wallAt p).month (wallAt p).day = p / 1440 := days_wallAt p
  have ht := Civil.toDays_day (wallAt p).year (wallAt p).month (wallAt p).day
  unfold monthEnd
  unfold Civil.monthLength at hl hle
  dsimp only at hday hle hl
  omega

theorem nextMonth_wallAt (p : ℤ) : nextMonth (wallAt p) = wallAt (monthEnd p * 1440) := by
  obtain ⟨hp, hm, -, -⟩ := valid_wallAt p
  have hd := Civil.ofDays_month hp hm (wallAt p).year
  have hday : monthEnd p * 1440 / 1440 = monthEnd p := by omega
  have hz : (monthEnd p * 1440 % 1440).toNat = 0 := by omega
  unfold nextMonth
  conv_rhs => unfold wallAt
  rw [hday, hz]
  unfold monthEnd
  rw [hd]
  split_ifs <;> rfl

theorem nextDay_wallAt (p : ℤ) : nextDay (wallAt p) = wallAt ((p / 1440 + 1) * 1440) := by
  obtain ⟨hp, hm, hday, hle⟩ := valid_wallAt p
  have he := monthEnd_eq p
  have hlen := daysInMonth_eq hp hm (wallAt p).year
  dsimp only at hday hle
  unfold nextDay
  split_ifs with hl
  · have hnext : p / 1440 + 1 = monthEnd p := by omega
    rw [nextMonth_wallAt, hnext]
  · have hs := Civil.toDays_day (wallAt p).year (wallAt p).month (wallAt p).day
    have hdays : Civil.toDays (wallAt p).year (wallAt p).month (wallAt p).day = p / 1440 := days_wallAt p
    have hin : p / 1440 + 1 < monthEnd p := by omega
    have hd := @Civil.ofDays_in_month (p / 1440) (p / 1440 + 1)
      ⟨(wallAt p).year, (wallAt p).month, (wallAt p).day⟩ rfl (by dsimp only; omega) hin
    have hnext : (p / 1440 + 1) * 1440 / 1440 = p / 1440 + 1 := by omega
    have hz : ((p / 1440 + 1) * 1440 % 1440).toNat = 0 := by omega
    conv_rhs => unfold wallAt
    rw [hnext, hz, hd]
    dsimp only
    have hn : (p / 1440 + 1 - Civil.toDays (wallAt p).year (wallAt p).month 1).toNat + 1 =
      (wallAt p).day + 1 := by omega
    rw [hn]

theorem nextHour_wallAt (p : ℤ) : nextHour (wallAt p) = wallAt ((p / 60 + 1) * 60) := by
  unfold nextHour
  rw [hour_wallAt]
  split_ifs with hl
  · have hn : (p / 1440 + 1) * 1440 = (p / 60 + 1) * 60 := by omega
    rw [nextDay_wallAt, hn]
  · have hd : (p / 60 + 1) * 60 / 1440 = p / 1440 := by omega
    have hh : ((p / 60 + 1) * 60 % 1440).toNat / 60 = (p % 1440).toNat / 60 + 1 := by omega
    have hm : ((p / 60 + 1) * 60 % 1440).toNat % 60 = 0 := by omega
    unfold wallAt
    dsimp only
    rw [hd, hh, hm]

theorem nextMinute_wallAt (p : ℤ) : nextMinute (wallAt p) = wallAt (p + 1) := by
  unfold nextMinute
  rw [minute_wallAt]
  split_ifs with hl
  · have hn : p + 1 = (p - p % 60) + 60 := by omega
    have hs : { wallAt p with minute := 0 } = wallAt (p - p % 60) := by
      have hd : (p - p % 60) / 1440 = p / 1440 := by omega
      have hh : ((p - p % 60) % 1440).toNat / 60 = (p % 1440).toNat / 60 := by omega
      have hm : ((p - p % 60) % 1440).toNat % 60 = 0 := by omega
      unfold wallAt
      dsimp only
      rw [hd, hh, hm]
    have hb : ((p - p % 60) / 60 + 1) * 60 = p + 1 := by omega
    rw [hs, nextHour_wallAt, hb]
  · have hd : (p + 1) / 1440 = p / 1440 := by omega
    have hh : ((p + 1) % 1440).toNat / 60 = (p % 1440).toNat / 60 := by omega
    have hm : ((p + 1) % 1440).toNat % 60 = (p % 1440).toNat % 60 + 1 := by omega
    unfold wallAt
    dsimp only
    rw [hd, hh, hm]

/-- The next day has another number. -/
theorem day_nextDay (p : ℤ) : (nextDay (wallAt p)).day ≠ (wallAt p).day := by
  obtain ⟨hp, hm, hd, -⟩ := valid_wallAt p
  have hlen := Civil.monthLength_ge hm (wallAt p).year
  have heq := daysInMonth_eq hp hm (wallAt p).year
  dsimp only at hlen heq hd
  unfold nextDay
  split_ifs with hl
  · have ho : (nextMonth (wallAt p)).day = 1 := by
      unfold nextMonth
      split_ifs <;> rfl
    omega
  · exact Nat.succ_ne_self _

/-- Wall times of a day have its date. -/
theorem day_wallAt (h : q / 1440 = p / 1440) : (wallAt q).day = (wallAt p).day ∧ (wallAt q).month = (wallAt p).month := by
  unfold wallAt
  rw [h]
  exact ⟨rfl, rfl⟩

/-- The days are counted right, within a day and into the next one. -/
theorem daysAt_wallAt (days : ℕ) (h : q / 1440 = p / 1440 ∨ q / 1440 = p / 1440 + 1) :
    (daysAt days (wallAt p) (wallAt q) : ℤ) = days + (q / 1440 - p / 1440) := by
  unfold daysAt
  rcases h with h | h
  · rw [if_neg (not_not.2 (day_wallAt h).1)]
    omega
  · have hn : (p / 1440 + 1) * 1440 / 1440 = p / 1440 + 1 := by omega
    have hd : (wallAt q).day = (nextDay (wallAt p)).day := by
      rw [nextDay_wallAt]
      exact (day_wallAt (h.trans hn.symm)).1
    rw [if_pos (by rw [hd]; exact day_nextDay p)]
    omega

end Moves

/-! ### What the search looks for -/

/-- The wall time matches the expression. -/
def Matches (fields : CronFields) (wall : WallTime) : Bool :=
  fields.months.contains wall.month && dayMatches fields wall && fields.hours.contains wall.hour &&
    fields.minutes.contains wall.minute

/-- The minute matches, and its instant lies ahead. -/
def Hit (fields : CronFields) (after : ℤ) (zone : Zone) (p instant : ℤ) : Prop :=
  Matches fields (wallAt p) = true ∧ instantOf (wallAt p) zone = some instant ∧ after < instant

/-- No minute from one to another is a hit. -/
def Missed (fields : CronFields) (after : ℤ) (zone : Zone) (p q : ℤ) : Prop :=
  ∀ r, p ≤ r → r < q → ∀ instant, ¬ Hit fields after zone r instant

/-- The result of a search from a minute on to the end of a day: the first hit, or that there is
none. -/
def Found (fields : CronFields) (after : ℤ) (zone : Zone) (last p : ℤ) : Option ℤ → Prop
  | some instant => ∃ q, p ≤ q ∧ q / 1440 ≤ last ∧ Hit fields after zone q instant ∧ Missed fields after zone p q
  | none => Missed fields after zone p ((last + 1) * 1440)

section Search

variable {fields : CronFields} {after last : ℤ} {zone : Zone} {p q : ℤ}

theorem matches_iff {wall : WallTime} : Matches fields wall = true ↔
    fields.months.contains wall.month = true ∧ dayMatches fields wall = true ∧
      fields.hours.contains wall.hour = true ∧ fields.minutes.contains wall.minute = true := by
  unfold Matches
  rw [Bool.and_eq_true, Bool.and_eq_true, Bool.and_eq_true, and_assoc, and_assoc]

/-- What is passed by without a hit may be searched as well. -/
theorem Found.skip {result : Option ℤ} (hle : p ≤ q) (hm : Missed fields after zone p q)
    (h : Found fields after zone last q result) : Found fields after zone last p result := by
  have hj : ∀ end', Missed fields after zone q end' → Missed fields after zone p end' := by
    intro end' hrest r hr he
    by_cases hlt : r < q
    · exact hm r hr hlt
    · exact hrest r (by omega) he
  cases result with
  | none => exact hj _ h
  | some instant =>
    obtain ⟨r, hr, hl, hh, hrest⟩ := h
    exact ⟨r, by omega, hl, hh, hj _ hrest⟩

/-- A month that is not of the expression has no hit. -/
theorem missed_month (h : ¬ fields.months.contains (wallAt p).month = true) :
    Missed fields after zone p (monthEnd p * 1440) := by
  intro r hr he instant hh
  have hs := Civil.toDays_day (wallAt p).year (wallAt p).month (wallAt p).day
  have hdays : Civil.toDays (wallAt p).year (wallAt p).month (wallAt p).day = p / 1440 := days_wallAt p
  obtain ⟨-, -, hday, -⟩ := valid_wallAt p
  dsimp only at hday
  have hd := @Civil.ofDays_in_month (p / 1440) (r / 1440)
    ⟨(wallAt p).year, (wallAt p).month, (wallAt p).day⟩ rfl (by dsimp only; omega)
    (show r / 1440 < monthEnd p by omega)
  have hm : (wallAt r).month = (wallAt p).month := by
    have hc := congrArg Civil.month hd
    exact hc
  refine h ?_
  rw [← hm]
  exact (matches_iff.1 hh.1).1

/-- A day that does not match has no hit. -/
theorem missed_day (h : ¬ dayMatches fields (wallAt p) = true) :
    Missed fields after zone p ((p / 1440 + 1) * 1440) := by
  intro r hr he instant hh
  have hs : r / 1440 = p / 1440 := by omega
  have hd : dayMatches fields (wallAt r) = dayMatches fields (wallAt p) := by
    unfold dayMatches weekdayOf
    rw [days_wallAt, days_wallAt, (day_wallAt hs).1, hs]
  refine h ?_
  rw [← hd]
  exact (matches_iff.1 hh.1).2.1

/-- An hour that does not match has no hit. -/
theorem missed_hour (h : ¬ fields.hours.contains (wallAt p).hour = true) :
    Missed fields after zone p ((p / 60 + 1) * 60) := by
  intro r hr he instant hhit
  have hh : (wallAt r).hour = (wallAt p).hour := by
    rw [hour_wallAt, hour_wallAt]
    omega
  refine h ?_
  rw [← hh]
  exact (matches_iff.1 hhit.1).2.2.1

theorem missed_minute (h : ∀ instant, ¬ Hit fields after zone p instant) : Missed fields after zone p (p + 1) := by
  intro r hr he
  obtain rfl : r = p := by omega
  exact h

/-- **The search finds the first hit of its days**, if its turns are enough for their minutes. -/
theorem search_spec : ∀ {turns days : ℕ} {p : ℤ}, (days : ℤ) = p / 1440 - (last - MAX_SEARCH_DAYS) →
    (last + 1) * 1440 - p ≤ turns → Found fields after zone last p (search fields after zone turns (wallAt p) days) := by
  intro turns
  induction turns with
  | zero =>
    intro days p _ ht r hr he
    omega
  | succ turns ih =>
    intro days p hd ht
    have he := monthEnd_eq p
    have hhou := daysAt_wallAt (p := p) (q := (p / 60 + 1) * 60) days (by omega)
    have hmin := daysAt_wallAt (p := p) (q := p + 1) days (by omega)
    have hn : (∀ instant, ¬ Hit fields after zone p instant) → Found fields after zone last p
        (search fields after zone turns (nextMinute (wallAt p)) (daysAt days (wallAt p) (nextMinute (wallAt p)))) := by
      intro hmiss
      rw [nextMinute_wallAt]
      exact (ih (by omega) (by omega)).skip (by omega) (missed_minute hmiss)
    rw [search]
    by_cases hl : MAX_SEARCH_DAYS < days
    · rw [if_pos hl]
      intro r hr he
      omega
    rw [if_neg hl]
    by_cases hmon : ¬ fields.months.contains (wallAt p).month = true
    · rw [if_pos hmon, nextMonth_wallAt]
      exact (ih (by omega) (by omega)).skip (by omega) (missed_month hmon)
    rw [if_neg hmon]
    by_cases hday : ¬ dayMatches fields (wallAt p) = true
    · rw [if_pos hday, nextDay_wallAt]
      exact (ih (by omega) (by omega)).skip (by omega) (missed_day hday)
    rw [if_neg hday]
    by_cases hh : ¬ fields.hours.contains (wallAt p).hour = true
    · rw [if_pos hh, nextHour_wallAt]
      exact (ih (by omega) (by omega)).skip (by omega) (missed_hour hh)
    rw [if_neg hh]
    by_cases hm : ¬ fields.minutes.contains (wallAt p).minute = true
    · rw [if_pos hm]
      exact hn fun instant hhit => hm (matches_iff.1 hhit.1).2.2.2
    rw [if_neg hm]
    cases hi : (instantOf (wallAt p) zone).filter fun instant => after < instant with
    | none =>
      refine hn fun instant hhit => ?_
      rw [hhit.2.1, Option.filter_some, if_pos (decide_eq_true hhit.2.2)] at hi
      cases hi
    | some instant =>
      obtain ⟨hf, ha⟩ := Option.filter_eq_some_iff.1 hi
      have hmat : Matches fields (wallAt p) = true :=
        matches_iff.2 ⟨not_not.1 hmon, not_not.1 hday, not_not.1 hh, not_not.1 hm⟩
      refine ⟨p, le_rfl, by omega, ⟨hmat, hf, of_decide_eq_true ha⟩, fun r hr hlt => ?_⟩
      omega

/-- The wall time at an instant. -/
theorem partsOf_wall (instant : ℤ) (zone : Zone) :
    (partsOf instant zone).1 = wallAt ((instant + zone instant) / 60000) := by
  have hd : (instant + zone instant) / 60000 / 1440 = (instant + zone instant) / DAY_MS := by
    unfold DAY_MS
    omega
  have hh : ((instant + zone instant) / 60000 % 1440).toNat / 60 =
      ((instant + zone instant) % DAY_MS).toNat / 3600000 := by
    unfold DAY_MS
    omega
  have hm : ((instant + zone instant) / 60000 % 1440).toNat % 60 =
      ((instant + zone instant) % DAY_MS).toNat % 3600000 / 60000 := by
    unfold DAY_MS
    omega
  unfold partsOf wallAt
  dsimp only
  rw [hd, hh, hm]

/-- The first minute that is searched. -/
def firstMinute (after : ℤ) (zone : Zone) : ℤ :=
  (after + zone after) / 60000 + 1

/-- The last day that is searched. -/
def lastDay (after : ℤ) (zone : Zone) : ℤ :=
  firstMinute after zone / 1440 + MAX_SEARCH_DAYS

/-- **What `nextCronSlot` finds.** -/
theorem nextCronSlot_found : Found fields after zone (lastDay after zone) (firstMinute after zone)
    (nextCronSlot fields after zone) := by
  unfold nextCronSlot
  rw [partsOf_wall, nextMinute_wallAt]
  refine search_spec ?_ ?_
  · unfold lastDay firstMinute
    omega
  · unfold lastDay firstMinute searchTurns MAX_SEARCH_DAYS
    omega

end Search

/-! ### Dates -/

/-- The day matches the fields of the date. -/
def DateMatches (fields : CronFields) (day : ℤ) : Prop :=
  fields.months.contains (wallAt (day * 1440)).month = true ∧ dayMatches fields (wallAt (day * 1440)) = true

instance (fields : CronFields) (day : ℤ) : Decidable (DateMatches fields day) :=
  inferInstanceAs (Decidable (_ ∧ _))

/-- The date at an instant. -/
def today (after : ℤ) (zone : Zone) : ℤ :=
  (after + zone after) / DAY_MS

/-- No slot means that no later date matches. -/
def NoSlotNoDate (fields : CronFields) (after : ℤ) (zone : Zone) : Prop :=
  nextCronSlot fields after zone = none → ∀ day, today after zone < day → ¬ DateMatches fields day

/-- **No slot means no date where the days of the search reach one**: where no date matches, or a wall time
that matches and has its instant ahead lies in the days that are searched. -/
theorem no_slot_no_date_exact (fields : CronFields) (after : ℤ) (zone : Zone) :
    NoSlotNoDate fields after zone ↔
      (∀ day, today after zone < day → ¬ DateMatches fields day) ∨
        ∃ p, firstMinute after zone ≤ p ∧ p / 1440 ≤ lastDay after zone ∧
          ∃ instant, Hit fields after zone p instant := by
  have hf : Found fields after zone (lastDay after zone) (firstMinute after zone)
    (nextCronSlot fields after zone) := nextCronSlot_found
  unfold NoSlotNoDate
  cases hs : nextCronSlot fields after zone with
  | none =>
    rw [hs] at hf
    constructor
    · intro h
      exact .inl (h rfl)
    · rintro (hn | ⟨p, hfir, hl, instant, hh⟩) -
      · exact hn
      · exact absurd hh (hf p hfir (by omega) instant)
  | some instant =>
    rw [hs] at hf
    obtain ⟨p, hfir, hl, hh, -⟩ := hf
    constructor
    · intro _
      exact .inr ⟨p, hfir, hl, instant, hh⟩
    · intro _ h
      cases h

/-- The zone that is UTC. -/
def utc : Zone :=
  fun _ => 0

/-- A Sunday that is a 29 February. -/
def leapSunday : String :=
  "0 0 29 2 */7"

/-- From 1 March 2024 on, the next one is that of 2032, past the days that are searched. -/
theorem no_slot_leapSunday : ∃ fields, parseCron leapSunday = .ok fields ∧
    nextCronSlot fields 1709251200000 utc = none ∧ ¬ NoSlotNoDate fields 1709251200000 utc := by
  have hp : parseCron leapSunday = .ok ⟨[0], [0], [29], [2], [0], false⟩ := by decide +kernel
  have hn : nextCronSlot ⟨[0], [0], [29], [2], [0], false⟩ 1709251200000 utc = none := by decide +kernel
  have hd : today 1709251200000 utc < Civil.toDays 2032 2 29 := by decide +kernel
  have hm : DateMatches ⟨[0], [0], [29], [2], [0], false⟩ (Civil.toDays 2032 2 29) := by decide +kernel
  exact ⟨_, hp, hn, fun h => h hn _ hd hm⟩

/-! ### Slots -/

/-- A zone whose offset is less than a day, in whole minutes, and changes once at most in two days. -/
structure WallClock extends LocalClock where
  day : reach = DAY_MS
  whole : ∀ t, 60000 ∣ offset t

/-- The instant is the first one of a wall time that matches. -/
def Slot (fields : CronFields) (clock : WallClock) (instant : ℤ) : Prop :=
  ∃ p, Matches fields (wallAt p) = true ∧ clock.First (60000 * p) instant

/-- The least slot strictly after an instant, or that there is none. -/
def LeastSlot (fields : CronFields) (after : ℤ) (clock : WallClock) : Option ℤ → Prop
  | some instant => after < instant ∧ Slot fields clock instant ∧
      ∀ other, after < other → Slot fields clock other → instant ≤ other
  | none => ∀ other, after < other → ¬ Slot fields clock other

section Slots

variable {fields : CronFields} {after p t : ℤ} {clock : WallClock}

theorem asUtc_wallAt (p : ℤ) : asUtc (wallAt p) 0 = 60000 * p := by
  unfold asUtc DAY_MS
  rw [days_wallAt, hour_wallAt, minute_wallAt]
  omega

/-- The offset that is read off the wall clock is that of the zone. -/
theorem offsetAt_eq (clock : WallClock) (t : ℤ) : offsetAt t clock.offset = clock.offset t := by
  obtain ⟨k, hk⟩ := clock.whole t
  have hs : (partsOf t clock.offset).2 = ((t + clock.offset t) % DAY_MS).toNat % 60000 / 1000 := rfl
  unfold offsetAt
  dsimp only
  rw [hs, partsOf_wall]
  have hu := asUtc_wallAt ((t + clock.offset t) / 60000)
  unfold asUtc at hu ⊢
  unfold DAY_MS at *
  omega

/-- A candidate is verified where the clock reads the minute. -/
theorem partsOf_eq_iff {value : ℤ} (hw : 60000 ∣ t + clock.offset t) :
    (partsOf t clock.offset).1 = wallAt value ↔ clock.reads t = 60000 * value := by
  have hr : clock.reads t = t + clock.offset t := rfl
  rw [partsOf_wall, hr]
  constructor
  · intro h
    have hu : asUtc (wallAt ((t + clock.offset t) / 60000)) 0 = asUtc (wallAt value) 0 := by rw [h]
    rw [asUtc_wallAt, asUtc_wallAt] at hu
    omega
  · intro h
    have hm : (t + clock.offset t) / 60000 = value := by omega
    rw [hm]

/-- The least candidate that is verified, or what was resolved before. -/
theorem foldl_least {verifies : ℤ → Prop} [DecidablePred verifies] : ∀ {candidates : List ℤ} {resolved result : Option ℤ},
    candidates.foldl (fun resolved candidate =>
      if resolved.any (· ≤ candidate) then resolved
      else if verifies candidate then some candidate
      else resolved) resolved = result →
    (∀ c, result = some c → (resolved = some c ∨ c ∈ candidates ∧ verifies c) ∧ (∀ r, resolved = some r → c ≤ r) ∧
      ∀ other ∈ candidates, verifies other → c ≤ other) ∧
    (result = none → resolved = none ∧ ∀ other ∈ candidates, ¬ verifies other) := by
  intro candidates
  induction candidates with
  | nil =>
    rintro resolved _ rfl
    refine ⟨fun c hc => ⟨.inl hc, fun r hr => ?_, fun _ h => nomatch h⟩, fun h => ⟨h, fun _ h => nomatch h⟩⟩
    exact (Option.some.inj (hc.symm.trans hr)).le
  | cons candidate candidates ih =>
    intro resolved result h
    rw [List.foldl_cons] at h
    obtain ⟨hs, hn⟩ := ih h
    have ha : resolved.any (· ≤ candidate) = true ↔ ∃ r, resolved = some r ∧ r ≤ candidate := by
      cases resolved <;> simp
    split_ifs at hs hn with hb hv
    · obtain ⟨r, rfl, hle⟩ := ha.1 hb
      refine ⟨fun c hc => ?_, fun hres => nomatch (hn hres).1⟩
      obtain ⟨hf, hl, ho⟩ := hs c hc
      refine ⟨hf.imp_right fun hm => ⟨List.mem_cons_of_mem _ hm.1, hm.2⟩, hl,
        List.forall_mem_cons.2 ⟨fun _ => (hl r rfl).trans hle, ho⟩⟩
    · refine ⟨fun c hc => ?_, fun hres => nomatch (hn hres).1⟩
      obtain ⟨hf, hl, ho⟩ := hs c hc
      have hle := hl candidate rfl
      refine ⟨.inr ?_, fun r hr => ?_, List.forall_mem_cons.2 ⟨fun _ => hle, ho⟩⟩
      · rcases hf with heq | hm
        · rw [← Option.some.inj heq]
          exact ⟨List.mem_cons_self, hv⟩
        · exact ⟨List.mem_cons_of_mem _ hm.1, hm.2⟩
      · have hlt : ¬ r ≤ candidate := fun hle => hb (ha.2 ⟨r, hr, hle⟩)
        omega
    · refine ⟨fun c hc => ?_, fun hres => ?_⟩
      · obtain ⟨hf, hl, ho⟩ := hs c hc
        exact ⟨hf.imp_right fun hm => ⟨List.mem_cons_of_mem _ hm.1, hm.2⟩, hl,
          List.forall_mem_cons.2 ⟨fun h => absurd h hv, ho⟩⟩
      · obtain ⟨hresolved, ho⟩ := hn hres
        exact ⟨hresolved, List.forall_mem_cons.2 ⟨hv, ho⟩⟩

/-- A candidate of a wall time is verified where the clock reads it, and every instant at which it does is
a candidate. -/
theorem instantOf_spec (p : ℤ) (clock : WallClock) :
    (∀ t, instantOf (wallAt p) clock.offset = some t → clock.First (60000 * p) t) ∧
      (instantOf (wallAt p) clock.offset = none → ∀ t, clock.reads t ≠ 60000 * p) := by
  obtain ⟨candidates, hc⟩ : ∃ candidates, candidates =
      if 60000 * p - clock.offset (60000 * p - DAY_MS) = 60000 * p - clock.offset (60000 * p + DAY_MS) then
        [60000 * p - clock.offset (60000 * p - DAY_MS)]
      else [60000 * p - clock.offset (60000 * p - DAY_MS), 60000 * p - clock.offset (60000 * p + DAY_MS)] := ⟨_, rfl⟩
  have hmem : ∀ t, clock.reads t = 60000 * p → t ∈ candidates := by
    intro t ht
    have hcas := LocalClock.occurs_cases ht
    rw [clock.day] at hcas
    rw [hc]
    split_ifs with heq
    · rw [List.mem_singleton]
      omega
    · rw [List.mem_cons, List.mem_singleton]
      exact hcas
  have hver : ∀ t ∈ candidates, (partsOf t clock.offset).1 = wallAt p ↔ clock.reads t = 60000 * p := by
    intro t ht
    refine partsOf_eq_iff ?_
    obtain ⟨k, hk⟩ := clock.whole t
    obtain ⟨m, hm⟩ := clock.whole (60000 * p - DAY_MS)
    obtain ⟨n, hn⟩ := clock.whole (60000 * p + DAY_MS)
    have ht' : t = 60000 * p - clock.offset (60000 * p - DAY_MS) ∨
        t = 60000 * p - clock.offset (60000 * p + DAY_MS) := by
      rw [hc] at ht
      split_ifs at ht <;> simp at ht <;> omega
    omega
  have hfold : instantOf (wallAt p) clock.offset = candidates.foldl (fun resolved candidate =>
      if resolved.any (· ≤ candidate) then resolved
      else if (partsOf candidate clock.offset).1 = wallAt p then some candidate
      else resolved) none := by
    unfold instantOf
    dsimp only
    rw [asUtc_wallAt, offsetAt_eq, offsetAt_eq, hc]
  obtain ⟨hs, hnone⟩ := foldl_least hfold.symm
  refine ⟨fun t ht => ?_, fun hres t ht => ?_⟩
  · obtain ⟨hf, -, hl⟩ := hs t ht
    rcases hf with hf | ⟨hf, hv⟩
    · cases hf
    · refine ⟨(hver t hf).1 hv, fun u hu hr => ?_⟩
      have hle := hl u (hmem u hr) ((hver u (hmem u hr)).2 hr)
      omega
  · exact (hnone hres).2 t (hmem t ht) ((hver t (hmem t ht)).2 ht)

/-- **The instant of a wall time is its first one.** -/
theorem instantOf_eq_some_iff : instantOf (wallAt p) clock.offset = some t ↔ clock.First (60000 * p) t := by
  obtain ⟨hs, hn⟩ := instantOf_spec p clock
  constructor
  · exact hs t
  · intro h
    cases hr : instantOf (wallAt p) clock.offset with
    | none => exact absurd h.1 (hn hr t)
    | some u => rw [LocalClock.First.eq (hs u hr) h]

/-- A slot that is ahead is of a minute that is. -/
theorem minute_ahead (h : clock.First (60000 * p) t) (ha : after < t) : firstMinute after clock.offset ≤ p := by
  have hlt : after + clock.offset after < 60000 * p := h.lt ha
  unfold firstMinute
  omega

end Slots

/-- The clock of UTC. -/
def utcClock : WallClock where
  offset := utc
  reach := DAY_MS
  bound _ := by
    unfold utc DAY_MS
    omega
  change a _ _ _ := ⟨a, fun _ _ _ => ⟨fun _ => rfl, fun _ => rfl⟩⟩
  day := rfl
  whole _ := Int.dvd_zero _

/-- In UTC every time is the first that reads as it does. -/
theorem first_utc (value : ℤ) : utcClock.First value value := by
  refine ⟨Int.add_zero _, fun u hu hr => ?_⟩
  have heq : u + 0 = value := hr
  omega

/-- A slot that is ahead is missed where none is found. -/
theorem not_leastSlot {fields : CronFields} {after t : ℤ} {clock : WallClock}
    (hn : nextCronSlot fields after clock.offset = none) (ha : after < t) (hs : Slot fields clock t) :
    ¬ LeastSlot fields after clock (nextCronSlot fields after clock.offset) := by
  rw [hn]
  exact fun h => h t ha hs

end Flowdular.Automations
