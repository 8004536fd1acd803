import GrowthFault.Calendar
import Mathlib.Tactic.IntervalCases

/-!
# Dates of the Gregorian calendar

The arithmetic that turns a count of days into a date counts eras of 400 years, and years that
begin in March, so that a leap day is the last of its year.  Its dates are those of the Gregorian
calendar: each is a date of the calendar, and the next day has the next date.  So the count is the
number of days since the epoch.

For every reading of a clock of 64 bits the same arithmetic can be done in machine words: no value
on the way is too large for them, and none that becomes a month or a day is negative.
-/

namespace GrowthFault

/-! ## The calendar -/

/-- Every fourth year is a leap year, but of the centuries only every fourth. -/
def leapYear (year : Int) : Bool :=
  year % 4 = 0 ∧ (year % 100 ≠ 0 ∨ year % 400 = 0)

def yearLength (year : Int) : Nat :=
  if leapYear year then 366 else 365

def monthLength (year : Int) (month : Nat) : Nat :=
  if month = 2 then if leapYear year then 29 else 28
  else if month ∈ [4, 6, 9, 11] then 30
  else 31

namespace Date

def epoch : Date := ⟨1970, 1, 1⟩

/-- A date of the calendar. -/
structure Valid (d : Date) : Prop where
  month : 1 ≤ d.month ∧ d.month ≤ 12
  day : 1 ≤ d.day ∧ d.day ≤ monthLength d.year d.month

/-- The date of the next day. -/
def next (d : Date) : Date :=
  if d.day < monthLength d.year d.month then { d with day := d.day + 1 }
  else if d.month < 12 then { d with month := d.month + 1, day := 1 }
  else ⟨d.year + 1, 1, 1⟩

/-- The days from the epoch to a later year. -/
def daysBeforeYear (year : Int) : Nat :=
  ((List.range (year - epoch.year).toNat).map fun k : Nat => yearLength (epoch.year + k)).sum

/-- The days of a year before a month. -/
def daysBeforeMonth (year : Int) (month : Nat) : Nat :=
  ((List.range' 1 (month - 1)).map (monthLength year)).sum

/-- The number of days from the epoch to a date that is not before it. -/
def daysSinceEpoch (d : Date) : Nat :=
  daysBeforeYear d.year + daysBeforeMonth d.year d.month + (d.day - 1)

theorem daysBeforeYear_succ {year : Int} (hyear : epoch.year ≤ year) :
    daysBeforeYear (year + 1) = daysBeforeYear year + yearLength year := by
  have hyears : (year + 1 - epoch.year).toNat = (year - epoch.year).toNat + 1 := by omega
  have hthis : epoch.year + ((year - epoch.year).toNat : Int) = year := by omega
  rw [daysBeforeYear, hyears, List.range_succ, List.map_append, List.sum_append,
    List.map_singleton, List.sum_singleton, hthis, daysBeforeYear]

theorem daysBeforeMonth_succ (year : Int) {month : Nat} (hmonth : 1 ≤ month) :
    daysBeforeMonth year (month + 1) = daysBeforeMonth year month + monthLength year month := by
  obtain ⟨earlier, rfl⟩ := Nat.exists_eq_add_of_le' hmonth
  simp only [daysBeforeMonth, Nat.add_sub_cancel]
  rw [List.range'_concat, List.map_append, List.sum_append, List.map_singleton,
    List.sum_singleton, Nat.one_mul, Nat.add_comm 1]

theorem daysBeforeMonth_thirteen (year : Int) : daysBeforeMonth year 13 = yearLength year := by
  unfold yearLength
  by_cases hleap : leapYear year <;>
    simp [daysBeforeMonth, List.range', monthLength, hleap]

theorem daysSinceEpoch_next {d : Date} (hvalid : d.Valid) (hyear : epoch.year ≤ d.year) :
    d.next.daysSinceEpoch = d.daysSinceEpoch + 1 := by
  obtain ⟨⟨hfirst, hlast⟩, hday, hend⟩ := hvalid
  have hmonth := daysBeforeMonth_succ d.year hfirst
  unfold next
  split
  next hwithin =>
    simp only [daysSinceEpoch]
    omega
  next hwithin =>
    split
    next hmonths =>
      simp only [daysSinceEpoch]
      omega
    next hmonths =>
      have hdecember : d.month = 12 := by omega
      have hjanuary : daysBeforeMonth (d.year + 1) 1 = 0 := rfl
      have hthisYear : daysBeforeMonth d.year 12 + monthLength d.year 12 = yearLength d.year := by
        rw [← daysBeforeMonth_thirteen]
        exact (daysBeforeMonth_succ d.year (show 1 ≤ 12 by decide)).symm
      have hnextYear := daysBeforeYear_succ hyear
      rw [hdecember] at hwithin hend
      simp only [daysSinceEpoch, hdecember]
      omega

end Date

/-! ## Years that begin in March -/

namespace Calendar

/-- The days of an era before a year that begins in March. -/
def daysBeforeMarch (year : Nat) : Nat :=
  365 * year + year / 4 - year / 100

/-- The length of such a year; the leap day at its end belongs to the next year. -/
def marchLength (year : Nat) : Nat :=
  yearLength (year + 1)

theorem marchLength_eq (year : Nat) : marchLength year =
    if (year + 1) % 4 = 0 ∧ ((year + 1) % 100 ≠ 0 ∨ (year + 1) % 400 = 0) then 366 else 365 := by
  unfold marchLength yearLength leapYear
  simp only [decide_eq_true_eq]
  split <;> split <;> omega

theorem marchLength_pos (year : Nat) : 0 < marchLength year := by
  rw [marchLength_eq]
  split <;> omega

theorem daysBeforeMarch_succ {year : Nat} (hyear : year < 399) :
    daysBeforeMarch (year + 1) = daysBeforeMarch year + marchLength year := by
  rw [marchLength_eq]
  unfold daysBeforeMarch
  split <;> omega

/-- A day of an era, as a year that begins in March and a day of that year. -/
theorem exists_march {day : Nat} (hday : day < eraDays) :
    ∃ year k, year < 400 ∧ k < marchLength year ∧ day = daysBeforeMarch year + k := by
  induction day with
  | zero => exact ⟨0, 0, by decide, by decide, rfl⟩
  | succ day ih =>
      obtain ⟨year, k, hyear, hk, rfl⟩ := ih (Nat.lt_of_succ_lt hday)
      by_cases hwithin : k + 1 < marchLength year
      · exact ⟨year, k + 1, hyear, hwithin, rfl⟩
      · have hlast : year < 399 := by
          by_contra hlast
          obtain rfl : year = 399 := by omega
          have hlength : marchLength 399 = 366 := by decide
          have hbefore : daysBeforeMarch 399 = 145731 := by decide
          rw [eraDays] at hday
          omega
        refine ⟨year + 1, 0, by omega, marchLength_pos _, ?_⟩
        rw [daysBeforeMarch_succ hlast]
        omega

/-- A century is 36524 days, four years are 1461 and a year is 365, but for leap days at the ends;
`k` is the day of the last year. -/
theorem yearOfEra_of {century four year k : Nat} (hcentury : century < 4) (hfour : four < 25)
    (hyear : year < 4) (hk : k < 365 ∨ k = 365 ∧ year = 3 ∧ (four < 24 ∨ century = 3)) :
    yearOfEra (36524 * century + 1461 * four + 365 * year + k) =
      100 * century + 4 * four + year := by
  by_cases hlast : 1461 * four + 365 * year + k = 36524
  · obtain ⟨rfl, rfl, rfl, rfl⟩ : century = 3 ∧ four = 24 ∧ year = 3 ∧ k = 365 := by omega
    decide
  · -- Any other day lies in its century, so only the leap days of the four years are counted.
    generalize hrest : 1461 * four + 365 * year + k = rest at hlast
    have hsmall : rest < 36524 := by omega
    have hcenturies : (36524 * century + rest) / 36524 = century := by omega
    have hera : (36524 * century + rest) / 146096 = 0 := by
      clear hrest
      omega
    let leaps := (24 * century + four + 365 * year + k) / 1460
    have hfours : (36524 * century + rest) / 1460 = 25 * century + four + leaps := by
      subst hrest
      omega
    have hleaps : leaps ≤ k ∧ k < leaps + 365 := by omega
    have hday : 36524 * century + 1461 * four + 365 * year + k = 36524 * century + rest := by
      omega
    unfold yearOfEra
    rw [hday, hcenturies, hera, hfours]
    omega

theorem yearOfEra_march {year k : Nat} (hyear : year < 400) (hk : k < marchLength year) :
    yearOfEra (daysBeforeMarch year + k) = year := by
  have hbefore : daysBeforeMarch year + k =
      36524 * (year / 100) + 1461 * (year % 100 / 4) + 365 * (year % 4) + k := by
    unfold daysBeforeMarch
    omega
  have hlength : k < 365 ∨ k = 365 ∧ year % 4 = 3 ∧ (year % 100 / 4 < 24 ∨ year / 100 = 3) := by
    rw [marchLength_eq] at hk
    split at hk <;> omega
  rw [hbefore, yearOfEra_of (by omega) (by omega) (by omega) hlength]
  omega

theorem dayOfYear_march {year k : Nat} (hyear : year < 400) (hk : k < marchLength year) :
    dayOfYear (daysBeforeMarch year + k) = k := by
  simp only [dayOfYear, yearOfEra_march hyear hk]
  change daysBeforeMarch year + k - daysBeforeMarch year = k
  omega

/-! ### Months -/

/-- The days of such a year before a month, the months counted from March. -/
def daysBeforeMarchMonth (march : Nat) : Nat :=
  (153 * march + 2) / 5

/-- The month of the calendar that is the `march`-th from March on. -/
def monthOfMarch (march : Nat) : Nat :=
  if march < 10 then march + 3 else march - 9

/-- The civil year of a month of such a year: January and February belong to the next one. -/
def yearOfMarch (era : Int) (year march : Nat) : Int :=
  year + era * 400 + (if monthOfMarch march ≤ 2 then 1 else 0)

/-- The date of a day of a year that begins in March. -/
def dateOfMarch (era : Int) (year k : Nat) : Date :=
  let march := monthFromMarch k
  { year := yearOfMarch era year march
    month := monthOfMarch march
    day := k - daysBeforeMarchMonth march + 1 }

theorem monthFromMarch_eq_iff {k march : Nat} : monthFromMarch k = march ↔
    daysBeforeMarchMonth march ≤ k ∧ k < daysBeforeMarchMonth (march + 1) := by
  unfold monthFromMarch daysBeforeMarchMonth
  omega

/-- Where a month ends.  Only February, the last, has not the same length in every year. -/
theorem daysBeforeMarchMonth_add_monthLength (era : Int) (year : Nat) {march : Nat}
    (hmarch : march < 12) :
    daysBeforeMarchMonth march + monthLength (yearOfMarch era year march) (monthOfMarch march) =
      if march = 11 then marchLength year else daysBeforeMarchMonth (march + 1) := by
  by_cases hfebruary : march = 11
  · subst hfebruary
    have hleap : leapYear (year + era * 400 + 1) = leapYear (year + 1) := by
      unfold leapYear
      rw [decide_eq_decide]
      omega
    change 337 + (if leapYear (year + era * 400 + 1) then 29 else 28) = yearLength (year + 1)
    rw [hleap, yearLength]
    split <;> rfl
  · have hearlier : march < 11 := by omega
    rw [if_neg hfebruary]
    interval_cases march <;> rfl

theorem dateOfMarch_eq (era : Int) (year : Nat) {k march : Nat}
    (hmonth : monthFromMarch k = march) :
    dateOfMarch era year k = ⟨yearOfMarch era year march, monthOfMarch march,
      k - daysBeforeMarchMonth march + 1⟩ := by
  subst hmonth
  rfl

/-- The month that a day lies in. -/
theorem exists_month {year k : Nat} (hk : k < marchLength year) : ∃ march < 12,
    monthFromMarch k = march ∧ daysBeforeMarchMonth march ≤ k ∧
      k < daysBeforeMarchMonth (march + 1) := by
  refine ⟨monthFromMarch k, ?_, rfl, monthFromMarch_eq_iff.1 rfl⟩
  rw [marchLength_eq] at hk
  unfold monthFromMarch
  split at hk <;> omega

theorem valid_dateOfMarch (era : Int) {year k : Nat} (hk : k < marchLength year) :
    (dateOfMarch era year k).Valid := by
  obtain ⟨march, hmarch, hmonth, hfrom, hto⟩ := exists_month hk
  have hend := daysBeforeMarchMonth_add_monthLength era year hmarch
  rw [dateOfMarch_eq era year hmonth]
  constructor
  · simp only [monthOfMarch]
    split <;> omega
  · dsimp only
    split at hend <;> omega

/-- A month is followed by the next one, December by the January of the next year. -/
theorem next_month (era : Int) (year : Nat) {march : Nat} (hmarch : march < 11) :
    (if monthOfMarch march < 12 then
        (⟨yearOfMarch era year march, monthOfMarch march + 1, 1⟩ : Date)
      else ⟨yearOfMarch era year march + 1, 1, 1⟩) =
      ⟨yearOfMarch era year (march + 1), monthOfMarch (march + 1), 1⟩ := by
  unfold yearOfMarch
  interval_cases march <;> simp [monthOfMarch]

/-- Within such a year the next day has the next date. -/
theorem next_dateOfMarch (era : Int) {year k : Nat} (hk : k + 1 < marchLength year) :
    (dateOfMarch era year k).next = dateOfMarch era year (k + 1) := by
  obtain ⟨march, hmarch, hmonth, hfrom, hto⟩ := exists_month (Nat.lt_of_succ_lt hk)
  have hend := daysBeforeMarchMonth_add_monthLength era year hmarch
  by_cases hwithin : k + 1 < daysBeforeMarchMonth (march + 1)
  · have hmonth' : monthFromMarch (k + 1) = march := monthFromMarch_eq_iff.2 ⟨by omega, hwithin⟩
    have hbefore : k - daysBeforeMarchMonth march + 1 <
        monthLength (yearOfMarch era year march) (monthOfMarch march) := by
      split at hend <;> omega
    have hday : k - daysBeforeMarchMonth march + 1 + 1 =
        k + 1 - daysBeforeMarchMonth march + 1 := by
      omega
    rw [dateOfMarch_eq era year hmonth, dateOfMarch_eq era year hmonth', Date.next, if_pos hbefore,
      hday]
  · -- The month ends; it is not February, whose end is that of the year.
    have hearlier : march < 11 := by
      by_contra hnot
      obtain rfl : march = 11 := by omega
      have hlast : daysBeforeMarchMonth (11 + 1) = 367 := rfl
      rw [marchLength_eq] at hk
      split at hk <;> omega
    have hnext : k + 1 = daysBeforeMarchMonth (march + 1) := by omega
    rw [if_neg (Nat.ne_of_lt hearlier)] at hend
    have hlast : ¬ k - daysBeforeMarchMonth march + 1 <
        monthLength (yearOfMarch era year march) (monthOfMarch march) := by omega
    have hmonth' : monthFromMarch (k + 1) = march + 1 := by
      refine monthFromMarch_eq_iff.2 ⟨hnext.ge, ?_⟩
      unfold daysBeforeMarchMonth at *
      omega
    rw [dateOfMarch_eq era year hmonth, dateOfMarch_eq era year hmonth', Date.next, if_neg hlast,
      hnext, Nat.sub_self]
    exact next_month era year hearlier

/-- The last day of such a year is the last of February, and the first of March follows. -/
theorem next_dateOfMarch_last (era : Int) {year k : Nat} (hk : k + 1 = marchLength year) :
    (dateOfMarch era year k).next = dateOfMarch era (year + 1) 0 := by
  have hmonth : monthFromMarch k = 11 := by
    rw [marchLength_eq] at hk
    unfold monthFromMarch
    split at hk <;> omega
  have hend := daysBeforeMarchMonth_add_monthLength era year (show 11 < 12 by decide)
  rw [if_pos rfl] at hend
  have hlast : ¬ k - daysBeforeMarchMonth 11 + 1 <
      monthLength (yearOfMarch era year 11) (monthOfMarch 11) := by omega
  have hfirst : monthFromMarch 0 = 0 := rfl
  have hyear : yearOfMarch era year 11 = yearOfMarch era (year + 1) 0 := by
    change (year : Int) + era * 400 + 1 = (year + 1 : Nat) + era * 400 + 0
    omega
  rw [dateOfMarch_eq era year hmonth, dateOfMarch_eq era (year + 1) hfirst, Date.next,
    if_neg hlast, hyear]
  rfl

/-! ### Days -/

theorem daysBeforeMarch_add_lt {year k : Nat} (hyear : year < 400) (hk : k < marchLength year) :
    daysBeforeMarch year + k < eraDays := by
  rw [marchLength_eq] at hk
  unfold daysBeforeMarch eraDays
  split at hk <;> omega

theorem date_of_march {days era : Int} {year k : Nat} (hyear : year < 400)
    (hk : k < marchLength year)
    (hdays : days + epochShift = eraDays * era + (daysBeforeMarch year + k : Nat)) :
    date days = dateOfMarch era year k := by
  have hlt := daysBeforeMarch_add_lt hyear hk
  have hera : (days + epochShift) / eraDays = era := by
    rw [eraDays] at *
    omega
  have hday : ((days + epochShift) % eraDays).toNat = daysBeforeMarch year + k := by
    rw [eraDays] at *
    omega
  simp only [date, hera, hday, yearOfEra_march hyear hk, dayOfYear_march hyear hk]
  rfl

theorem exists_march_of_days (days : Int) : ∃ (era : Int) (year k : Nat), year < 400 ∧
    k < marchLength year ∧
      days + epochShift = eraDays * era + (daysBeforeMarch year + k : Nat) := by
  have hpositive : (0 : Int) < eraDays := by decide
  have hsplit := Int.mul_ediv_add_emod (days + epochShift) eraDays
  obtain ⟨day, hday⟩ := Int.eq_ofNat_of_zero_le (Int.emod_nonneg (days + epochShift) hpositive.ne')
  have hlt := Int.emod_lt_of_pos (days + epochShift) hpositive
  rw [hday] at hsplit hlt
  obtain ⟨year, k, hyear, hk, rfl⟩ := exists_march (Int.ofNat_lt.1 hlt)
  exact ⟨_, year, k, hyear, hk, hsplit.symm⟩

theorem valid_date (days : Int) : (date days).Valid := by
  obtain ⟨era, year, k, hyear, hk, hdays⟩ := exists_march_of_days days
  rw [date_of_march hyear hk hdays]
  exact valid_dateOfMarch era hk

theorem date_succ (days : Int) : date (days + 1) = (date days).next := by
  obtain ⟨era, year, k, hyear, hk, hdays⟩ := exists_march_of_days days
  rw [date_of_march hyear hk hdays]
  by_cases hwithin : k + 1 < marchLength year
  · rw [next_dateOfMarch era hwithin]
    refine date_of_march hyear hwithin ?_
    push_cast at hdays ⊢
    omega
  · have hlast : k + 1 = marchLength year := by omega
    rw [next_dateOfMarch_last era hlast]
    by_cases hera : year < 399
    · have hnext := daysBeforeMarch_succ hera
      refine date_of_march (Nat.succ_lt_succ hera) (marchLength_pos _) ?_
      push_cast [hnext] at hdays ⊢
      omega
    · -- The last year of an era is followed by the first of the next.
      obtain rfl : year = 399 := by omega
      have hfirst : dateOfMarch era 400 0 = dateOfMarch (era + 1) 0 0 := by
        have hmonth : monthFromMarch 0 = 0 := rfl
        have hyear : yearOfMarch era 400 0 = yearOfMarch (era + 1) 0 0 := by
          simp only [yearOfMarch]
          omega
        rw [dateOfMarch_eq era 400 hmonth, dateOfMarch_eq (era + 1) 0 hmonth, hyear]
      have hlength : marchLength 399 = 366 := by decide
      have hbefore : daysBeforeMarch 399 = 145731 := by decide
      rw [hfirst]
      refine date_of_march (by decide) (marchLength_pos 0) ?_
      have hzero : daysBeforeMarch 0 = 0 := rfl
      rw [hzero, eraDays]
      rw [hbefore, eraDays] at hdays
      omega

theorem daysSinceEpoch_date (days : Nat) :
    Date.epoch.year ≤ (date days).year ∧ (date days).daysSinceEpoch = days := by
  induction days with
  | zero => decide
  | succ days ih =>
      obtain ⟨hyear, hcount⟩ := ih
      have hnext : date ((days + 1 : Nat) : Int) = (date days).next := date_succ days
      rw [hnext]
      refine ⟨?_, ?_⟩
      · unfold Date.next
        split
        next => exact hyear
        next =>
          split
          next => exact hyear
          next => exact hyear.trans (Int.le_add_one le_rfl)
      · rw [Date.daysSinceEpoch_next (valid_date days) hyear, hcount]

/-! ## Machine words -/

/-- An integer, if a signed word of 64 bits holds it. -/
def word (i : Int) : Option Int :=
  if -2 ^ 63 ≤ i ∧ i < 2 ^ 63 then some i else none

/-- An integer as an unsigned word of 32 bits, if it is not negative and fits. -/
def unsigned (i : Int) : Option Nat :=
  if 0 ≤ i ∧ i < 2 ^ 32 then some i.toNat else none

/-- The year of an era in words; this and the following divide toward zero. -/
def wordYearOfEra (day : Int) : Option Int := do
  let fours ← word (day.tdiv 1460)
  let centuries ← word (day.tdiv 36524)
  let eras ← word (day.tdiv 146096)
  let rest ← word (day - fours)
  let rest ← word (rest + centuries)
  let rest ← word (rest - eras)
  word (rest.tdiv 365)

def wordDayOfYear (day year : Int) : Option Int := do
  let common ← word (365 * year)
  let fours ← word (year.tdiv 4)
  let centuries ← word (year.tdiv 100)
  let before ← word (common + fours)
  let before ← word (before - centuries)
  word (day - before)

def wordMarchMonth (inYear : Int) : Option Int := do
  let fives ← word (5 * inYear)
  let fives ← word (fives + 2)
  word (fives.tdiv 153)

def wordDayOfMonth (inYear march : Int) : Option Nat := do
  let before ← word (153 * march)
  let before ← word (before + 2)
  let before ← word (before.tdiv 5)
  let day ← word (inYear - before)
  let day ← word (day + 1)
  unsigned day

def wordMonthOfYear (march : Int) : Option Nat :=
  (if march < 10 then word (march + 3) else word (march - 9)).bind unsigned

def wordYear (era year : Int) (month : Nat) : Option Int := do
  let eras ← word (era * 400)
  let year ← word (year + eras)
  word (year + (if month ≤ 2 then 1 else 0))

/-- The date in words: there is one only if no value on the way is too large, and no month or day
is negative before it becomes unsigned. -/
def wordDate (days : Int) : Option Date := do
  let shifted ← word (days + epochShift)
  let era ← word (shifted / eraDays)
  let day ← word (shifted % eraDays)
  let year ← wordYearOfEra day
  let inYear ← wordDayOfYear day year
  let march ← wordMarchMonth inYear
  let day ← wordDayOfMonth inYear march
  let month ← wordMonthOfYear march
  let year ← wordYear era year month
  some { year, month, day }

theorem word_eq {i : Int} {n : Nat} (hi : i = n) (hn : n < 2 ^ 63) : word i = some (n : Int) := by
  rw [word, if_pos (by omega), hi]

theorem unsigned_natCast {n : Nat} (hn : n < 2 ^ 32) : unsigned n = some n := by
  rw [unsigned, if_pos (by omega), Int.toNat_natCast]

theorem wordYearOfEra_natCast {day : Nat} (hday : day < eraDays) :
    wordYearOfEra day = some (yearOfEra day : Int) := by
  unfold eraDays at hday
  unfold wordYearOfEra yearOfEra
  refine Option.bind_eq_some_iff.2 ⟨_, word_eq (Int.ofNat_tdiv day 1460).symm (by omega), ?_⟩
  refine Option.bind_eq_some_iff.2 ⟨_, word_eq (Int.ofNat_tdiv day 36524).symm (by omega), ?_⟩
  refine Option.bind_eq_some_iff.2 ⟨_, word_eq (Int.ofNat_tdiv day 146096).symm (by omega), ?_⟩
  refine Option.bind_eq_some_iff.2 ⟨_, word_eq (n := day - day / 1460) (by omega) (by omega), ?_⟩
  refine Option.bind_eq_some_iff.2
    ⟨_, word_eq (n := day - day / 1460 + day / 36524) (by omega) (by omega), ?_⟩
  refine Option.bind_eq_some_iff.2
    ⟨_, word_eq (n := day - day / 1460 + day / 36524 - day / 146096) (by omega) (by omega), ?_⟩
  exact word_eq (Int.ofNat_tdiv _ 365).symm (by omega)

theorem wordDayOfYear_march {year k : Nat} (hyear : year < 400) (hk : k < marchLength year) :
    wordDayOfYear (daysBeforeMarch year + k : Nat) year = some (k : Int) := by
  have hlt := daysBeforeMarch_add_lt hyear hk
  unfold eraDays at hlt
  unfold wordDayOfYear
  refine Option.bind_eq_some_iff.2 ⟨_, word_eq (n := 365 * year) (by omega) (by omega), ?_⟩
  refine Option.bind_eq_some_iff.2 ⟨_, word_eq (Int.ofNat_tdiv year 4).symm (by omega), ?_⟩
  refine Option.bind_eq_some_iff.2 ⟨_, word_eq (Int.ofNat_tdiv year 100).symm (by omega), ?_⟩
  refine Option.bind_eq_some_iff.2
    ⟨_, word_eq (n := 365 * year + year / 4) (by omega) (by omega), ?_⟩
  refine Option.bind_eq_some_iff.2
    ⟨_, word_eq (n := daysBeforeMarch year) (by rw [daysBeforeMarch]; omega) (by omega), ?_⟩
  exact word_eq (by omega) (by omega)

theorem wordMarchMonth_natCast {k : Nat} (hk : k < 366) :
    wordMarchMonth k = some (monthFromMarch k : Int) := by
  unfold wordMarchMonth monthFromMarch
  refine Option.bind_eq_some_iff.2 ⟨_, word_eq (n := 5 * k) (by omega) (by omega), ?_⟩
  refine Option.bind_eq_some_iff.2 ⟨_, word_eq (n := 5 * k + 2) (by omega) (by omega), ?_⟩
  exact word_eq (Int.ofNat_tdiv _ 153).symm (by omega)

theorem wordDayOfMonth_natCast {k march : Nat} (hk : k < 366) (hmarch : march < 12)
    (hfrom : daysBeforeMarchMonth march ≤ k) :
    wordDayOfMonth k march = some (k - daysBeforeMarchMonth march + 1) := by
  unfold wordDayOfMonth
  refine Option.bind_eq_some_iff.2 ⟨_, word_eq (n := 153 * march) (by omega) (by omega), ?_⟩
  refine Option.bind_eq_some_iff.2 ⟨_, word_eq (n := 153 * march + 2) (by omega) (by omega), ?_⟩
  refine Option.bind_eq_some_iff.2
    ⟨_, word_eq (n := daysBeforeMarchMonth march) (Int.ofNat_tdiv _ 5).symm (by omega), ?_⟩
  refine Option.bind_eq_some_iff.2
    ⟨_, word_eq (n := k - daysBeforeMarchMonth march) (by omega) (by omega), ?_⟩
  refine Option.bind_eq_some_iff.2
    ⟨_, word_eq (n := k - daysBeforeMarchMonth march + 1) (by omega) (by omega), ?_⟩
  exact unsigned_natCast (by omega)

theorem wordMonthOfYear_natCast {march : Nat} (hmarch : march < 12) :
    wordMonthOfYear march = some (monthOfMarch march) := by
  unfold wordMonthOfYear monthOfMarch
  split
  next hlate =>
    rw [word_eq (n := march + 3) (by omega) (by omega), Option.bind_some,
      unsigned_natCast (by omega), if_pos (by omega)]
  next hlate =>
    rw [word_eq (n := march - 9) (by omega) (by omega), Option.bind_some,
      unsigned_natCast (by omega), if_neg (by omega)]

theorem wordYear_natCast {era year : Nat} (march : Nat) (hera : era < 2 ^ 46) (hyear : year < 400) :
    wordYear era year (monthOfMarch march) = some (yearOfMarch era year march) := by
  unfold wordYear yearOfMarch
  refine Option.bind_eq_some_iff.2 ⟨_, word_eq (n := era * 400) (by omega) (by omega), ?_⟩
  refine Option.bind_eq_some_iff.2 ⟨_, word_eq (n := year + era * 400) (by omega) (by omega), ?_⟩
  split
  next => exact word_eq (n := year + era * 400 + 1) (by omega) (by omega)
  next => exact word_eq (n := year + era * 400) (by omega) (by omega)

theorem wordDate_natCast {days : Nat} (hdays : days < 2 ^ 62) :
    wordDate days = some (date days) := by
  obtain ⟨era, year, k, hyear, hk, hsplit⟩ := exists_march_of_days days
  obtain ⟨march, hmarch, hmonth, hfrom, -⟩ := exists_month hk
  have hlength : k < 366 := by
    rw [marchLength_eq] at hk
    split at hk <;> omega
  have hlt := daysBeforeMarch_add_lt hyear hk
  have hyearOf := wordYearOfEra_natCast hlt
  have hmarchMonth := wordMarchMonth_natCast hlength
  rw [yearOfEra_march hyear hk] at hyearOf
  rw [hmonth] at hmarchMonth
  obtain ⟨hera, hday⟩ : ((days : Int) + epochShift) / eraDays = era ∧
      ((days : Int) + epochShift) % eraDays = (daysBeforeMarch year + k : Nat) := by
    rw [eraDays] at *
    omega
  obtain ⟨n, rfl, hn⟩ : ∃ n : Nat, era = n ∧ n < 2 ^ 46 := by
    refine ⟨era.toNat, ?_⟩
    rw [eraDays, epochShift] at *
    omega
  rw [eraDays] at hlt
  rw [date_of_march hyear hk hsplit, dateOfMarch_eq n year hmonth]
  unfold wordDate
  refine Option.bind_eq_some_iff.2 ⟨_, word_eq (n := days + 719468) (by rfl) (by omega), ?_⟩
  refine Option.bind_eq_some_iff.2 ⟨_, word_eq hera (by omega), ?_⟩
  refine Option.bind_eq_some_iff.2 ⟨_, word_eq hday (by omega), ?_⟩
  refine Option.bind_eq_some_iff.2 ⟨_, hyearOf, ?_⟩
  refine Option.bind_eq_some_iff.2 ⟨_, wordDayOfYear_march hyear hk, ?_⟩
  refine Option.bind_eq_some_iff.2 ⟨_, hmarchMonth, ?_⟩
  refine Option.bind_eq_some_iff.2 ⟨_, wordDayOfMonth_natCast hlength hmarch hfrom, ?_⟩
  refine Option.bind_eq_some_iff.2 ⟨_, wordMonthOfYear_natCast hmarch, ?_⟩
  exact Option.bind_eq_some_iff.2 ⟨_, wordYear_natCast march hn hyear, rfl⟩

/-- Days and their dates.  The epoch is the first of January 1970, every date is one of the
calendar, the next day has the next date, and a date tells how many days since the epoch it is.
The arithmetic can be done in words for every day of a clock that counts seconds in 64 bits. -/
theorem date_counts_days :
    date 0 = ⟨1970, 1, 1⟩ ∧
    (∀ days : Int, (date days).Valid ∧ date (days + 1) = (date days).next) ∧
    (∀ days : Nat, (date days).daysSinceEpoch = days) ∧
    ∀ seconds : UInt64, wordDate ((seconds.toNat / Instant.daySeconds : Nat) : Int) =
      some (date ((seconds.toNat / Instant.daySeconds : Nat) : Int)) := by
  refine ⟨by decide, fun days => ⟨valid_date days, date_succ days⟩,
    fun days => (daysSinceEpoch_date days).2, ?_⟩
  intro seconds
  have hseconds := seconds.toNat_lt
  apply wordDate_natCast
  rw [Instant.daySeconds]
  omega

/-- The last day of February in a century that is a leap year. -/
example : date 11016 = ⟨2000, 2, 29⟩ ∧ date 11017 = ⟨2000, 3, 1⟩ := by decide

end Calendar

end GrowthFault
