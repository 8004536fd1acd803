import GrowthFault.Proofs.CalendarDates
import GrowthFault.Proofs.DecimalRendering

/-!
# The order of timestamps

A timestamp is a row of numbers in columns of fixed width, the greatest unit first.  As long as
every number fits its column, rows have one length and come, as texts, in the order of their
numbers.  Later days have later dates, so timestamps of years with four digits come in the order of
the readings of the clock, as far as they show them.
-/

namespace GrowthFault

/-! ## Columns of digits -/

namespace Decimal

variable {width m n : Nat} {layout : List (Nat × Char)} {numbers others : List Nat}

/-- The last digits of a number, as many as the column is wide. -/
def column : (width n : Nat) → List Char
  | 0, _ => []
  | width + 1, n => column width (n / 10) ++ [Nat.digitChar (n % 10)]

theorem length_column (width n : Nat) : (column width n).length = width := by
  induction width generalizing n with
  | zero => rfl
  | succ width ih => rw [column, List.length_append, ih, List.length_singleton]

theorem column_zero (width : Nat) : column width 0 = List.replicate width '0' := by
  induction width with
  | zero => rfl
  | succ width ih =>
      rw [column, ih, List.replicate_succ']
      rfl

theorem div_ten_lt (hn : n < 10 ^ (width + 1)) : n / 10 < 10 ^ width := by
  rw [Nat.pow_succ] at hn
  omega

/-- A padded number fills its column, if it is not too large for it. -/
theorem padded_eq_column (hwidth : 0 < width) (hn : n < 10 ^ width) :
    padded width n = column width n := by
  induction width generalizing n with
  | zero => exact absurd hwidth (Nat.lt_irrefl 0)
  | succ width ih =>
      by_cases hdigit : n < 10
      · have hdigits := digits_eq n
        rw [if_pos hdigit, List.nil_append] at hdigits
        rw [column, Nat.div_eq_of_lt hdigit, column_zero]
        simp only [padded, hdigits, List.length_singleton, Nat.add_sub_cancel]
      · have hdigits := digits_eq n
        rw [if_neg hdigit] at hdigits
        have hrest := div_ten_lt hn
        have hmore : 0 < width := by
          by_contra hzero
          obtain rfl : width = 0 := by omega
          omega
        rw [column, ← ih hmore hrest]
        simp only [padded, hdigits, List.length_append, List.length_singleton,
          Nat.add_sub_add_right, List.append_assoc]

/-- Texts of one length are in the order of what they begin with, whatever follows. -/
theorem append_lt_append_of_lt {before after : List Char} (hlength : before.length = after.length)
    (hlt : before < after) (rest more : List Char) : before ++ rest < after ++ more := by
  induction hlt with
  | nil => cases hlength
  | rel hfirst => exact .rel hfirst
  | cons _ ih => exact .cons (ih (Nat.succ.inj hlength))

theorem digitChar_lt_digitChar (hn : n < 10) (hlt : m < n) :
    Nat.digitChar m < Nat.digitChar n := by
  have hm : m < 10 := Nat.lt_trans hlt hn
  have hcodes : (Nat.digitChar m).toNat < (Nat.digitChar n).toNat := by
    rw [Nat.toNat_digitChar_of_lt_ten hm, Nat.toNat_digitChar_of_lt_ten hn]
    exact Nat.add_lt_add_left hlt 0x30
  exact Char.lt_def.2 hcodes

theorem column_lt_column (hn : n < 10 ^ width) (hlt : m < n) : column width m < column width n := by
  induction width generalizing m n with
  | zero =>
      rw [Nat.pow_zero] at hn
      omega
  | succ width ih =>
      have hrest := div_ten_lt hn
      rw [column, column]
      by_cases hearlier : m / 10 < n / 10
      · have hlength : (column width (m / 10)).length = (column width (n / 10)).length := by
          rw [length_column, length_column]
        exact append_lt_append_of_lt hlength (ih hrest hearlier) _ _
      · have hsame : m / 10 = n / 10 := by omega
        have hlast : m % 10 < n % 10 := by omega
        rw [hsame]
        apply List.append_left_lt
        exact .rel (digitChar_lt_digitChar (Nat.mod_lt n (by decide)) hlast)

/-- Numbers in columns of these widths, each closed by a character. -/
def row : (layout : List (Nat × Char)) → (numbers : List Nat) → List Char
  | (width, close) :: layout, n :: numbers => padded width n ++ close :: row layout numbers
  | _, _ => []

/-- There is one number for each column, and none is too large for it. -/
def Fits (layout : List (Nat × Char)) (numbers : List Nat) : Prop :=
  List.Forall₂ (fun field n => 0 < field.1 ∧ n < 10 ^ field.1) layout numbers

theorem length_row (hfits : Fits layout numbers) :
    (row layout numbers).length = (layout.map fun field => field.1 + 1).sum := by
  induction hfits with
  | nil => rfl
  | cons hfirst _ ih =>
      rw [row, padded_eq_column hfirst.1 hfirst.2, List.length_append, length_column,
        List.length_cons, ih, List.map_cons, List.sum_cons]
      omega

/-- Rows come in the order of their numbers, of which the first that differ decide. -/
theorem row_lt_row (hfits : Fits layout numbers) (hothers : Fits layout others)
    (hlt : numbers < others) : row layout numbers < row layout others := by
  induction hfits generalizing others with
  | nil =>
      cases hothers
      exact absurd hlt (List.lt_irrefl [])
  | @cons field n layout numbers hfirst _ ih =>
      obtain _ | ⟨hother, hothers⟩ := hothers
      rw [List.cons_lt_cons_iff] at hlt
      rw [row, row, padded_eq_column hfirst.1 hfirst.2, padded_eq_column hother.1 hother.2]
      rcases hlt with hlt | ⟨rfl, hlt⟩
      · refine append_lt_append_of_lt ?_ (column_lt_column hother.2 hlt) _ _
        rw [length_column, length_column]
      · apply List.append_left_lt
        exact List.cons_lt_cons_self.2 (ih hothers hlt)

end Decimal

/-! ## Later dates -/

namespace Date

/-- The year decides first, then the month. -/
def Before (d e : Date) : Prop :=
  d.year < e.year ∨ d.year = e.year ∧ (d.month < e.month ∨ d.month = e.month ∧ d.day < e.day)

theorem Before.trans {d e f : Date} (hde : d.Before e) (hef : e.Before f) : d.Before f := by
  unfold Before at *
  omega

theorem before_next (d : Date) : d.Before d.next := by
  unfold next
  split
  next => exact .inr ⟨rfl, .inr ⟨rfl, Nat.lt_succ_self d.day⟩⟩
  next =>
    split
    next => exact .inr ⟨rfl, .inl (Nat.lt_succ_self d.month)⟩
    next => exact .inl (Int.lt_succ d.year)

end Date

namespace Calendar

theorem date_before_date {days later : Int} (hlt : days < later) :
    (date days).Before (date later) := by
  obtain ⟨more, rfl⟩ := Int.lt.dest hlt
  induction more with
  | zero =>
      have hnext : date (days + (0 + 1 : Nat)) = (date days).next := date_succ days
      rw [hnext]
      exact (date days).before_next
  | succ more ih =>
      have hnext : date (days + (more + 1 + 1 : Nat)) = (date (days + (more + 1 : Nat))).next := by
        rw [← date_succ]
        congr 1
        omega
      rw [hnext]
      exact (ih (by omega)).trans (date _).before_next

/-- The first day of the years of five digits. -/
theorem date_fiveDigits : date 2932897 = ⟨10000, 1, 1⟩ := by decide

theorem daysSinceEpoch_fiveDigits : (⟨10000, 1, 1⟩ : Date).daysSinceEpoch = 2932897 := by
  rw [← date_fiveDigits]
  exact (daysSinceEpoch_date 2932897).2

theorem year_bounds {days : Nat} (hdays : days < (⟨10000, 1, 1⟩ : Date).daysSinceEpoch) :
    1970 ≤ (date days).year ∧ (date days).year ≤ 9999 := by
  refine ⟨(daysSinceEpoch_date days).1, ?_⟩
  rw [daysSinceEpoch_fiveDigits] at hdays
  have hbefore : (date days).Before (date 2932897) := date_before_date (by omega)
  have hvalid := valid_date days
  have hmonth := hvalid.month
  have hday := hvalid.day
  rw [date_fiveDigits] at hbefore
  unfold Date.Before at hbefore
  dsimp only at hbefore
  omega

theorem day_le (days : Int) : (date days).day ≤ 31 := by
  have hday := (valid_date days).day.2
  unfold monthLength at hday
  split at hday
  next => split at hday <;> omega
  next => split at hday <;> omega

end Calendar

/-! ## Timestamps -/

namespace Instant

def milliseconds (t : Instant) : Nat :=
  t.nanoseconds / 1000000

/-- One reading is before another, as far as whole milliseconds tell. -/
def Before (t u : Instant) : Prop :=
  t.seconds < u.seconds ∨ t.seconds = u.seconds ∧ t.milliseconds < u.milliseconds

/-- A reading of a clock from the epoch up to the end of the year 9999. -/
structure FourDigits (t : Instant) : Prop where
  nanoseconds : t.nanoseconds < 1000000000
  first : 0 ≤ t.seconds
  last : t.seconds < daySeconds * (⟨10000, 1, 1⟩ : Date).daysSinceEpoch

/-- The columns of a timestamp, from the year to the milliseconds. -/
def layout : List (Nat × Char) :=
  [(4, '-'), (2, '-'), (2, 'T'), (2, ':'), (2, ':'), (2, '.'), (3, 'Z')]

/-- The numbers that a timestamp shows. -/
def numbers (t : Instant) : List Nat :=
  let seconds := t.seconds.toNat
  let date := Calendar.date (seconds / daySeconds : Nat)
  let time := seconds % daySeconds
  [date.year.toNat, date.month, date.day, time / 3600, time % 3600 / 60, time % 60, t.milliseconds]

variable {t u : Instant}

theorem FourDigits.days_lt (ht : t.FourDigits) :
    t.seconds.toNat / daySeconds < (⟨10000, 1, 1⟩ : Date).daysSinceEpoch := by
  have hlast := ht.last
  rw [Calendar.daysSinceEpoch_fiveDigits, daySeconds] at *
  omega

theorem row_layout (year month day hours minutes seconds milliseconds : Nat) :
    Decimal.row layout [year, month, day, hours, minutes, seconds, milliseconds] =
      Decimal.padded 4 year ++ '-' :: Decimal.padded 2 month ++ '-' :: Decimal.padded 2 day
        ++ 'T' :: Decimal.padded 2 hours ++ ':' :: Decimal.padded 2 minutes
        ++ ':' :: Decimal.padded 2 seconds ++ '.' :: Decimal.padded 3 milliseconds ++ ['Z'] := by
  simp only [layout, Decimal.row, List.append_assoc, List.cons_append]

theorem FourDigits.timestamp_eq (ht : t.FourDigits) :
    t.timestamp = String.ofList (Decimal.row layout t.numbers) := by
  have hsince : t.sinceEpoch = t := if_neg (Int.not_lt.2 ht.first)
  have hyear : yearText (Calendar.date (t.seconds.toNat / daySeconds : Nat)).year =
      Decimal.padded 4 (Calendar.date (t.seconds.toNat / daySeconds : Nat)).year.toNat := by
    have hpositive := (Calendar.year_bounds ht.days_lt).1
    apply if_neg
    omega
  unfold timestamp numbers milliseconds
  rw [hsince]
  dsimp only
  rw [hyear, row_layout]

theorem FourDigits.fits (ht : t.FourDigits) : Decimal.Fits layout t.numbers := by
  obtain ⟨hsince, hyear⟩ := Calendar.year_bounds ht.days_lt
  have hmonth := (Calendar.valid_date (t.seconds.toNat / daySeconds : Nat)).month
  have hday := Calendar.day_le (t.seconds.toNat / daySeconds : Nat)
  have hnanoseconds := ht.nanoseconds
  have htime : t.seconds.toNat % daySeconds < 86400 := Nat.mod_lt _ (by decide)
  unfold Decimal.Fits layout numbers milliseconds
  simp only [List.forall₂_cons, List.Forall₂.nil, and_true]
  omega

/-- Seconds of a day come in the order of their hours, minutes and seconds. -/
theorem time_lt_time {time later : Nat} (hlt : time < later) :
    time / 3600 < later / 3600 ∨ time / 3600 = later / 3600 ∧
      (time % 3600 / 60 < later % 3600 / 60 ∨ time % 3600 / 60 = later % 3600 / 60 ∧
        time % 60 < later % 60) := by
  omega

theorem FourDigits.numbers_lt (ht : t.FourDigits) (hu : u.FourDigits) (hbefore : t.Before u) :
    t.numbers < u.numbers := by
  have hfirst := ht.first
  have hfirst' := hu.first
  simp only [numbers, List.cons_lt_cons_iff]
  rcases Nat.lt_trichotomy (t.seconds.toNat / daySeconds) (u.seconds.toNat / daySeconds) with
    hdays | hdays | hdays
  · -- On another day the dates differ, and decide.
    have hyear := Calendar.year_bounds ht.days_lt
    have hyear' := Calendar.year_bounds hu.days_lt
    have hdate := Calendar.date_before_date (Int.ofNat_lt.2 hdays)
    unfold Date.Before at hdate
    omega
  · rw [hdays]
    unfold Before at hbefore
    rcases hbefore with hseconds | ⟨hseconds, hmilliseconds⟩
    · have htime : t.seconds.toNat % daySeconds < u.seconds.toNat % daySeconds := by
        unfold daySeconds at *
        omega
      have hclock := time_lt_time htime
      omega
    · rw [hseconds]
      omega
  · unfold Before daySeconds at *
    omega

theorem FourDigits.timestamp_lt (ht : t.FourDigits) (hu : u.FourDigits) (hbefore : t.Before u) :
    t.timestamp < u.timestamp := by
  rw [ht.timestamp_eq, hu.timestamp_eq, String.lt_iff, String.toList_ofList,
    String.toList_ofList]
  exact Decimal.row_lt_row ht.fits hu.fits (ht.numbers_lt hu hbefore)

theorem FourDigits.timestamp_ne (ht : t.FourDigits) (hu : u.FourDigits) (hbefore : t.Before u) :
    t.timestamp ≠ u.timestamp := by
  intro hsame
  have hlt := ht.timestamp_lt hu hbefore
  rw [hsame] at hlt
  exact String.lt_irrefl u.timestamp hlt

theorem timestamp_congr (hseconds : t.seconds = u.seconds)
    (hmilliseconds : t.milliseconds = u.milliseconds) : t.timestamp = u.timestamp := by
  unfold milliseconds at hmilliseconds
  by_cases hearly : t.seconds < 0
  · have hearly' : u.seconds < 0 := hseconds ▸ hearly
    simp only [timestamp, sinceEpoch, if_pos hearly, if_pos hearly']
  · have hearly' : ¬ u.seconds < 0 := hseconds ▸ hearly
    simp only [timestamp, sinceEpoch, hseconds, if_neg hearly', hmilliseconds]

theorem timestamp_of_early (hearly : t.seconds < 0) : t.timestamp = epoch.timestamp := by
  have hsince : t.sinceEpoch = epoch := if_pos hearly
  have hepoch : epoch.sinceEpoch = epoch := rfl
  simp only [timestamp, hsince, hepoch]

/-- Timestamps come in time order.  Up to the end of the year 9999 they are 24 characters long,
an earlier reading has the smaller text, and readings of the same second and millisecond have the
same one; a reading before the epoch is shown as the epoch. -/
theorem timestamps_in_order (t u : Instant) (ht : t.FourDigits) (hu : u.FourDigits) :
    t.timestamp.length = 24 ∧
    (t.timestamp < u.timestamp ↔ t.Before u) ∧
    (t.timestamp = u.timestamp ↔ t.seconds = u.seconds ∧ t.milliseconds = u.milliseconds) ∧
    ∀ early : Instant, early.seconds < 0 → early.timestamp = epoch.timestamp := by
  have horder : t.Before u ∨ u.Before t ∨
      t.seconds = u.seconds ∧ t.milliseconds = u.milliseconds := by
    unfold Before
    omega
  refine ⟨?_, ?_, ?_, fun early => timestamp_of_early⟩
  · rw [ht.timestamp_eq, String.length_ofList, Decimal.length_row ht.fits]
    rfl
  · refine ⟨fun hlt => ?_, ht.timestamp_lt hu⟩
    rcases horder with hbefore | hbefore | ⟨hseconds, hmilliseconds⟩
    · exact hbefore
    · exact absurd hlt (String.lt_asymm (hu.timestamp_lt ht hbefore))
    · rw [timestamp_congr hseconds hmilliseconds] at hlt
      exact absurd hlt (String.lt_irrefl u.timestamp)
  · refine ⟨fun heq => ?_, fun hsame => timestamp_congr hsame.1 hsame.2⟩
    rcases horder with hbefore | hbefore | hsame
    · exact absurd heq (ht.timestamp_ne hu hbefore)
    · exact absurd heq.symm (hu.timestamp_ne ht hbefore)
    · exact hsame

/-- The last millisecond of a leap day, and the first of the day after it. -/
theorem timestamps_in_order_leap_day :
    (⟨1709251199, 999999999⟩ : Instant).FourDigits ∧ (⟨1709251200, 0⟩ : Instant).FourDigits ∧
    (⟨1709251199, 999999999⟩ : Instant).timestamp = "2024-02-29T23:59:59.999Z" ∧
    (⟨1709251199, 999999999⟩ : Instant).timestamp.length = 24 ∧
    (⟨1709251199, 999999999⟩ : Instant).timestamp < (⟨1709251200, 0⟩ : Instant).timestamp ∧
    (⟨-1, 999999999⟩ : Instant).timestamp = epoch.timestamp := by
  have hbound : (1709251200 : Int) < daySeconds * (⟨10000, 1, 1⟩ : Date).daysSinceEpoch := by
    rw [Calendar.daysSinceEpoch_fiveDigits]
    decide
  have ht : (⟨1709251199, 999999999⟩ : Instant).FourDigits :=
    ⟨by decide, by decide, Int.lt_trans (by decide) hbound⟩
  have hu : (⟨1709251200, 0⟩ : Instant).FourDigits := ⟨by decide, by decide, hbound⟩
  obtain ⟨hlength, horder, -, hearly⟩ := timestamps_in_order _ _ ht hu
  exact ⟨ht, hu, by decide, hlength, horder.2 (.inl (by decide)), hearly _ (by decide)⟩

end Instant

end GrowthFault
