import Mathlib.Algebra.Ring.Nat
import Mathlib.Data.List.Basic

namespace Lobu.Scheduled

/-! # `Date.prototype.toISOString`

The proleptic Gregorian date of an instant in milliseconds, in UTC.  Years are
counted from March, so the leap day is the last day of its year.
-/

def padded (width : Nat) (value : Nat) : String :=
  let digits := toString value
  String.ofList (List.replicate (width - digits.length) '0') ++ digits

structure CivilDate where
  year : Int
  month : Nat
  day : Nat
deriving DecidableEq

/-- The date of a day counted from 1970-01-01; an era is 400 years. -/
def civilDate (day : Int) : CivilDate :=
  let shifted := day + 719468
  let era := shifted.fdiv 146097
  let dayOfEra := (shifted.fmod 146097).toNat
  let yearOfEra :=
    (dayOfEra - dayOfEra / 1460 + dayOfEra / 36524 - dayOfEra / 146096) / 365
  let dayOfYear := dayOfEra - (365 * yearOfEra + yearOfEra / 4 - yearOfEra / 100)
  let marchMonth := (5 * dayOfYear + 2) / 153
  let month := if marchMonth < 10 then marchMonth + 3 else marchMonth - 9
  let year := (yearOfEra : Int) + era * 400
  { year := if month ≤ 2 then year + 1 else year
    month
    day := dayOfYear - (153 * marchMonth + 2) / 5 + 1 }

def isoYear (year : Int) : String :=
  if 0 ≤ year ∧ year ≤ 9999 then padded 4 year.toNat
  else if year < 0 then "-" ++ padded 6 (-year).toNat
  else "+" ++ padded 6 year.toNat

def toISOString (instant : Int) : String :=
  let date := civilDate (instant.fdiv 86400000)
  let milliseconds := (instant.fmod 86400000).toNat
  isoYear date.year ++ "-" ++ padded 2 date.month ++ "-" ++ padded 2 date.day ++ "T" ++
    padded 2 (milliseconds / 3600000) ++ ":" ++ padded 2 (milliseconds / 60000 % 60) ++ ":" ++
    padded 2 (milliseconds / 1000 % 60) ++ "." ++ padded 3 (milliseconds % 1000) ++ "Z"

example : toISOString 951782400000 = "2000-02-29T00:00:00.000Z" := by decide +kernel

/-- Days of an era without those that only leap years have. -/
def commonDays (dayOfEra : Nat) : Nat :=
  dayOfEra - dayOfEra / 1460 + dayOfEra / 36524 - dayOfEra / 146096

def firstDay (yearOfEra : Nat) : Nat :=
  365 * yearOfEra + yearOfEra / 4 - yearOfEra / 100

theorem commonDays_succ (dayOfEra : Nat) : commonDays dayOfEra ≤ commonDays (dayOfEra + 1) := by
  have era : dayOfEra / 146096 = dayOfEra / 36524 / 4 := by omega
  have nextEra : (dayOfEra + 1) / 146096 = (dayOfEra + 1) / 36524 / 4 := by omega
  have leap : (dayOfEra + 1) / 1460 ≤ dayOfEra / 1460 + 1 := by omega
  have century : (dayOfEra + 1) / 36524 = dayOfEra / 36524 ∨ (dayOfEra + 1) / 36524 = dayOfEra / 36524 + 1 := by omega
  simp only [commonDays]
  rw [era, nextEra]
  rcases century with same | next
  · rw [same]
    omega
  · rw [next]
    omega

theorem commonDays_mono {first second : Nat} (ordered : first ≤ second) : commonDays first ≤ commonDays second := by
  induction ordered with
  | refl => exact Nat.le_refl _
  | step _ ih => exact Nat.le_trans ih (commonDays_succ _)

theorem commonDays_at_years : ∀ year < 400, (year = 0 ∨ commonDays (firstDay year - 1) < 365 * year) ∧
      365 * (year + 1) ≤ commonDays (firstDay year + 366) := by
  decide +kernel

theorem firstDay_bounds {dayOfEra : Nat} (inEra : dayOfEra < 146097) :
    commonDays dayOfEra / 365 < 400 ∧ firstDay (commonDays dayOfEra / 365) ≤ dayOfEra ∧
      dayOfEra ≤ firstDay (commonDays dayOfEra / 365) + 365 := by
  have last : commonDays dayOfEra ≤ commonDays 146096 := commonDays_mono (by omega)
  have lastValue : commonDays 146096 = 145999 := by decide
  have below : commonDays dayOfEra / 365 < 400 := by omega
  obtain ⟨before, after⟩ := commonDays_at_years _ below
  refine ⟨below, ?_, ?_⟩
  · rcases before with first | before
    · rw [first]
      exact Nat.zero_le _
    · by_contra early
      have earlier := commonDays_mono (show dayOfEra ≤ firstDay (commonDays dayOfEra / 365) - 1 by omega)
      omega
  · by_contra late
    have later := commonDays_mono (show firstDay (commonDays dayOfEra / 365) + 366 ≤ dayOfEra by omega)
    omega

def CivilDate.dayNumber (date : CivilDate) : Int :=
  let year := if date.month ≤ 2 then date.year - 1 else date.year
  let marchMonth := if date.month ≤ 2 then date.month + 9 else date.month - 3
  let dayOfYear := (153 * marchMonth + 2) / 5 + date.day - 1
  year.fdiv 400 * 146097 + firstDay (year.fmod 400).toNat + dayOfYear - 719468

theorem marchMonth_bounds {dayOfYear : Nat} (inYear : dayOfYear ≤ 365) :
    (5 * dayOfYear + 2) / 153 ≤ 11 ∧ (153 * ((5 * dayOfYear + 2) / 153) + 2) / 5 ≤ dayOfYear := by
  omega

theorem era_fdiv {yearOfEra : Nat} {era : Int} (below : yearOfEra < 400) :
    ((yearOfEra : Int) + era * 400).fdiv 400 = era := by
  rw [Int.fdiv_eq_ediv_of_nonneg _ (by decide)]
  omega

theorem era_fmod {yearOfEra : Nat} {era : Int} (below : yearOfEra < 400) :
    (((yearOfEra : Int) + era * 400).fmod 400).toNat = yearOfEra := by
  rw [Int.fmod_eq_emod_of_nonneg _ (by decide)]
  omega

theorem dayOfEra_lt (day : Int) : ((day + 719468).fmod 146097).toNat < 146097 := by
  have bound := Int.fmod_lt_of_pos (day + 719468) (show (0 : Int) < 146097 by decide)
  omega

/-- The date of a day of a month of a year, both counted from March. -/
def marchDate (year : Int) (marchMonth day : Nat) : CivilDate :=
  let month := if marchMonth < 10 then marchMonth + 3 else marchMonth - 9
  { year := if month ≤ 2 then year + 1 else year, month, day }

theorem civilDate_parts (day : Int) : ∃ (era : Int) (yearOfEra dayOfYear marchMonth : Nat),
    day + 719468 = era * 146097 + (firstDay yearOfEra + dayOfYear : Nat) ∧
      firstDay yearOfEra + dayOfYear < 146097 ∧ commonDays (firstDay yearOfEra + dayOfYear) / 365 = yearOfEra ∧
      yearOfEra < 400 ∧ marchMonth ≤ 11 ∧ (153 * marchMonth + 2) / 5 ≤ dayOfYear ∧ dayOfYear ≤ 365 ∧
      dayOfYear < (153 * (marchMonth + 1) + 2) / 5 ∧
      civilDate day = marchDate (yearOfEra + era * 400) marchMonth (dayOfYear - (153 * marchMonth + 2) / 5 + 1) := by
  have inEra := dayOfEra_lt day
  obtain ⟨below, started, ended⟩ := firstDay_bounds inEra
  have split : (day + 719468).fmod 146097 + 146097 * (day + 719468).fdiv 146097 = day + 719468 :=
    Int.fmod_add_mul_fdiv _ _
  have nonneg : 0 ≤ (day + 719468).fmod 146097 := Int.fmod_nonneg_of_pos _ (by decide)
  have passed := Nat.add_sub_cancel' started
  refine ⟨_, _, _, _, ?_, ?_, ?_, below, (marchMonth_bounds (Nat.sub_le_iff_le_add'.mpr ended)).1,
    (marchMonth_bounds (Nat.sub_le_iff_le_add'.mpr ended)).2, Nat.sub_le_iff_le_add'.mpr ended, by omega, rfl⟩
  · rw [passed]
    omega
  · rw [passed]
    exact inEra
  · rw [passed]

theorem dayNumber_civilDate (day : Int) : (civilDate day).dayNumber = day := by
  obtain ⟨era, yearOfEra, dayOfYear, marchMonth, split, -, -, below, last, first, -, -, same⟩ := civilDate_parts day
  simp only [same, marchDate, CivilDate.dayNumber]
  by_cases early : marchMonth < 10
  · simp only [early, if_true, show ¬ marchMonth + 3 ≤ 2 by omega, if_false,
      Nat.add_sub_cancel, era_fdiv below, era_fmod below]
    omega
  · simp only [early, if_false, show marchMonth - 9 ≤ 2 by omega, if_true,
      show marchMonth - 9 + 9 = marchMonth by omega, Int.add_sub_cancel, era_fdiv below, era_fmod below]
    omega

theorem civilDate_bounds (day : Int) : (civilDate day).month < 100 ∧ (civilDate day).day < 100 := by
  obtain ⟨_, _, dayOfYear, marchMonth, -, -, -, -, last, -, -, inMonth, same⟩ := civilDate_parts day
  simp only [same, marchDate]
  constructor
  · split <;> omega
  · omega

/-! Padding keeps the value, so fields of one width differ when their values do. -/

theorem padded_toList (width value : Nat) :
    (padded width value).toList = List.replicate (width - (toString value).length) '0' ++ Nat.toDigits 10 value := by
  simp [padded]

theorem padded_value (width value : Nat) : Nat.ofDigitChars 10 (padded width value).toList 0 = value := by
  simp [padded_toList, Nat.ofDigitChars_append]

theorem padded_length {width value : Nat} (bound : value < 10 ^ width) (some_ : 0 < width) :
    (padded width value).toList.length = width := by
  have short : (Nat.toDigits 10 value).length ≤ width :=
    (Nat.length_toDigits_le_iff (by decide) some_).mpr bound
  have length : (toString value).length = (Nat.toDigits 10 value).length := by
    simp [← String.length_toList]
  rw [padded_toList, length, List.length_append, List.length_replicate]
  omega

theorem padded_digits {width value : Nat} {char : Char} (member : char ∈ (padded width value).toList) :
    char.isDigit = true := by
  rw [padded_toList, List.mem_append] at member
  rcases member with zero | digit
  · rw [(List.mem_replicate.mp zero).2]
    rfl
  · exact Nat.isDigit_of_mem_toDigits (by decide) (by decide) digit

theorem padded_append_injective {width first second : Nat} {rest other : List Char}
    (wide : 0 < width) (firstFits : first < 10 ^ width) (secondFits : second < 10 ^ width)
    (same : (padded width first).toList ++ rest = (padded width second).toList ++ other) :
    first = second ∧ rest = other := by
  have lengths : (padded width first).toList.length = (padded width second).toList.length := by
    rw [padded_length firstFits wide, padded_length secondFits wide]
  obtain ⟨digits, rests⟩ := List.append_inj same lengths
  have values := congrArg (fun digits => Nat.ofDigitChars 10 digits 0) digits
  simp only [padded_value] at values
  exact ⟨values, rests⟩

/-- The part of the string after the year. -/
def isoTail (instant : Int) : List Char :=
  let date := civilDate (instant.fdiv 86400000)
  let milliseconds := (instant.fmod 86400000).toNat
  '-' :: (padded 2 date.month).toList ++ '-' :: ((padded 2 date.day).toList ++ 'T' ::
    ((padded 2 (milliseconds / 3600000)).toList ++ ':' ::
      ((padded 2 (milliseconds / 60000 % 60)).toList ++ ':' ::
        ((padded 2 (milliseconds / 1000 % 60)).toList ++ '.' ::
          ((padded 3 (milliseconds % 1000)).toList ++ ['Z'])))))

theorem toISOString_toList (instant : Int) :
    (toISOString instant).toList = (isoYear (civilDate (instant.fdiv 86400000)).year).toList ++ isoTail instant := by
  simp [toISOString, isoTail]

theorem milliseconds_lt (instant : Int) : (instant.fmod 86400000).toNat < 86400000 := by
  have bound := Int.fmod_lt_of_pos instant (show (0 : Int) < 86400000 by decide)
  omega

theorem isoTail_length (instant : Int) : (isoTail instant).length = 20 := by
  obtain ⟨month, day⟩ := civilDate_bounds (instant.fdiv 86400000)
  have inDay := milliseconds_lt instant
  simp only [isoTail, List.length_append, List.length_cons, List.length_nil]
  rw [padded_length month (by decide), padded_length day (by decide), padded_length _ (by decide),
    padded_length _ (by decide), padded_length _ (by decide), padded_length _ (by decide)]
  all_goals omega

def isoYearValue : List Char → Int
  | '-' :: digits => -(Nat.ofDigitChars 10 digits 0 : Int)
  | '+' :: digits => Nat.ofDigitChars 10 digits 0
  | digits => Nat.ofDigitChars 10 digits 0

theorem isoYearValue_of_digits {digits : List Char} (all : ∀ char ∈ digits, char.isDigit = true) :
    isoYearValue digits = Nat.ofDigitChars 10 digits 0 := by
  cases digits with
  | nil => rfl
  | cons char rest =>
    have digit := all char List.mem_cons_self
    have minus : char ≠ '-' := by
      rintro rfl
      contradiction
    have plus : char ≠ '+' := by
      rintro rfl
      contradiction
    simp [isoYearValue, minus, plus]

theorem isoYearValue_isoYear (year : Int) : isoYearValue (isoYear year).toList = year := by
  rw [isoYear]
  split
  · rw [isoYearValue_of_digits fun _ member => padded_digits member, padded_value]
    omega
  split
  · rw [String.toList_append]
    change -(Nat.ofDigitChars 10 (padded 6 (-year).toNat).toList 0 : Int) = year
    rw [padded_value]
    omega
  · rw [String.toList_append]
    change (Nat.ofDigitChars 10 (padded 6 year.toNat).toList 0 : Int) = year
    rw [padded_value]
    omega

theorem colon_not_in_isoYear (year : Int) : ':' ∉ (isoYear year).toList := by
  intro member
  have digits {width value : Nat} (inside : ':' ∈ (padded width value).toList) : False :=
    absurd (padded_digits inside) (by decide)
  rw [isoYear] at member
  split at member
  · exact digits member
  split at member
  · rw [String.toList_append, List.mem_append] at member
    rcases member with sign | inside
    · simp at sign
    · exact digits inside
  · rw [String.toList_append, List.mem_append] at member
    rcases member with sign | inside
    · simp at sign
    · exact digits inside

theorem instant_of_parts {first second : Int} (years : (isoYear (civilDate (first.fdiv 86400000)).year).toList =
      (isoYear (civilDate (second.fdiv 86400000)).year).toList)
    (tails : isoTail first = isoTail second) : first = second := by
  have year := congrArg isoYearValue years
  simp only [isoYearValue_isoYear] at year
  obtain ⟨firstMonth, firstDay⟩ := civilDate_bounds (first.fdiv 86400000)
  obtain ⟨secondMonth, secondDay⟩ := civilDate_bounds (second.fdiv 86400000)
  have firstInDay := milliseconds_lt first
  have secondInDay := milliseconds_lt second
  simp only [isoTail, List.cons_append, List.cons.injEq, true_and] at tails
  obtain ⟨month, tails⟩ :=
    padded_append_injective (by decide) firstMonth secondMonth tails
  simp only [List.cons.injEq, true_and] at tails
  obtain ⟨day, tails⟩ := padded_append_injective (by decide) firstDay secondDay tails
  simp only [List.cons.injEq, true_and] at tails
  obtain ⟨hours, tails⟩ := padded_append_injective (by decide) (by omega) (by omega) tails
  simp only [List.cons.injEq, true_and] at tails
  obtain ⟨minutes, tails⟩ := padded_append_injective (by decide) (by omega) (by omega) tails
  simp only [List.cons.injEq, true_and] at tails
  obtain ⟨seconds, tails⟩ := padded_append_injective (by decide) (by omega) (by omega) tails
  simp only [List.cons.injEq, true_and] at tails
  obtain ⟨millis, _⟩ := padded_append_injective (by decide) (by omega) (by omega) tails
  have days : (civilDate (first.fdiv 86400000)).dayNumber = (civilDate (second.fdiv 86400000)).dayNumber := by
    simp only [CivilDate.dayNumber, year, month, day]
  rw [dayNumber_civilDate, dayNumber_civilDate] at days
  have firstParts := Int.fmod_add_mul_fdiv first 86400000
  have secondParts := Int.fmod_add_mul_fdiv second 86400000
  have firstNonneg := Int.fmod_nonneg_of_pos first (show (0 : Int) < 86400000 by decide)
  have secondNonneg := Int.fmod_nonneg_of_pos second (show (0 : Int) < 86400000 by decide)
  omega

end Lobu.Scheduled
