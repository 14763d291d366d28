/-
Dates of the proleptic Gregorian calendar, and days counted from 1970-01-01.

Both ways go through years that begin in March, so that a leap day is the
last of its year: 400 of them are 146097 days. Every day is the date it is
converted to (`toDays_ofDays`), and a year's days are those from its first to
the next one's (`le_year_iff`).
-/
import Mathlib.Data.Int.Notation
import Mathlib.Tactic.Linarith.Frontend

namespace Calendar

/-- Months and days count from one; year 0 is the one before year 1. -/
structure Date where
  year : Int
  month : Int
  day : Int
  deriving DecidableEq

/-- The days before month `m` of a year that begins in March, its month 0. -/
def daysBefore (m : Int) : Int := (153 * m + 2) / 5

/-- The days before year `y`, counted from 0000-03-01, of years that begin in March. -/
def daysBeforeYear (y : Int) : Int := 365 * y + y / 4 - y / 100 + y / 400

/-- The days from 1970-01-01 to the date. -/
def Date.toDays (d : Date) : Int :=
  let y := if d.month ≤ 2 then d.year - 1 else d.year
  let m := if d.month ≤ 2 then d.month + 9 else d.month - 3
  daysBeforeYear y + daysBefore m + (d.day - 1) - 719468

/-- A day in a year that begins in March, as that year and the days before it there. -/
structure YearDay where
  year : Int
  day : Int

/-- The year a day counted from 0000-03-01 is in: four centuries of 36524 days, each of 25
times four years of 365, but for the leap days at the end of each. -/
def yearDayOf (z : Int) : YearDay :=
  let era := z / 146097
  let dayOfEra := z % 146097
  let century := min (dayOfEra / 36524) 3
  let dayOfCentury := dayOfEra - century * 36524
  let quad := dayOfCentury / 1461
  let dayOfQuad := dayOfCentury % 1461
  let year := min (dayOfQuad / 365) 3
  ⟨400 * era + 100 * century + 4 * quad + year, dayOfQuad - year * 365⟩

def ofDays (days : Int) : Date :=
  let yd := yearDayOf (days + 719468)
  let m := (5 * yd.day + 2) / 153
  { year := if m < 10 then yd.year else yd.year + 1
    month := if m < 10 then m + 3 else m - 9
    day := yd.day - daysBefore m + 1 }

theorem daysBeforeYear_parts {e c q y : Int} (hc : 0 ≤ c ∧ c ≤ 3) (hq : 0 ≤ q ∧ q ≤ 24) (hy : 0 ≤ y ∧ y ≤ 3) :
    daysBeforeYear (400 * e + 100 * c + 4 * q + y) = 146097 * e + 36524 * c + 1461 * q + 365 * y := by
  have h4 : (400 * e + 100 * c + 4 * q + y) / 4 = 100 * e + 25 * c + q := by omega
  have h100 : (400 * e + 100 * c + 4 * q + y) / 100 = 4 * e + c := by omega
  have h400 : (400 * e + 100 * c + 4 * q + y) / 400 = e := by omega
  unfold daysBeforeYear
  rw [h4, h100, h400]
  omega

/-- A year is at least 365 days. -/
theorem daysBeforeYear_succ (y : Int) : daysBeforeYear y + 365 ≤ daysBeforeYear (y + 1) := by
  unfold daysBeforeYear
  omega

theorem daysBeforeYear_mono {y y' : Int} (h : y ≤ y') : daysBeforeYear y ≤ daysBeforeYear y' := by
  obtain ⟨n, rfl⟩ := Int.le.dest h
  induction n with
  | zero => simp
  | succ n ih =>
    have hsucc := daysBeforeYear_succ (y + n)
    have ih := ih (by omega)
    have hassoc : y + (n + 1 : Nat) = y + n + 1 := by omega
    rw [hassoc]
    omega

/-- The year a day is found in is the one it is in. -/
theorem yearDayOf_spec (z : Int) : daysBeforeYear (yearDayOf z).year + (yearDayOf z).day = z ∧
    0 ≤ (yearDayOf z).day ∧ (yearDayOf z).day ≤ 365 ∧ z < daysBeforeYear ((yearDayOf z).year + 1) := by
  obtain ⟨e, c, q, y, d, hyd, hc, hq, hy, hz, hd, hlast⟩ :
    ∃ e c q y d, yearDayOf z = ⟨400 * e + 100 * c + 4 * q + y, d⟩ ∧
      (0 ≤ c ∧ c ≤ 3) ∧ (0 ≤ q ∧ q ≤ 24) ∧ (0 ≤ y ∧ y ≤ 3) ∧ z = 146097 * e + 36524 * c + 1461 * q + 365 * y + d ∧
      (0 ≤ d ∧ d ≤ 365) ∧ (d ≤ 364 ∨ y = 3 ∧ (q < 24 ∨ c = 3)) := by
    refine ⟨_, _, _, _, _, rfl, ?_, ?_, ?_, ?_, ?_, ?_⟩ <;> omega
  have hparts := daysBeforeYear_parts (e := e) hc hq hy
  have hnext : z < daysBeforeYear (400 * e + 100 * c + 4 * q + y + 1) := by
    by_cases hy3 : y < 3
    · have hsucc := daysBeforeYear_succ (400 * e + 100 * c + 4 * q + y)
      omega
    · by_cases hq24 : q < 24
      · have hnext := daysBeforeYear_parts (e := e) (q := q + 1) (y := 0) hc (by omega) (by omega)
        have heq : 400 * e + 100 * c + 4 * q + y + 1 = 400 * e + 100 * c + 4 * (q + 1) + 0 := by omega
        rw [heq, hnext]
        omega
      · by_cases hc3 : c < 3
        · have hsucc := daysBeforeYear_succ (400 * e + 100 * c + 4 * q + y)
          omega
        · have hnext := daysBeforeYear_parts (e := e + 1) (c := 0) (q := 0) (y := 0) (by omega) (by omega) (by omega)
          have heq : 400 * e + 100 * c + 4 * q + y + 1 = 400 * (e + 1) + 100 * 0 + 4 * 0 + 0 := by omega
          rw [heq, hnext]
          omega
  rw [hyd]
  refine ⟨?_, hd.1, hd.2, hnext⟩
  simp only [hparts]
  omega

section

variable (days : Int)

/-- Months and days are within their bounds. -/
theorem ofDays_bounds :
    (1 ≤ (ofDays days).month ∧ (ofDays days).month ≤ 12) ∧ 1 ≤ (ofDays days).day ∧ (ofDays days).day ≤ 31 := by
  obtain ⟨-, hlo, hhi, -⟩ := yearDayOf_spec (days + 719468)
  unfold ofDays daysBefore
  simp only
  generalize (yearDayOf (days + 719468)).day = d at hlo hhi ⊢
  refine ⟨?_, ?_, ?_⟩
  · split <;> omega
  · omega
  · omega

/-- **Every day is the date it is converted to.** -/
theorem toDays_ofDays : (ofDays days).toDays = days := by
  obtain ⟨hsum, hlo, hhi, -⟩ := yearDayOf_spec (days + 719468)
  unfold ofDays Date.toDays daysBefore
  simp only
  generalize (yearDayOf (days + 719468)).day = d at hsum hlo hhi ⊢
  generalize (yearDayOf (days + 719468)).year = y at hsum ⊢
  by_cases hm : (5 * d + 2) / 153 < 10
  · have hlt : ¬ (5 * d + 2) / 153 + 3 ≤ 2 := by omega
    simp only [if_pos hm, if_neg hlt]
    omega
  · have hle : (5 * d + 2) / 153 - 9 ≤ 2 := by omega
    simp only [if_neg hm, if_pos hle]
    have hyear : y + 1 - 1 = y := by omega
    rw [hyear]
    omega

/-- The days of a year are those from its first of January to the next. -/
theorem le_year_iff {n : Int} : n ≤ (ofDays days).year ↔ (Date.mk n 1 1).toDays ≤ days := by
  obtain ⟨hsum, hlo, hhi, -⟩ := yearDayOf_spec (days + 719468)
  have hyear : (ofDays days).year =
      if (5 * (yearDayOf (days + 719468)).day + 2) / 153 < 10 then (yearDayOf (days + 719468)).year
      else (yearDayOf (days + 719468)).year + 1 := rfl
  have hfirst : (Date.mk n 1 1).toDays = daysBeforeYear (n - 1) + 306 - 719468 := by
    unfold Date.toDays daysBefore
    simp
  rw [hyear, hfirst]
  generalize (yearDayOf (days + 719468)).day = d at hsum hlo hhi ⊢
  generalize (yearDayOf (days + 719468)).year = y at hsum ⊢
  constructor
  · intro h
    split at h
    · have hsucc := daysBeforeYear_succ (n - 1)
      have hmono := daysBeforeYear_mono h
      rw [Int.sub_add_cancel] at hsucc
      omega
    · have hmono := daysBeforeYear_mono (show n - 1 ≤ y by omega)
      omega
  · intro h
    split
    · by_contra hlt
      have hmono := daysBeforeYear_mono (show y ≤ n - 1 by omega)
      omega
    · by_contra hlt
      have hsucc := daysBeforeYear_succ y
      have hmono := daysBeforeYear_mono (show y + 1 ≤ n - 1 by omega)
      omega

end

end Calendar
