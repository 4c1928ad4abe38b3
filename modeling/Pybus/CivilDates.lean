import Pybus.Recurrence
import Mathlib.Tactic.IntervalCases
/-! The calendar behind the monthly slots: every date is a day of its month, and the months follow
one another without a gap. -/
namespace Pybus

namespace Recurrence

variable {m n d wall : Int}

/-- A day of a four-century cycle lies in one of its years, which leaves out a leap day each
century but the last. -/
theorem cycle_year {doe : Int} (h0 : 0 ≤ doe) (h1 : doe < 146097) :
    ∃ y doy, 0 ≤ y ∧ y < 400 ∧ doe = 365 * y + y / 4 - y / 100 + doy ∧ 0 ≤ doy ∧
      (doy ≤ 364 ∨ doy = 365 ∧ (y + 1) % 4 = 0 ∧ ((y + 1) % 100 ≠ 0 ∨ y = 399)) ∧
      (doe - doe / 1460 + doe / 36524 - doe / 146096) / 365 = y := by
  obtain ⟨c, r, hc0, hc3, hr0, hr, hdoe⟩ : ∃ c r, 0 ≤ c ∧ c ≤ 3 ∧ 0 ≤ r ∧
      (r < 36524 ∨ c = 3 ∧ r = 36524) ∧ doe = 36524 * c + r :=
    ⟨min 3 (doe / 36524), doe - 36524 * min 3 (doe / 36524), by omega, by omega, by omega,
      by omega, by omega⟩
  obtain ⟨q, s, hq0, hq, hs0, hs, hrq⟩ : ∃ q s, 0 ≤ q ∧ q ≤ 24 ∧ 0 ≤ s ∧ s < 1461 ∧
      r = 1461 * q + s :=
    ⟨r / 1461, r % 1461, by omega, by omega, by omega, by omega, by omega⟩
  obtain ⟨a, d, ha0, ha, hd0, hd, hsa⟩ : ∃ a d, 0 ≤ a ∧ a ≤ 3 ∧ 0 ≤ d ∧
      (d ≤ 364 ∨ a = 3 ∧ d = 365) ∧ s = 365 * a + d :=
    ⟨min 3 (s / 365), s - 365 * min 3 (s / 365), by omega, by omega, by omega,
      by omega, by omega⟩
  have hfour : (100 * c + 4 * q + a) / 4 = 25 * c + q := by omega
  have hcentury : (100 * c + 4 * q + a) / 100 = c := by omega
  refine ⟨100 * c + 4 * q + a, d, by omega, by omega, by omega, hd0, by omega, ?_⟩
  have hcent : doe / 36524 - doe / 146096 = c := by
    rcases hr with hr | ⟨rfl, rfl⟩
    · have hone : doe / 36524 = c := by omega
      have hzero : doe / 146096 = 0 := by omega
      omega
    · omega
  obtain ⟨e, he, hle⟩ : ∃ e, doe / 1460 = 25 * c + q + e ∧
      (e = 0 ∧ d ≤ 364 ∨ e = 1 ∧ 1 ≤ d) := by
    refine ⟨doe / 1460 - 25 * c - q, by omega, ?_⟩
    omega
  omega

/-- The days from the epoch to the first day of a month, where months are numbered through. -/
def firstOfMonth (months : Int) : Int := daysFromCivil (months / 12) (months % 12 + 1) 1

/-- The number of days of a month. -/
def lengthOfMonth (months : Int) : Int := monthLength (months / 12) (months % 12 + 1)

/-- The number of the month of a local time, and the day of that month. -/
def monthNumber (wall : Int) : Int := year wall * 12 + month wall - 1

def day (wall : Int) : Int := (civil (date wall)).2.2

/-- The number of a date without the four-century cycles. -/
theorem daysFromCivil_eq (y m d : Int) :
    daysFromCivil y m d = (if m ≤ 2 then 365 * (y - 1) + (y - 1) / 4 - (y - 1) / 100 + (y - 1) / 400
        else 365 * y + y / 4 - y / 100 + y / 400)
      + (153 * (if 2 < m then m - 3 else m + 9) + 2) / 5 + d - 1 - 719468 := by
  unfold daysFromCivil
  dsimp only
  split <;> split <;> omega

theorem daysFromCivil_add (y m d e : Int) : daysFromCivil y m (d + e) = daysFromCivil y m d + e := by
  simp only [daysFromCivil_eq]
  omega

theorem lengthOfMonth_bounds (n : Int) : 28 ≤ lengthOfMonth n ∧ lengthOfMonth n ≤ 31 := by
  unfold lengthOfMonth monthLength
  split
  · split <;> omega
  · split <;> omega

theorem firstOfMonth_succ (n : Int) :
    firstOfMonth (n + 1) = firstOfMonth n + lengthOfMonth n := by
  obtain ⟨y, m, hm0, hm, rfl⟩ : ∃ y m, 0 ≤ m ∧ m < 12 ∧ n = y * 12 + m :=
    ⟨n / 12, n % 12, by omega, by omega, by omega⟩
  have hy : (y * 12 + m) / 12 = y := by omega
  have hmod : (y * 12 + m) % 12 = m := by omega
  simp only [firstOfMonth, lengthOfMonth, hy, hmod, daysFromCivil_eq, monthLength]
  obtain h | h : m < 11 ∨ m = 11 := by omega
  · have hy' : (y * 12 + m + 1) / 12 = y := by omega
    have hm' : (y * 12 + m + 1) % 12 = m + 1 := by omega
    rw [hy', hm']
    interval_cases m <;> simp <;> omega
  · subst h
    have hy' : (y * 12 + 11 + 1) / 12 = y + 1 := by omega
    have hm' : (y * 12 + 11 + 1) % 12 = 0 := by omega
    simp only [hy', hm']
    simp
    omega

/-- A date is a day of its month. -/
theorem civil_spec (d : Int) : 1 ≤ (civil d).2.1 ∧ (civil d).2.1 ≤ 12 ∧ 1 ≤ (civil d).2.2 ∧
    (civil d).2.2 ≤ monthLength (civil d).1 (civil d).2.1 ∧
    daysFromCivil (civil d).1 (civil d).2.1 (civil d).2.2 = d := by
  obtain ⟨era, doe, h0, h1, hd⟩ : ∃ era doe, 0 ≤ doe ∧ doe < 146097 ∧
      d = era * 146097 + doe - 719468 :=
    ⟨(d + 719468) / 146097, (d + 719468) % 146097, by omega, by omega, by omega⟩
  have hera : (d + 719468) / 146097 = era := by omega
  have hrest : d + 719468 - era * 146097 = doe := by omega
  obtain ⟨y, doy, hy0, hy, hdoe, hdoy0, hdoy, hyear⟩ := cycle_year h0 h1
  have hday : doe - (365 * y + y / 4 - y / 100) = doy := by omega
  obtain ⟨mp, hmp⟩ : ∃ mp, (5 * doy + 2) / 153 = mp := ⟨_, rfl⟩
  have hlow : 0 ≤ mp ∧ mp ≤ 11 := by omega
  have hcycle : 365 * (y + era * 400) + (y + era * 400) / 4 - (y + era * 400) / 100
      + (y + era * 400) / 400 = era * 146097 + (365 * y + y / 4 - y / 100) := by
    have h4 : (y + era * 400) / 4 = y / 4 + era * 100 := by omega
    have h100 : (y + era * 400) / 100 = y / 100 + era * 4 := by omega
    have h400 : (y + era * 400) / 400 = era := by omega
    omega
  simp only [civil, hera, hrest, hyear, hday, hmp, daysFromCivil_eq]
  obtain hearly | hlate : mp < 10 ∨ 10 ≤ mp := by omega
  · have hmonth : ¬ mp + 3 ≤ 2 := by omega
    have hmonth' : 2 < mp + 3 := by omega
    simp only [if_pos hearly, if_neg hmonth, if_pos hmonth', Int.add_zero, hcycle]
    refine ⟨by omega, by omega, by omega, ?_, by omega⟩
    unfold monthLength
    obtain ⟨hmp0, -⟩ := hlow
    interval_cases mp <;> simp <;> omega
  · have hearly : ¬ mp < 10 := by omega
    have hmonth : mp - 9 ≤ 2 := by omega
    have hmonth' : ¬ 2 < mp - 9 := by omega
    have hback : y + era * 400 + 1 - 1 = y + era * 400 := by omega
    simp only [if_neg hearly, if_pos hmonth, if_neg hmonth', hback, hcycle]
    refine ⟨by omega, by omega, by omega, ?_, by omega⟩
    unfold monthLength
    obtain ⟨-, hmp11⟩ := hlow
    interval_cases mp
    · simp
      omega
    · simp
      split <;> omega

/-- The months do not overlap. -/
theorem firstOfMonth_lt (h : m < n) : firstOfMonth m < firstOfMonth n := by
  induction n, h using Int.leInduction with
  | base =>
    have := firstOfMonth_succ m
    have := lengthOfMonth_bounds m
    omega
  | succ n hn ih =>
    have := firstOfMonth_succ n
    have := lengthOfMonth_bounds n
    omega

theorem firstOfMonth_le (h : m ≤ n) : firstOfMonth m ≤ firstOfMonth n := by
  rcases Int.lt_or_eq_of_le h with hlt | rfl
  · exact (firstOfMonth_lt hlt).le
  · exact le_rfl

theorem monthNumber_div (wall : Int) : monthNumber wall / 12 = year wall := by
  obtain ⟨hm1, hm12, -⟩ := civil_spec (date wall)
  unfold monthNumber month
  omega

theorem monthNumber_mod (wall : Int) : monthNumber wall % 12 + 1 = month wall := by
  obtain ⟨hm1, hm12, -⟩ := civil_spec (date wall)
  unfold monthNumber month
  omega

/-- A local time lies in its month, on its day. -/
theorem date_eq (wall : Int) : date wall = firstOfMonth (monthNumber wall) + day wall - 1 := by
  obtain ⟨-, -, -, -, hdate⟩ := civil_spec (date wall)
  have hadd := daysFromCivil_add (year wall) (month wall) 1 (day wall - 1)
  have hday : 1 + (day wall - 1) = day wall := by omega
  rw [hday] at hadd
  rw [firstOfMonth, monthNumber_div, monthNumber_mod]
  calc date wall = daysFromCivil (year wall) (month wall) (day wall) := hdate.symm
    _ = daysFromCivil (year wall) (month wall) 1 + day wall - 1 := by omega

theorem day_bounds (wall : Int) : 1 ≤ day wall ∧ day wall ≤ lengthOfMonth (monthNumber wall) := by
  obtain ⟨-, -, hday, hlength, -⟩ := civil_spec (date wall)
  rw [lengthOfMonth, monthNumber_div, monthNumber_mod]
  exact ⟨hday, hlength⟩

theorem firstOfMonth_le_date (wall : Int) : firstOfMonth (monthNumber wall) ≤ date wall := by
  have := date_eq wall
  have := day_bounds wall
  omega

theorem date_lt_firstOfMonth (wall : Int) : date wall < firstOfMonth (monthNumber wall + 1) := by
  have := date_eq wall
  have := day_bounds wall
  have := firstOfMonth_succ (monthNumber wall)
  omega

/-- A date that has reached a month is not of an earlier one. -/
theorem le_monthNumber_of_le (h : firstOfMonth n ≤ date wall) : n ≤ monthNumber wall := by
  by_contra hlt
  have hfirst : firstOfMonth (monthNumber wall + 1) ≤ firstOfMonth n := firstOfMonth_le (by omega)
  have := date_lt_firstOfMonth wall
  omega

theorem monthNumber_le_of_lt (h : date wall < firstOfMonth (n + 1)) : monthNumber wall ≤ n := by
  by_contra hlt
  have hfirst : firstOfMonth (n + 1) ≤ firstOfMonth (monthNumber wall) :=
    firstOfMonth_le (by omega)
  have := firstOfMonth_le_date wall
  omega

end Recurrence

end Pybus
