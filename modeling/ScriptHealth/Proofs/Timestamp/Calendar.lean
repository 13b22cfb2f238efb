import ScriptHealth.Timestamp
import Mathlib.Data.List.Lex

/-!
# The calendar

The days of the calendar are numbered by a formula: the days of the years before, the days of the
months before, and the day of the month. The way back goes by search: through the years, and then
through the months of one year. The two agree because a year is as long as its months together, and
the formula counts one year after the other.

Both directions rest on how the first days of years and of months follow each other, so these are
the lemmas that know about leap years; everything behind them only adds and compares.

## Main definitions

* `Date.yearLength` — the days of a year
* `Date.Exists` — a day of the calendar, of any year from 1 on
* `Date.fields` — year, month and day, in the order in which they are compared

## Main results

* `Date.toDays_lt` — later dates have greater numbers
* `Date.ofDays_spec` — every number has a date
* `Date.ofDays_toDays` — a date is found again from its number
-/

namespace ScriptHealth.Date

open scoped Number.Plain

variable {y m n : Nat}

/-- The days of a year. -/
def yearLength (y : Nat) : Nat := if isLeap y then 366 else 365

/-- A day that the calendar has, of any year from 1 on. -/
structure Exists (d : Date) : Prop where
  year_pos : 1 ≤ d.year
  month_pos : 1 ≤ d.month
  month_le : d.month ≤ 12
  day_pos : 1 ≤ d.day
  day_le : d.day ≤ daysInMonth d.year d.month

/-- Year, month and day, in the order in which dates are compared. -/
def fields (d : Date) : List Nat := [d.year, d.month, d.day]

theorem eq_of_fields_eq {d e : Date} (h : d.fields = e.fields) : d = e := by
  obtain ⟨year, month, day⟩ := d
  obtain ⟨year', month', day'⟩ := e
  cases h
  rfl

/-- A valid date is a day of the calendar, in a year of at most four digits. -/
theorem isValid_iff {d : Date} : d.isValid = true ↔ d.Exists ∧ d.year ≤ 9999 := by
  simp only [isValid, Bool.and_eq_true, decide_eq_true_eq]
  constructor
  · rintro ⟨⟨⟨⟨⟨hyear, hle⟩, hmonth⟩, hmonthLe⟩, hday⟩, hdayLe⟩
    exact ⟨⟨hyear, hmonth, hmonthLe, hday, hdayLe⟩, hle⟩
  · rintro ⟨⟨hyear, hmonth, hmonthLe, hday, hdayLe⟩, hle⟩
    exact ⟨⟨⟨⟨⟨hyear, hle⟩, hmonth⟩, hmonthLe⟩, hday⟩, hdayLe⟩

theorem daysInMonth_le (y m : Nat) : daysInMonth y m ≤ 31 := by
  unfold daysInMonth
  split
  · split <;> decide
  · split <;> decide

/-! ### First days -/

theorem isLeap_iff : isLeap y = true ↔ y % 4 = 0 ∧ (y % 100 ≠ 0 ∨ y % 400 = 0) := by
  simp [isLeap]

/-- Up to a multiple of `k` there is one more of them than before. -/
theorem div_of_mod_eq_zero {k : Nat} (hy : 1 ≤ y) (h : y % k = 0) : y / k = (y - 1) / k + 1 := by
  obtain ⟨z, rfl⟩ := Nat.exists_eq_add_of_le' hy
  rw [Nat.add_sub_cancel, Nat.succ_div, if_pos (Nat.dvd_of_mod_eq_zero h)]

theorem div_of_mod_ne_zero {k : Nat} (hy : 1 ≤ y) (h : y % k ≠ 0) : y / k = (y - 1) / k := by
  obtain ⟨z, rfl⟩ := Nat.exists_eq_add_of_le' hy
  rw [Nat.add_sub_cancel, Nat.succ_div, if_neg (mt Nat.mod_eq_zero_of_dvd h), Nat.add_zero]

/-- The first days of years follow each other by the lengths of the years. -/
theorem daysBeforeYear_succ (hy : 1 ≤ y) :
    daysBeforeYear (y + 1) = daysBeforeYear y + yearLength y := by
  have hle : (y - 1) / 100 ≤ (y - 1) / 4 := Nat.div_le_div_left (by decide) (by decide)
  unfold daysBeforeYear yearLength
  dsimp only
  rw [Nat.add_sub_cancel]
  -- a multiple of 400 is one of 100, and that is one of 4
  by_cases h100 : y % 100 = 0
  · have h4 : y % 4 = 0 := by omega
    rw [div_of_mod_eq_zero hy h4, div_of_mod_eq_zero hy h100]
    by_cases h400 : y % 400 = 0
    · rw [div_of_mod_eq_zero hy h400, if_pos (isLeap_iff.mpr ⟨h4, .inr h400⟩)]
      omega
    · rw [div_of_mod_ne_zero hy h400, if_neg (by rw [isLeap_iff]; omega)]
      omega
  · have h400 : y % 400 ≠ 0 := by omega
    rw [div_of_mod_ne_zero hy h100, div_of_mod_ne_zero hy h400]
    by_cases h4 : y % 4 = 0
    · rw [div_of_mod_eq_zero hy h4, if_pos (isLeap_iff.mpr ⟨h4, .inl h100⟩)]
      omega
    · rw [div_of_mod_ne_zero hy h4, if_neg (by rw [isLeap_iff]; omega)]
      omega

/-- Later years start later. -/
theorem daysBeforeYear_le {y' : Nat} (hy : 1 ≤ y) (h : y ≤ y') :
    daysBeforeYear y ≤ daysBeforeYear y' := by
  induction h with
  | refl => exact Nat.le_refl _
  | @step k hk ih =>
    rw [daysBeforeYear_succ (Nat.le_trans hy hk)]
    exact Nat.le_add_right_of_le ih

/-- The first days of months follow each other by the lengths of the months. -/
theorem daysBeforeMonth_succ (y : Nat) (hm : 1 ≤ m) :
    daysBeforeMonth y (m + 1) = daysBeforeMonth y m + daysInMonth y m := by
  obtain ⟨k, rfl⟩ := Nat.exists_eq_add_of_le' hm
  unfold daysBeforeMonth
  rw [Nat.add_sub_cancel, Nat.add_sub_cancel, List.range_succ, List.map_append, List.sum_append]
  rfl

theorem daysBeforeMonth_le {m' : Nat} (y : Nat) (hm : 1 ≤ m) (h : m ≤ m') :
    daysBeforeMonth y m ≤ daysBeforeMonth y m' := by
  induction h with
  | refl => exact Nat.le_refl _
  | @step k hk ih =>
    rw [daysBeforeMonth_succ y (Nat.le_trans hm hk)]
    exact Nat.le_add_right_of_le ih

/-- The months of a year are as long as the year. -/
theorem daysBeforeMonth_thirteen (y : Nat) : daysBeforeMonth y 13 = yearLength y := by
  unfold yearLength daysBeforeMonth daysInMonth
  split
  · rfl
  · rfl

/-! ### Numbers of dates -/

/-- A day lies before the next month starts. -/
theorem Exists.lt_daysBeforeMonth {d : Date} (h : d.Exists) :
    daysBeforeMonth d.year d.month + (d.day - 1) < daysBeforeMonth d.year (d.month + 1) := by
  have hday := h.day_le
  have hpos := h.day_pos
  rw [daysBeforeMonth_succ _ h.month_pos]
  omega

/-- A day lies before the next year starts. -/
theorem Exists.toDays_lt_daysBeforeYear {d : Date} (h : d.Exists) :
    d.toDays < daysBeforeYear (d.year + 1) := by
  have hmonth := h.lt_daysBeforeMonth
  have hyear : daysBeforeMonth d.year (d.month + 1) ≤ daysBeforeMonth d.year 13 :=
    daysBeforeMonth_le _ (Nat.le_add_left 1 _) (Nat.succ_le_succ h.month_le)
  rw [daysBeforeMonth_thirteen] at hyear
  rw [daysBeforeYear_succ h.year_pos, toDays]
  omega

/-- Later dates have greater numbers. -/
theorem toDays_lt {d e : Date} (hd : d.Exists) (h : d.fields < e.fields) :
    d.toDays < e.toDays := by
  simp only [fields, List.cons_lt_cons_iff, List.not_lt_nil, and_false, or_false] at h
  -- the first field that differs decides, and the next year or month starts in between
  rcases h with hyear | ⟨hyear, hmonth | ⟨hmonth, hday⟩⟩
  · have hnext : daysBeforeYear (d.year + 1) ≤ daysBeforeYear e.year :=
      daysBeforeYear_le (Nat.le_add_left 1 _) hyear
    have hlast := hd.toDays_lt_daysBeforeYear
    rw [toDays.eq_1 e]
    omega
  · have hnext : daysBeforeMonth d.year (d.month + 1) ≤ daysBeforeMonth d.year e.month :=
      daysBeforeMonth_le _ (Nat.le_add_left 1 _) hmonth
    have hlast := hd.lt_daysBeforeMonth
    rw [toDays, toDays, ← hyear]
    omega
  · have hpos := hd.day_pos
    rw [toDays, toDays, ← hyear, ← hmonth]
    omega

theorem toDays_lt_calendarDays {d : Date} (h : d.isValid = true) : d.toDays < calendarDays := by
  obtain ⟨hexists, hyear⟩ := isValid_iff.mp h
  have hlast : daysBeforeYear (d.year + 1) ≤ daysBeforeYear 10000 :=
    daysBeforeYear_le (Nat.le_add_left 1 _) (Nat.succ_le_succ hyear)
  exact Nat.lt_of_lt_of_le hexists.toDays_lt_daysBeforeYear hlast

/-! ### Dates of numbers -/

/-- The search for a year ends at the one that a day lies in. -/
theorem advance_spec {k : Nat} (hy : 1 ≤ y) (hle : daysBeforeYear y ≤ n)
    (hlt : n < daysBeforeYear (y + k + 1)) :
    1 ≤ yearOfDay.advance n k y ∧ daysBeforeYear (yearOfDay.advance n k y) ≤ n ∧
      n < daysBeforeYear (yearOfDay.advance n k y + 1) := by
  induction k generalizing y with
  | zero => exact ⟨hy, hle, hlt⟩
  | succ k ih =>
    rw [yearOfDay.advance]
    split
    · rename_i hnext
      apply ih (Nat.le_add_left 1 y) hnext
      rwa [Nat.add_right_comm y 1 k]
    · rename_i hnext
      exact ⟨hy, hle, Nat.lt_of_not_le hnext⟩

/-- A day lies in the year of its number. -/
theorem yearOfDay_spec (n : Nat) : 1 ≤ yearOfDay n ∧ daysBeforeYear (yearOfDay n) ≤ n ∧
    n < daysBeforeYear (yearOfDay n + 1) := by
  unfold yearOfDay
  dsimp only
  -- the search starts at a year that is not too late, as if every year were a leap year
  refine advance_spec (Nat.le_add_left 1 _) ?_ ?_
  · rw [daysBeforeYear, Nat.add_sub_cancel]
    omega
  · rw [daysBeforeYear, Nat.add_sub_cancel]
    omega

/-- The search for a month ends at the one that a day lies in. -/
theorem go_spec {k : Nat} (hm : 1 ≤ m)
    (hlt : daysBeforeMonth y m + n < daysBeforeMonth y (m + k + 1)) :
    (m ≤ (monthDay.go y k m n).1 ∧ (monthDay.go y k m n).1 ≤ m + k) ∧
      (1 ≤ (monthDay.go y k m n).2 ∧
        (monthDay.go y k m n).2 ≤ daysInMonth y (monthDay.go y k m n).1) ∧
      daysBeforeMonth y (monthDay.go y k m n).1 + ((monthDay.go y k m n).2 - 1) =
        daysBeforeMonth y m + n := by
  induction k generalizing m n with
  | zero =>
    rw [Nat.add_zero, daysBeforeMonth_succ y hm] at hlt
    refine ⟨⟨Nat.le_refl m, Nat.le_refl m⟩, ⟨Nat.le_add_left 1 n, ?_⟩, rfl⟩
    change n + 1 ≤ daysInMonth y m
    omega
  | succ k ih =>
    rw [monthDay.go]
    split
    · rename_i hday
      exact ⟨⟨Nat.le_refl m, Nat.le_add_right m _⟩, ⟨Nat.le_add_left 1 n, hday⟩, rfl⟩
    · -- the days of this month are taken off, and the search goes on behind them
      rename_i hday
      have hsum : daysBeforeMonth y (m + 1) + (n - daysInMonth y m) = daysBeforeMonth y m + n := by
        rw [daysBeforeMonth_succ y hm]
        omega
      have hrest := ih (Nat.le_add_left 1 m) (n := n - daysInMonth y m) (by
        rw [hsum, Nat.add_right_comm m 1 k]
        exact hlt)
      obtain ⟨⟨hlow, hhigh⟩, hday, heq⟩ := hrest
      exact ⟨⟨Nat.le_of_succ_le hlow, by omega⟩, hday, heq.trans hsum⟩

/-- The date of a number is a day of the calendar, and it has that number. -/
theorem ofDays_spec (n : Nat) : (ofDays n).Exists ∧ (ofDays n).toDays = n := by
  obtain ⟨hyear, hle, hlt⟩ := yearOfDay_spec n
  have hzero : daysBeforeMonth (yearOfDay n) 1 = 0 := rfl
  have hrest : daysBeforeMonth (yearOfDay n) 1 + (n - daysBeforeYear (yearOfDay n)) <
      daysBeforeMonth (yearOfDay n) (1 + 11 + 1) := by
    rw [daysBeforeMonth_thirteen]
    rw [daysBeforeYear_succ hyear] at hlt
    omega
  obtain ⟨hmonth, hday, hsum⟩ := go_spec (Nat.le_refl 1) hrest
  refine ⟨⟨hyear, hmonth.1, hmonth.2, hday.1, hday.2⟩, ?_⟩
  change daysBeforeYear (yearOfDay n) + _ + _ = n
  rw [Nat.add_assoc]
  refine (congrArg _ hsum).trans ?_
  omega

/-- The numbers of the calendar have valid dates. -/
theorem isValid_ofDays (h : n < calendarDays) : (ofDays n).isValid = true := by
  refine isValid_iff.mpr ⟨(ofDays_spec n).1, ?_⟩
  by_contra hyear
  have hlast : daysBeforeYear 10000 ≤ daysBeforeYear (yearOfDay n) :=
    daysBeforeYear_le (by decide) (Nat.lt_of_not_le hyear)
  have hcalendar : daysBeforeYear 10000 = calendarDays := rfl
  have hfirst := (yearOfDay_spec n).2.1
  omega

/-- A date is found again from its number. -/
theorem ofDays_toDays {d : Date} (h : d.Exists) : ofDays d.toDays = d := by
  obtain ⟨hexists, hdays⟩ := ofDays_spec d.toDays
  rcases lt_trichotomy (ofDays d.toDays).fields d.fields with hlt | heq | hgt
  · exact absurd hdays (Nat.ne_of_lt (toDays_lt hexists hlt))
  · exact eq_of_fields_eq heq
  · exact absurd hdays (Nat.ne_of_gt (toDays_lt h hgt))

end ScriptHealth.Date
