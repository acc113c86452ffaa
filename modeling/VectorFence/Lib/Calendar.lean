import Mathlib.Tactic

/-! Times of the Gregorian calendar. A `DateTime` carries that it exists, so there is none for the
    30th of February or the hour 24.

        month   1   2      3   4   5   6   7   8   9   10  11  12
        days    31  28/29  31  30  31  30  31  31  30  31  30  31 -/

namespace Calendar

def IsLeap (year : ℕ) : Prop := year % 4 = 0 ∧ (year % 100 ≠ 0 ∨ year % 400 = 0)

instance (year : ℕ) : Decidable (IsLeap year) := inferInstanceAs (Decidable (_ ∧ _))

def daysIn (year month : ℕ) : ℕ :=
  if month = 2 then if IsLeap year then 29 else 28
  else if month = 4 ∨ month = 6 ∨ month = 9 ∨ month = 11 then 30
  else 31

theorem daysIn_le (year month : ℕ) : daysIn year month ≤ 31 := by
  rw [daysIn]
  split_ifs <;> norm_num

/-- The day is one of the month. -/
def IsDate (year month day : ℕ) : Prop := 1 ≤ month ∧ month ≤ 12 ∧ 1 ≤ day ∧ day ≤ daysIn year month

def IsTime (hour minute second : ℕ) : Prop := hour < 24 ∧ minute < 60 ∧ second < 60

instance (year month day : ℕ) : Decidable (IsDate year month day) := inferInstanceAs (Decidable (_ ∧ _))

instance (hour minute second : ℕ) : Decidable (IsTime hour minute second) :=
  inferInstanceAs (Decidable (_ ∧ _))

/-- In another year a date is missing only where it is the 29th of February. -/
theorem IsDate.other_year {year month day : ℕ} (h : IsDate year month day) (year' : ℕ) :
    IsDate year' month day ↔ (month = 2 → day = 29 → IsLeap year') := by
  obtain ⟨hm0, hm, hd0, hd⟩ := h
  have hiff : IsDate year' month day ↔ day ≤ daysIn year' month := by
    simp only [IsDate, hm0, hm, hd0, true_and]
  rw [hiff]
  rcases eq_or_ne month 2 with rfl | hfeb
  · have h29 : day ≤ 29 := by
      rw [daysIn, if_pos rfl] at hd
      split_ifs at hd <;> omega
    rw [daysIn, if_pos rfl]
    split_ifs with hleap
    · exact iff_of_true h29 fun _ _ => hleap
    · constructor
      · intro hle _ heq
        omega
      · intro himp
        have hne : day ≠ 29 := fun heq => hleap (himp rfl heq)
        omega
  · have hsame : daysIn year' month = daysIn year month := by
      rw [daysIn, daysIn, if_neg hfeb, if_neg hfeb]
    rw [hsame]
    exact iff_of_true hd fun h2 => absurd h2 hfeb

theorem IsDate.leap {year day : ℕ} (h : IsDate year 2 day) (h29 : day = 29) : IsLeap year := by
  obtain ⟨-, -, -, hd⟩ := h
  by_contra hleap
  rw [daysIn, if_pos rfl, if_neg hleap] at hd
  omega

/-- A time of the calendar. -/
structure DateTime where
  year : ℕ
  month : ℕ
  day : ℕ
  hour : ℕ
  minute : ℕ
  second : ℕ
  date : IsDate year month day
  time : IsTime hour minute second

theorem DateTime.day_le (c : DateTime) : c.day ≤ 31 := c.date.2.2.2.trans (daysIn_le c.year c.month)

end Calendar
