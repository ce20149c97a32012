namespace AvbEntity

def isLeapYear (year : Int) : Bool := year % 4 == 0 && (year % 100 != 0 || year % 400 == 0)

def daysInMonth (year : Int) (month : Nat) : Nat :=
  if month = 2 then if isLeapYear year then 29 else 28
  else if month = 4 ∨ month = 6 ∨ month = 9 ∨ month = 11 then 30 else 31

theorem daysInMonth_pos (year : Int) (month : Nat) : 1 ≤ daysInMonth year month := by
  unfold daysInMonth
  split
  · split <;> decide
  · split <;> decide

theorem daysInMonth_le (year : Int) (month : Nat) : daysInMonth year month ≤ 31 := by
  unfold daysInMonth
  split
  · split <;> decide
  · split <;> decide

structure Date where
  year : Int
  month : Nat
  day : Nat
  month_pos : 1 ≤ month
  month_le : month ≤ 12
  day_pos : 1 ≤ day
  day_le : day ≤ daysInMonth year month
deriving DecidableEq

namespace Date

def ofParts? (year : Int) (month day : Nat) : Option Date :=
  if h : 1 ≤ month ∧ month ≤ 12 ∧ 1 ≤ day ∧ day ≤ daysInMonth year month then
    some ⟨year, month, day, h.1, h.2.1, h.2.2.1, h.2.2.2⟩
  else none

@[simp] theorem ofParts?_parts (d : Date) : ofParts? d.year d.month d.day = some d := by
  rw [ofParts?, dif_pos ⟨d.month_pos, d.month_le, d.day_pos, d.day_le⟩]

def next (d : Date) : Date :=
  if h : d.day + 1 ≤ daysInMonth d.year d.month then
    ⟨d.year, d.month, d.day + 1, d.month_pos, d.month_le, by omega, h⟩
  else if h : d.month + 1 ≤ 12 then
    ⟨d.year, d.month + 1, 1, by omega, h, by decide, daysInMonth_pos ..⟩
  else ⟨d.year + 1, 1, 1, by decide, by decide, by decide, daysInMonth_pos ..⟩

def previous (d : Date) : Date :=
  if h : 2 ≤ d.day then
    ⟨d.year, d.month, d.day - 1, d.month_pos, d.month_le, by omega, by have := d.day_le; omega⟩
  else if h : 2 ≤ d.month then
    ⟨d.year, d.month - 1, daysInMonth d.year (d.month - 1), by omega, by have := d.month_le; omega,
      daysInMonth_pos .., Nat.le_refl _⟩
  else ⟨d.year - 1, 12, 31, by decide, by decide, by decide, by simp [daysInMonth]⟩

end Date

end AvbEntity
