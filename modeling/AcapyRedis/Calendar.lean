import Mathlib

/-!
The Gregorian calendar, extended to all years from 0 on. Years and months are blocks of days
one after the other, and a day is the block in which it lies and its place in it (`locate`):
what `date_of` makes of a number of days counts as many days again (`days_date_of`).
-/
namespace AcapyRedis.Calendar

/-! ### Consecutive blocks -/

/-- The block in which a position lies, and its place in the block. -/
def locate : List Nat → Nat → Nat × Nat
  | [], n => (0, n)
  | length :: later, n =>
    if n < length then (0, n) else ((locate later (n - length)).1 + 1, (locate later (n - length)).2)

theorem locate_spec {lengths : List Nat} {n : Nat} (inside : n < lengths.sum) :
    (∃ length, lengths[(locate lengths n).1]? = some length ∧ (locate lengths n).2 < length) ∧
      (lengths.take (locate lengths n).1).sum + (locate lengths n).2 = n := by
  induction lengths generalizing n with
  | nil => simp at inside
  | cons length later ih =>
    rw [locate]
    split
    · next here => exact ⟨⟨length, rfl, here⟩, by simp⟩
    · next past =>
      rw [List.sum_cons] at inside
      obtain ⟨⟨other,found,fits⟩,counts⟩ := ih (n := n - length) (by omega)
      refine ⟨⟨other, by simpa using found, fits⟩, ?_⟩
      rw [List.take_succ_cons,List.sum_cons]
      omega

/-- The first block has the positions below its length. -/
theorem locate_first {length n : Nat} {later : List Nat} : (locate (length :: later) n).1 = 0 ↔ n < length := by
  rw [locate]
  split <;> simp [*]

/-! ### Years and months -/

def leap (year : Nat) : Bool := year % 4 = 0 && (year % 100 ≠ 0 || year % 400 = 0)

def month_lengths (year : Nat) : List Nat :=
  [31, if leap year then 29 else 28, 31, 30, 31, 30, 31, 31, 30, 31, 30, 31]

/-- The lengths of the years of an era; the calendar is the same in every era. -/
def era : List Nat := (List.range 400).map (fun year => (month_lengths year).sum)

theorem era_days : era.sum = 146097 := by decide +kernel

theorem leap_era (eras year : Nat) : leap (400 * eras + year) = leap year := by
  have four : (400 * eras + year) % 4 = year % 4 := by omega
  have hundred : (400 * eras + year) % 100 = year % 100 := by omega
  have all : (400 * eras + year) % 400 = year % 400 := by omega
  rw [leap,four,hundred,all,leap]

theorem month_lengths_era (eras year : Nat) : month_lengths (400 * eras + year) = month_lengths year := by
  rw [month_lengths,leap_era,month_lengths]

structure Date where
  year : Nat
  month : Nat
  day : Nat
  deriving DecidableEq

/-- The months and the days of a month begin with 1. -/
def Date.Valid (date : Date) : Prop :=
  1 ≤ date.month ∧ 1 ≤ date.day ∧ date.day ≤ ((month_lengths date.year)[date.month - 1]?).getD 0

instance (date : Date) : Decidable date.Valid := inferInstanceAs (Decidable (_ ∧ _ ∧ _))

theorem month_lengths_le (year : Nat) : ∀ length ∈ month_lengths year, length ≤ 31 := by
  rw [month_lengths]
  cases leap year <;> decide

theorem Date.Valid.bounds {date : Date} (valid : date.Valid) : date.month ≤ 12 ∧ date.day ≤ 31 := by
  obtain ⟨_,first,last⟩ := valid
  cases found : (month_lengths date.year)[date.month - 1]? with
  | none =>
    rw [found] at last
    exact absurd (Nat.le_trans first last) (by decide)
  | some length =>
    rw [found] at last
    obtain ⟨below,_⟩ := List.getElem?_eq_some_iff.mp found
    have twelve : date.month - 1 < 12 := below
    exact ⟨by omega, Nat.le_trans last (month_lengths_le _ _ (List.mem_of_getElem? found))⟩

/-- The days since the first of January of the year 0. -/
def Date.days (date : Date) : Nat :=
  146097 * (date.year / 400) + (era.take (date.year % 400)).sum +
    ((month_lengths date.year).take (date.month - 1)).sum + (date.day - 1)

/-- The date that comes some days after the first of January of the year 0. -/
def date_of (days : Nat) : Date :=
  let (year, rest) := locate era (days % 146097)
  let (month, day) := locate (month_lengths year) rest
  ⟨400 * (days / 146097) + year, month + 1, day + 1⟩

/-- The year of a day of an era, and the day in it. -/
theorem locate_era {days : Nat} (inside : days < 146097) : (locate era days).1 < 400 ∧
    (locate era days).2 < (month_lengths (locate era days).1).sum ∧
      (era.take (locate era days).1).sum + (locate era days).2 = days := by
  obtain ⟨⟨length,found,fits⟩,counts⟩ := locate_spec (era_days ▸ inside)
  generalize locate era days = place at found fits counts ⊢
  rw [era,List.getElem?_map,Option.map_eq_some_iff] at found
  obtain ⟨year,listed,rfl⟩ := found
  obtain ⟨below,same⟩ := List.getElem?_eq_some_iff.mp listed
  rw [List.length_range] at below
  rw [List.getElem_range] at same
  exact ⟨below, same ▸ fits, counts⟩

/-- What a date is made of. -/
theorem date_of_eq (days : Nat) : ∃ year month day, date_of days = ⟨400 * (days / 146097) + year, month + 1, day + 1⟩ ∧
    year < 400 ∧ day < ((month_lengths year)[month]?).getD 0 ∧
      (era.take year).sum + ((month_lengths year).take month).sum + day = days % 146097 := by
  obtain ⟨below,inside,counts⟩ := locate_era (Nat.mod_lt days (by decide))
  obtain ⟨⟨length,found,fits⟩,counts'⟩ := locate_spec inside
  have same : date_of days = ⟨400 * (days / 146097) + (locate era (days % 146097)).1,
      (locate (month_lengths (locate era (days % 146097)).1) (locate era (days % 146097)).2).1 + 1,
      (locate (month_lengths (locate era (days % 146097)).1) (locate era (days % 146097)).2).2 + 1⟩ := rfl
  refine ⟨_, _, _, same, below, ?_, ?_⟩
  · rw [found]
    exact fits
  · omega

theorem date_of_valid (days : Nat) : (date_of days).Valid := by
  obtain ⟨year,month,day,same,_,fits,_⟩ := date_of_eq days
  rw [same]
  refine ⟨Nat.succ_pos _, Nat.succ_pos _, ?_⟩
  rw [month_lengths_era]
  exact fits

theorem days_date_of (days : Nat) : (date_of days).days = days := by
  obtain ⟨year,month,day,same,below,_,counts⟩ := date_of_eq days
  have eras : (400 * (days / 146097) + year) / 400 = days / 146097 := by omega
  have rest : (400 * (days / 146097) + year) % 400 = year := by omega
  rw [same,Date.days,month_lengths_era,eras,rest,Nat.add_sub_cancel,Nat.add_sub_cancel]
  omega

/-- The dates from the year 1 on, and those before the year 10000. -/
theorem year_date_of (days : Nat) :
    (1 ≤ (date_of days).year ↔ 366 ≤ days) ∧ ((date_of days).year ≤ 9999 ↔ days < 3652425) := by
  have below := (locate_era (Nat.mod_lt days (by decide))).1
  have split : era = 366 :: era.tail := by decide +kernel
  have first : (locate era (days % 146097)).1 = 0 ↔ days % 146097 < 366 := by
    rw [split]
    exact locate_first
  show (1 ≤ 400 * (days / 146097) + (locate era (days % 146097)).1 ↔ _) ∧
    (400 * (days / 146097) + (locate era (days % 146097)).1 ≤ 9999 ↔ _)
  omega

end AcapyRedis.Calendar
