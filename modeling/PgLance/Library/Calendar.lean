import Mathlib.Data.Int.Basic
import Mathlib.Tactic.Linarith

/-! The proleptic Gregorian calendar, whose years are numbered without a gap: 0 is the year before
year 1. -/

namespace Calendar

structure Civil where
  year : Int
  month : Nat
  day : Nat
  deriving DecidableEq, Repr

def isLeap (year : Int) : Bool := year % 4 = 0 && (year % 100 ≠ 0 || year % 400 = 0)

def monthLength (leap : Bool) : Nat → Nat
  | 2 => if leap then 29 else 28
  | 4 | 6 | 9 | 11 => 30
  | _ => 31

def daysBeforeMonth (leap : Bool) (month : Nat) : Nat :=
  ((List.range (month - 1)).map fun i => monthLength leap (i + 1)).sum

def daysBeforeYear (year : Int) : Int :=
  365 * (year - 1) + (year - 1) / 4 - (year - 1) / 100 + (year - 1) / 400

def yearLength (year : Int) : Int := if isLeap year then 366 else 365

def Civil.Valid (date : Civil) : Prop :=
  1 ≤ date.month ∧ date.month ≤ 12 ∧ 1 ≤ date.day ∧
    date.day ≤ monthLength (isLeap date.year) date.month

instance : DecidablePred Civil.Valid := fun _ => inferInstanceAs (Decidable (_ ∧ _))

/-- The number of a day, which is 1 for the first of January of year 1. -/
def Civil.number (date : Civil) : Int :=
  daysBeforeYear date.year + daysBeforeMonth (isLeap date.year) date.month + date.day

theorem daysBeforeYear_succ (year : Int) :
    daysBeforeYear (year + 1) = daysBeforeYear year + yearLength year := by
  simp only [daysBeforeYear, yearLength, isLeap, Bool.and_eq_true, Bool.or_eq_true,
    decide_eq_true_eq]
  split <;> omega

theorem daysBeforeYear_mono {a b : Int} (h : a ≤ b) : daysBeforeYear a ≤ daysBeforeYear b := by
  simp only [daysBeforeYear]
  omega

/-- The year of a day, which an estimate misses by no more than one. -/
def yearOf (number : Int) : Int :=
  let estimate := 400 * number / 146097 + 1
  if number ≤ daysBeforeYear estimate then estimate - 1
  else if daysBeforeYear (estimate + 1) < number then estimate + 1
  else estimate

theorem yearOf_spec (number : Int) : daysBeforeYear (yearOf number) < number ∧
    number ≤ daysBeforeYear (yearOf number + 1) := by
  simp only [yearOf]
  split
  · rename_i hlow
    rw [Int.sub_add_cancel]
    refine ⟨?_, hlow⟩
    simp only [daysBeforeYear]
    omega
  · split
    · rename_i hhigh
      refine ⟨hhigh, ?_⟩
      simp only [daysBeforeYear]
      omega
    · omega

theorem yearOf_pos_iff (number : Int) : 0 < yearOf number ↔ 0 < number := by
  obtain ⟨hlow, hhigh⟩ := yearOf_spec number
  have hone : daysBeforeYear 1 = 0 := rfl
  constructor
  · intro hyear
    have hmono := daysBeforeYear_mono (show 1 ≤ yearOf number from hyear)
    omega
  · intro hnumber
    by_contra hyear
    have hmono := daysBeforeYear_mono (show yearOf number + 1 ≤ 1 by omega)
    omega

def monthOf (leap : Bool) (day : Nat) : Nat :=
  ((List.range 12).filter fun i => daysBeforeMonth leap (i + 1) < day).length

theorem daysBeforeMonth_succ (leap : Bool) (month : Nat) :
    daysBeforeMonth leap (month + 2) =
      daysBeforeMonth leap (month + 1) + monthLength leap (month + 1) := by
  simp [daysBeforeMonth, List.range_succ]

theorem daysBeforeMonth_mono (leap : Bool) {month month' : Nat} (h : month ≤ month') :
    daysBeforeMonth leap (month + 1) ≤ daysBeforeMonth leap (month' + 1) := by
  induction h with
  | refl => exact le_rfl
  | step _ ih =>
    rw [daysBeforeMonth_succ]
    omega

/-- Of a property that no later number has without the earlier ones, the first numbers that have it
are as many as there are. -/
theorem lt_length_filter_range {p : Nat → Bool} (h : ∀ i j, i ≤ j → p j = true → p i = true)
    {i n : Nat} (hi : i < n) : i < ((List.range n).filter p).length ↔ p i = true := by
  induction n with
  | zero => omega
  | succ n ih =>
    rw [List.range_succ, List.filter_append, List.length_append]
    have hle := List.length_filter_le p (List.range n)
    rw [List.length_range] at hle
    by_cases hlast : p n = true
    · have hall : ((List.range n).filter p) = List.range n :=
        List.filter_eq_self.mpr fun j hj => h j n (List.mem_range.mp hj).le hlast
      rw [hall, List.length_range]
      simp only [List.filter_cons, hlast, if_true, List.filter_nil, List.length_singleton]
      exact iff_of_true hi (h i n (Nat.le_of_lt_succ hi) hlast)
    · have hnone : ([n].filter p).length = 0 := by simp [hlast]
      rw [hnone, Nat.add_zero]
      obtain hlt | rfl := Nat.lt_or_eq_of_le (Nat.le_of_lt_succ hi)
      · exact ih hlt
      · exact iff_of_false (by omega) hlast

theorem monthOf_spec (leap : Bool) {day : Nat} (hlt : day < 367) (hpos : 0 < day)
    (hleap : leap = false → day < 366) :
    1 ≤ monthOf leap day ∧ monthOf leap day ≤ 12 ∧
      daysBeforeMonth leap (monthOf leap day) < day ∧
      day ≤ daysBeforeMonth leap (monthOf leap day) + monthLength leap (monthOf leap day) := by
  have hbegun : ∀ i < 12, i < monthOf leap day ↔ daysBeforeMonth leap (i + 1) < day := by
    intro i hi
    rw [monthOf, lt_length_filter_range _ hi, decide_eq_true_eq]
    intro i j hij hj
    rw [decide_eq_true_eq] at hj ⊢
    exact lt_of_le_of_lt (daysBeforeMonth_mono leap hij) hj
  have hlast : monthOf leap day ≤ 12 := by
    simpa [monthOf] using List.length_filter_le
      (fun i => decide (daysBeforeMonth leap (i + 1) < day)) (List.range 12)
  have hfirst : 0 < monthOf leap day := (hbegun 0 (by omega)).mpr hpos
  obtain ⟨month, hmonth⟩ : ∃ month, monthOf leap day = month + 1 := ⟨_, (Nat.sub_add_cancel hfirst).symm⟩
  rw [hmonth] at hbegun hlast ⊢
  refine ⟨by omega, hlast, (hbegun month (by omega)).mp (by omega), ?_⟩
  rw [← daysBeforeMonth_succ]
  obtain hbefore | rfl : month < 11 ∨ month = 11 := by omega
  · have hnext := (hbegun (month + 1) (by omega)).not.mp (by omega)
    exact not_lt.mp hnext
  · cases leap with
    | false => exact Nat.le_of_lt_succ (hleap rfl)
    | true => exact Nat.le_of_lt_succ hlt

def dayOfYear (number : Int) : Nat := (number - daysBeforeYear (yearOf number)).toNat

theorem dayOfYear_spec (number : Int) : 0 < dayOfYear number ∧ dayOfYear number < 367 ∧
    (isLeap (yearOf number) = false → dayOfYear number < 366) ∧
    daysBeforeYear (yearOf number) + dayOfYear number = number := by
  obtain ⟨hlow, hhigh⟩ := yearOf_spec number
  rw [daysBeforeYear_succ, yearLength] at hhigh
  rw [dayOfYear]
  split at hhigh
  · rename_i hleap
    refine ⟨by omega, by omega, fun hcommon => ?_, by omega⟩
    rw [hleap] at hcommon
    cases hcommon
  · exact ⟨by omega, by omega, fun _ => by omega, by omega⟩

def civil (number : Int) : Civil :=
  let leap := isLeap (yearOf number)
  let month := monthOf leap (dayOfYear number)
  ⟨yearOf number, month, dayOfYear number - daysBeforeMonth leap month⟩

theorem civil_valid (number : Int) : (civil number).Valid := by
  obtain ⟨hpos, hlt, hleap, -⟩ := dayOfYear_spec number
  obtain ⟨hfirst, hlast, hbefore, hwithin⟩ := monthOf_spec _ hlt hpos hleap
  refine ⟨hfirst, hlast, ?_, ?_⟩
  · simp only [civil]
    omega
  · simp only [civil]
    omega

theorem number_civil (number : Int) : (civil number).number = number := by
  obtain ⟨hpos, hlt, hleap, hsum⟩ := dayOfYear_spec number
  obtain ⟨-, -, hbefore, -⟩ := monthOf_spec _ hlt hpos hleap
  simp only [Civil.number, civil]
  omega

theorem daysBeforeMonth_leap : ∀ leap leap', ∀ month < 13,
    daysBeforeMonth leap month ≤ daysBeforeMonth leap' month + 1 := by
  decide

theorem number_next_year {date : Civil} (h : date.Valid) :
    date.number < (⟨date.year + 1, date.month, date.day⟩ : Civil).number := by
  have hmonth := daysBeforeMonth_leap (isLeap date.year) (isLeap (date.year + 1)) date.month
    (Nat.lt_succ_of_le h.2.1)
  have hyear : 365 ≤ yearLength date.year := by
    rw [yearLength]
    split <;> omega
  simp only [Civil.number, daysBeforeYear_succ]
  omega

end Calendar
