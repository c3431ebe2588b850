import MarketSketch.Market.Calendar
import Mathlib.Logic.Function.Iterate
import Mathlib.Tactic.IntervalCases

/-! The Gregorian calendar as a walk from day to day, by the lengths of the months alone. The number
by which a date and a time of day are turned into seconds counts the days of this walk. -/

namespace MarketSketch

def IsLeap (y : Int) : Prop := 4 ∣ y ∧ (100 ∣ y → 400 ∣ y)

instance (y : Int) : Decidable (IsLeap y) := inferInstanceAs (Decidable (_ ∧ _))

def monthLengths (y : Int) : List Nat :=
  [31, if IsLeap y then 29 else 28, 31, 30, 31, 30, 31, 31, 30, 31, 30, 31]

def monthLength (y : Int) (m : Nat) : Nat := (monthLengths y).getD (m - 1) 0

theorem monthLength_pos (y : Int) {m : Nat} (hpos : 1 ≤ m) (hle : m ≤ 12) :
    1 ≤ monthLength y m := by
  unfold monthLength monthLengths
  split <;> interval_cases m <;> decide

structure Date where
  year : Int
  month : Nat
  day : Nat
  month_pos : 1 ≤ month
  month_le : month ≤ 12
  day_pos : 1 ≤ day
  day_le : day ≤ monthLength year month

namespace Date

def epoch : Date := ⟨1970, 1, 1, by decide, by decide, by decide, by decide⟩

def next (d : Date) : Date :=
  if h : d.day < monthLength d.year d.month then
    ⟨d.year, d.month, d.day + 1, d.month_pos, d.month_le, Nat.succ_pos _, h⟩
  else if h : d.month < 12 then
    ⟨d.year, d.month + 1, 1, Nat.succ_pos _, h, le_rfl, monthLength_pos _ (Nat.succ_pos _) h⟩
  else ⟨d.year + 1, 1, 1, le_rfl, by decide, le_rfl, monthLength_pos _ le_rfl (by decide)⟩

def last (y : Int) (m : Nat) (hpos : 1 ≤ m) (hle : m ≤ 12) : Date :=
  ⟨y, m, monthLength y m, hpos, hle, monthLength_pos y hpos hle, le_rfl⟩

def previous (d : Date) : Date :=
  if h : 1 < d.day then
    ⟨d.year, d.month, d.day - 1, d.month_pos, d.month_le, Nat.le_sub_one_of_lt h,
      (Nat.sub_le _ _).trans d.day_le⟩
  else if h : 1 < d.month then
    last d.year (d.month - 1) (Nat.le_sub_one_of_lt h) ((Nat.sub_le _ _).trans d.month_le)
  else last (d.year - 1) 12 (by decide) le_rfl

def ofDay : Int → Date
  | .ofNat n => next^[n] epoch
  | .negSucc n => previous^[n + 1] epoch

theorem next_previous (d : Date) : d.previous.next = d := by
  obtain ⟨y, m, day, hpos, hle, hday, hlast⟩ := d
  unfold previous
  split
  next h =>
    simp only at h
    have hlt : day - 1 < monthLength y m := by omega
    simp only [next, hlt, dif_pos, Nat.sub_add_cancel hday]
  next h =>
    obtain rfl : day = 1 := le_antisymm (not_lt.mp h) hday
    split
    next h =>
      simp only at h
      have hlt : m - 1 < 12 := by omega
      simp only [next, last, lt_irrefl, dif_neg, not_false_eq_true, hlt, dif_pos,
        Nat.sub_add_cancel hpos]
    next h =>
      obtain rfl : m = 1 := le_antisymm (not_lt.mp h) hpos
      simp only [next, last, lt_irrefl, dif_neg, not_false_eq_true, Int.sub_add_cancel]

end Date

section Formula

theorem isLeapYear_eq (y : Int) : isLeapYear y = decide (IsLeap y) := by
  unfold isLeapYear IsLeap
  rw [Bool.eq_iff_iff]
  simp only [Bool.and_eq_true, Bool.or_eq_true, decide_eq_true_eq, imp_iff_not_or]
  omega

theorem daysInMonth_eq (y : Int) {m : Nat} (hpos : 1 ≤ m) (hle : m ≤ 12) :
    daysInMonth y m = monthLength y m := by
  unfold daysInMonth monthLength monthLengths
  rw [isLeapYear_eq]
  interval_cases m <;> simp

theorem daysInMonth_le (y : Int) (m : Nat) : daysInMonth y m ≤ 31 := by
  unfold daysInMonth
  split
  · split <;> decide
  all_goals decide

theorem daysBeforeMonth_one (y : Int) : daysBeforeMonth y 1 = 0 := rfl

theorem daysBeforeMonth_succ (y : Int) {m : Nat} (hpos : 1 ≤ m) :
    daysBeforeMonth y (m + 1) = daysBeforeMonth y m + daysInMonth y m := by
  obtain ⟨k, rfl⟩ := Nat.exists_eq_add_of_le' hpos
  simp only [daysBeforeMonth, Nat.add_sub_cancel, List.range_succ, List.map_append,
    List.foldl_append, List.map_cons, List.map_nil, List.foldl_cons, List.foldl_nil]

theorem daysInMonth_twelve (y : Int) : daysInMonth y 12 = 31 := rfl

theorem daysBeforeMonth_twelve (y : Int) :
    daysBeforeMonth y 12 = if isLeapYear y then 335 else 334 := by
  have hdays : daysBeforeMonth y 12 = 31 + daysInMonth y 2 + 31 + 30 + 31 + 30 + 31 + 31 + 30 +
      31 + 30 := rfl
  rw [hdays]
  show _ + (if isLeapYear y then 29 else 28) + _ + _ + _ + _ + _ + _ + _ + _ + _ = _
  split <;> rfl

theorem daysBeforeYear_succ (y : Int) :
    daysBeforeYear (y + 1) = daysBeforeYear y + if isLeapYear y then 366 else 365 := by
  unfold daysBeforeYear
  rw [isLeapYear_eq]
  simp only [decide_eq_true_eq, IsLeap, imp_iff_not_or]
  split <;> omega

end Formula

namespace Date

def number (d : Date) : Int :=
  daysBeforeYear d.year + daysBeforeMonth d.year d.month + d.day - 1 - epochDay

theorem number_epoch : epoch.number = 0 := by decide

theorem number_next (d : Date) : d.next.number = d.number + 1 := by
  have hlength := daysInMonth_eq d.year d.month_pos d.month_le
  have hday := d.day_le
  unfold next
  split
  next h =>
    simp only [number]
    omega
  next h =>
    split
    next hmonth =>
      simp only [number, daysBeforeMonth_succ _ d.month_pos]
      omega
    next hmonth =>
      -- a year ends after its twelfth month, and the months before that one add up
      have htwelve : d.month = 12 := by
        have := d.month_le
        omega
      rw [htwelve] at hlength hday h
      simp only [number, htwelve, daysBeforeMonth_one, daysBeforeMonth_twelve, daysBeforeYear_succ]
      have := daysInMonth_twelve d.year
      split <;> omega

theorem number_previous (d : Date) : d.previous.number = d.number - 1 := by
  -- going back is undone by going on, so the step forward settles it
  have h := number_next d.previous
  rw [next_previous] at h
  omega

theorem number_ofDay (n : Int) : (ofDay n).number = n := by
  cases n with
  | ofNat n =>
    show (next^[n] epoch).number = n
    induction n with
    | zero => exact number_epoch
    | succ n ih =>
      rw [Function.iterate_succ_apply', number_next, ih]
      rfl
  | negSucc n =>
    show (previous^[n + 1] epoch).number = Int.negSucc n
    induction n with
    | zero =>
      rw [Function.iterate_one, number_previous, number_epoch]
      rfl
    | succ n ih =>
      rw [Function.iterate_succ_apply', number_previous, ih]
      rfl

end Date

namespace DateTime

/-- What a clock of universal time shows so many seconds after the beginning of 1970. -/
def ofSeconds (s : Int) : DateTime :=
  let d := Date.ofDay (s / 86400)
  ⟨d.year, d.month, d.day, (s % 86400 / 3600).toNat, (s % 3600 / 60).toNat, (s % 60).toNat⟩

theorem seconds_ofSeconds (s : Int) : (ofSeconds s).seconds = s := by
  have hday : daysBeforeYear (ofSeconds s).year +
      daysBeforeMonth (ofSeconds s).year (ofSeconds s).month + (ofSeconds s).day - 1 - epochDay =
      s / 86400 := Date.number_ofDay (s / 86400)
  rw [seconds, hday]
  simp only [ofSeconds]
  omega

theorem valid_ofSeconds {s : Int} (hleast : -262143 ≤ (ofSeconds s).year)
    (hmost : (ofSeconds s).year ≤ 262142) : (ofSeconds s).valid = true := by
  obtain ⟨hmonth, hmonths, hday, hdays⟩ : 1 ≤ (ofSeconds s).month ∧ (ofSeconds s).month ≤ 12 ∧
      1 ≤ (ofSeconds s).day ∧
      (ofSeconds s).day ≤ monthLength (ofSeconds s).year (ofSeconds s).month :=
    ⟨Date.month_pos _, Date.month_le _, Date.day_pos _, Date.day_le _⟩
  rw [← daysInMonth_eq _ hmonth hmonths] at hdays
  have hhour : (ofSeconds s).hour ≤ 23 := by
    simp only [ofSeconds]
    omega
  have hminute : (ofSeconds s).minute ≤ 59 := by
    simp only [ofSeconds]
    omega
  have hsecond : (ofSeconds s).second ≤ 60 := by
    simp only [ofSeconds]
    omega
  simp only [valid, hleast, hmost, hmonth, hmonths, hday, hdays, hhour, hminute, hsecond,
    decide_true, Bool.and_self]

end DateTime

end MarketSketch
