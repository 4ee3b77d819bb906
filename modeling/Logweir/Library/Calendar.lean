import Mathlib.Tactic.SplitIfs

/-!
# Calendar days

Days of the proleptic Gregorian calendar between two years, the day before a day, and
their order.  Stepping back from a day meets every earlier day.
-/

set_option autoImplicit false

namespace Logweir.Calendar

def isLeapYear (year : Int) : Bool :=
  year % 4 == 0 && (year % 100 != 0 || year % 400 == 0)

def daysInMonth (year : Int) (month : Nat) : Nat :=
  if month = 2 then (if isLeapYear year then 29 else 28)
  else if month = 4 ∨ month = 6 ∨ month = 9 ∨ month = 11 then 30
  else 31

theorem daysInMonth_pos (year : Int) (month : Nat) : 1 ≤ daysInMonth year month := by
  unfold daysInMonth
  split_ifs <;> omega

theorem daysInMonth_le (year : Int) (month : Nat) : daysInMonth year month ≤ 31 := by
  unfold daysInMonth
  split_ifs <;> omega

def minYear : Int := -262143
def maxYear : Int := 262142

structure Date where
  year : Int
  month : Nat
  day : Nat
  years : minYear ≤ year ∧ year ≤ maxYear
  months : 1 ≤ month ∧ month ≤ 12
  days : 1 ≤ day ∧ day ≤ daysInMonth year month
deriving DecidableEq

namespace Date

def ofYmd? (year : Int) (month day : Nat) : Option Date :=
  if h : (minYear ≤ year ∧ year ≤ maxYear) ∧ (1 ≤ month ∧ month ≤ 12) ∧
      1 ≤ day ∧ day ≤ daysInMonth year month then
    some { year, month, day, years := h.1, months := h.2.1, days := h.2.2 }
  else none

/-- A number that orders days as the calendar does. -/
def rank (d : Date) : Int := 372 * d.year + 31 * (d.month - 1 : Int) + (d.day - 1 : Int)

instance : LT Date := ⟨fun a b => a.rank < b.rank⟩
instance : LE Date := ⟨fun a b => a.rank ≤ b.rank⟩
instance (a b : Date) : Decidable (a < b) := inferInstanceAs (Decidable (a.rank < b.rank))
instance (a b : Date) : Decidable (a ≤ b) := inferInstanceAs (Decidable (a.rank ≤ b.rank))

theorem day_le (d : Date) : d.day ≤ 31 := Nat.le_trans d.days.2 (daysInMonth_le _ _)

theorem rank_inj {a b : Date} (same : a.rank = b.rank) : a = b := by
  have left := a.day_le
  have right := b.day_le
  cases a with | mk y m d years months days =>
  cases b with | mk y' m' d' years' months' days' =>
  simp only [rank] at same left right
  obtain rfl : y = y' := by omega
  obtain rfl : m = m' := by omega
  obtain rfl : d = d' := by omega
  rfl

/-- The day before, unless there is none. -/
def pred? (d : Date) : Option Date :=
  if 1 < d.day then ofYmd? d.year d.month (d.day - 1)
  else if 1 < d.month then ofYmd? d.year (d.month - 1) (daysInMonth d.year (d.month - 1))
  else ofYmd? (d.year - 1) 12 31

theorem ofYmd?_eq_some {year : Int} {month day : Nat} {d : Date} :
    ofYmd? year month day = some d → d.year = year ∧ d.month = month ∧ d.day = day := by
  unfold ofYmd?
  split
  · intro made
    cases made
    exact ⟨rfl, rfl, rfl⟩
  · intro made
    cases made

theorem pred?_lt {d e : Date} (before : d.pred? = some e) : e < d := by
  show e.rank < d.rank
  have bound := e.day_le
  have first := d.days.1
  have months := d.months
  unfold pred? at before
  split_ifs at before with mid_month mid_year
  · obtain ⟨year, month, day⟩ := ofYmd?_eq_some before
    simp only [rank, year, month, day]
    omega
  · obtain ⟨year, month, day⟩ := ofYmd?_eq_some before
    simp only [rank, year, month]
    omega
  · obtain ⟨year, month, day⟩ := ofYmd?_eq_some before
    simp only [rank, year, month, day]
    omega

theorem le_of_lt_of_pred? {d e f : Date} (before : d.pred? = some e) (below : f < d) :
    f ≤ e := by
  show f.rank ≤ e.rank
  have lt : f.rank < d.rank := below
  have bound := f.day_le
  have start := f.days.1
  have last := f.days.2
  have months := f.months
  have first := d.days.1
  have months' := d.months
  unfold pred? at before
  split_ifs at before with mid_month mid_year
  · obtain ⟨year, month, day⟩ := ofYmd?_eq_some before
    simp only [rank] at lt
    simp only [rank, year, month, day]
    omega
  · obtain ⟨year, month, day⟩ := ofYmd?_eq_some before
    simp only [rank] at lt
    simp only [rank, year, month, day]
    have positive := daysInMonth_pos d.year (d.month - 1)
    by_cases same : f.year = d.year ∧ f.month = d.month - 1
    · obtain ⟨year', month'⟩ := same
      rw [year', month'] at last
      omega
    · omega
  · obtain ⟨year, month, day⟩ := ofYmd?_eq_some before
    simp only [rank] at lt
    simp only [rank, year, month, day]
    omega

theorem le_of_pred?_none {d f : Date} (first : d.pred? = none) : d ≤ f := by
  show d.rank ≤ f.rank
  have years := d.years
  have months := d.months
  have days := d.days
  have years' := f.years
  have months' := f.months
  have days' := f.days
  unfold pred? at first
  split_ifs at first with mid_month mid_year
  · unfold ofYmd? at first
    split_ifs at first with ok
    exact absurd ⟨years, months, by omega, by omega⟩ ok
  · unfold ofYmd? at first
    split_ifs at first with ok
    exact absurd ⟨years, ⟨by omega, by omega⟩, daysInMonth_pos _ _, Nat.le_refl _⟩ ok
  · unfold ofYmd? at first
    split_ifs at first with ok
    have december : daysInMonth (d.year - 1) 12 = 31 := by
      simp [daysInMonth]
    have least : d.year ≤ minYear := Int.not_lt.mp fun above =>
      ok ⟨⟨by omega, by omega⟩, ⟨by omega, by omega⟩, by omega, by omega⟩
    simp only [rank]
    omega

def earlier (a b : Date) : Date := if b < a then b else a

def earliest : List Date → Option Date
  | [] => none
  | d :: l => some (l.foldl earlier d)

end Date

end Logweir.Calendar
