import Mathlib.Order.Monotone.Basic
import Logweir.Library.Calendar

/-!
# Days by number

The days of the proleptic Gregorian calendar counted from 1970-01-01, and a day's year, month,
day of the month and day of the week from its number.  The day behind a day is the next of its
month, or the first of the next one.  The calendar repeats every 146097 days.
-/

set_option autoImplicit false

namespace Logweir.CivilDays

open Logweir.Calendar

abbrev Day := Int

def cycle : Int := 146097

structure Civil where
  year : Int
  month : Nat
  day : Nat
deriving DecidableEq, Repr

/-- A day of the cycle that begins on 1 March of a year divisible by 400: the years passed, and
the days of the last one, which begins on 1 March too. -/
def yearAndDay (n : Nat) : Nat × Nat :=
  let centuries := min (n / 36524) 3
  let n := n - 36524 * centuries
  let fours := n / 1461
  let n := n - 1461 * fours
  let years := min (n / 365) 3
  (100 * centuries + 4 * fours + years, n - 365 * years)

/-- Months from March on, 31, 30, 31, 30 and 31 days over and over: the month of a day of the
year. -/
def marchMonth (day : Nat) : Nat := (5 * day + 2) / 153

def marchDay (day : Nat) : Nat := day - (153 * marchMonth day + 2) / 5 + 1

def calendarMonth (march : Nat) : Nat := if march < 10 then march + 3 else march - 9

def ofMarch (years day : Nat) : Civil where
  year := if marchMonth day < 10 then years else years + 1
  month := calendarMonth (marchMonth day)
  day := marchDay day

/-- The day `n` of the cycle as year, month and day; the year counts from the cycle's first. -/
def civilOfCycle (n : Nat) : Civil := ofMarch (yearAndDay n).1 (yearAndDay n).2

/-- Days from 0000-03-01, where a cycle begins. -/
def fromMarch (d : Day) : Int := d + 719468

def civil (d : Day) : Civil :=
  let c := civilOfCycle (fromMarch d % cycle).toNat
  { c with year := c.year + 400 * (fromMarch d / cycle) }

def month (d : Day) : Nat := (civil d).month

def dayOfMonth (d : Day) : Nat := (civil d).day

def weekday (d : Day) : Nat := ((d + 4) % 7).toNat

example : civil 0 = ⟨1970, 1, 1⟩ ∧ weekday 0 = 4 := by decide

def Civil.next (c : Civil) : Civil :=
  if c.day < daysInMonth c.year c.month then { c with day := c.day + 1 }
  else if c.month < 12 then { c with month := c.month + 1, day := 1 }
  else { year := c.year + 1, month := 1, day := 1 }

/-- The years passed and the day of the last one add up to the day of the cycle, and only a leap
year's last day is its 366th. -/
structure Counted (n years day : Nat) : Prop where
  years_lt : years < 400
  adds : 365 * years + years / 4 + day = n + years / 100
  day_le : day ≤ 365
  leap : day = 365 → (years + 1) % 4 = 0 ∧ ((years + 1) % 100 ≠ 0 ∨ years = 399)

theorem counted {n : Nat} (small : n < 146097) :
    Counted n (yearAndDay n).1 (yearAndDay n).2 := by
  simp only [yearAndDay]
  have century : min (n / 36524) 3 ≤ 3 ∧ 36524 * min (n / 36524) 3 ≤ n ∧
      n - 36524 * min (n / 36524) 3 ≤ 36524 ∧
      (n - 36524 * min (n / 36524) 3 = 36524 → min (n / 36524) 3 = 3) := by omega
  generalize min (n / 36524) 3 = c at century ⊢
  have four : (n - 36524 * c) / 1461 ≤ 24 ∧ 1461 * ((n - 36524 * c) / 1461) ≤ n - 36524 * c ∧
      n - 36524 * c - 1461 * ((n - 36524 * c) / 1461) ≤ 1460 := by omega
  generalize (n - 36524 * c) / 1461 = f at four ⊢
  have year : min ((n - 36524 * c - 1461 * f) / 365) 3 ≤ 3 ∧
      365 * min ((n - 36524 * c - 1461 * f) / 365) 3 ≤ n - 36524 * c - 1461 * f ∧
      n - 36524 * c - 1461 * f - 365 * min ((n - 36524 * c - 1461 * f) / 365) 3 ≤ 365 ∧
      (n - 36524 * c - 1461 * f - 365 * min ((n - 36524 * c - 1461 * f) / 365) 3 = 365 →
        min ((n - 36524 * c - 1461 * f) / 365) 3 = 3) := by omega
  generalize min ((n - 36524 * c - 1461 * f) / 365) 3 = y at year ⊢
  have fourths : (100 * c + 4 * f + y) / 4 = 25 * c + f := by omega
  have hundredths : (100 * c + 4 * f + y) / 100 = c := by omega
  refine ⟨by omega, ?_, year.2.2.1, fun last => ?_⟩
  · rw [fourths, hundredths]
    omega
  · have third := year.2.2.2 last
    constructor
    · omega
    · omega

theorem leaps_mono {years years' : Nat} (le : years ≤ years') :
    years / 4 + years' / 100 ≤ years' / 4 + years / 100 := by
  have fourths : years / 100 = years / 4 / 25 := (Nat.div_div_eq_div_mul years 4 25).symm
  have fourths' : years' / 100 = years' / 4 / 25 := (Nat.div_div_eq_div_mul years' 4 25).symm
  have quarters : years / 4 ≤ years' / 4 := Nat.div_le_div_right le
  omega

theorem Counted.not_later {n years years' day day' : Nat} (one : Counted n years day)
    (two : Counted n years' day') : ¬ years < years' := by
  intro before
  have mono := leaps_mono (show years + 1 ≤ years' from before)
  have adds := one.adds
  have adds' := two.adds
  have day := one.day_le
  have leap := one.leap
  have bound := two.years_lt
  have steps : (years + 1) % 4 = 0 → (years + 1) / 4 = years / 4 + 1 := by omega
  have hundreds : (years + 1) % 100 ≠ 0 → (years + 1) / 100 = years / 100 := by omega
  omega

theorem Counted.unique {n years years' day day' : Nat} (one : Counted n years day)
    (two : Counted n years' day') : years = years' ∧ day = day' := by
  obtain rfl : years = years' :=
    Nat.le_antisymm (Nat.le_of_not_lt (two.not_later one))
      (Nat.le_of_not_lt (one.not_later two))
  exact ⟨rfl, by have := one.adds; have := two.adds; omega⟩

/-- The last day of a cycle's year is its 366th when the year that follows it in January is a leap
year. -/
def leapAfter (years : Nat) : Bool := isLeapYear (years + 1 : Int)

theorem leapAfter_iff {years : Nat} (small : years < 400) :
    leapAfter years = true ↔ (years + 1) % 4 = 0 ∧ ((years + 1) % 100 ≠ 0 ∨ years = 399) := by
  simp only [leapAfter, isLeapYear, Bool.and_eq_true, Bool.or_eq_true, beq_iff_eq, bne_iff_ne]
  omega

theorem leapAfter_era (years : Nat) (era : Int) :
    isLeapYear ((years : Int) + 1 + 400 * era) = leapAfter years := by
  rw [leapAfter, Bool.eq_iff_iff]
  simp only [isLeapYear, Bool.and_eq_true, Bool.or_eq_true, beq_iff_eq, bne_iff_ne]
  omega

theorem Counted.day_lt {n years day : Nat} (c : Counted n years day) :
    day < 365 ∨ (day = 365 ∧ leapAfter years = true) := by
  rcases Nat.lt_or_ge day 365 with before | last
  · exact .inl before
  · have := c.day_le
    obtain rfl : day = 365 := by omega
    exact .inr ⟨rfl, (leapAfter_iff c.years_lt).mpr (c.leap rfl)⟩

theorem yearAndDay_succ {n : Nat} (small : n + 1 < 146097) :
    yearAndDay (n + 1) =
      if (yearAndDay n).2 < 364 ∨ ((yearAndDay n).2 = 364 ∧ leapAfter (yearAndDay n).1 = true) then
        ((yearAndDay n).1, (yearAndDay n).2 + 1)
      else ((yearAndDay n).1 + 1, 0) := by
  have now := counted (show n < 146097 by omega)
  have next := counted small
  generalize (yearAndDay n).1 = years at now ⊢
  generalize (yearAndDay n).2 = day at now ⊢
  have adds := now.adds
  have bound := now.years_lt
  have same := leapAfter_iff bound
  split_ifs with within
  · have here : Counted (n + 1) years (day + 1) :=
      ⟨bound, by omega, by omega, fun last => same.mp (within.resolve_left (by omega)).2⟩
    exact Prod.ext (next.unique here).1 (next.unique here).2
  · have ends : day = 364 ∧ ¬ leapAfter years = true ∨ day = 365 := by
      rw [not_or, not_and] at within
      rcases now.day_lt with before | last
      · have here : day = 364 := by omega
        exact .inl ⟨here, within.2 here⟩
      · exact .inr last.1
    rw [same] at ends
    have leap := now.leap
    have fourths : (years + 1) % 4 = 0 ∧ (years + 1) / 4 = years / 4 + 1 ∨
        (years + 1) % 4 ≠ 0 ∧ (years + 1) / 4 = years / 4 := by omega
    have hundredths : (years + 1) % 100 = 0 ∧ (years + 1) / 100 = years / 100 + 1 ∨
        (years + 1) % 100 ≠ 0 ∧ (years + 1) / 100 = years / 100 := by omega
    have centuries : (years + 1) % 100 = 0 → (years + 1) % 4 = 0 := by omega
    have here : Counted (n + 1) (years + 1) 0 := ⟨by omega, by omega, by omega, by omega⟩
    exact Prod.ext (next.unique here).1 (next.unique here).2

theorem march_spec : ∀ day < 337,
    marchMonth day < 11 ∧
      if marchDay day < daysInMonth 1 (calendarMonth (marchMonth day)) then
        marchMonth (day + 1) = marchMonth day ∧ marchDay (day + 1) = marchDay day + 1
      else marchMonth (day + 1) = marchMonth day + 1 ∧ marchDay (day + 1) = 1 := by
  decide +kernel

theorem february_spec {day : Nat} (from_ : 337 ≤ day) (le : day ≤ 365) :
    marchMonth day = 11 ∧ marchDay day = day - 336 := by
  have month : marchMonth day = 11 := by
    unfold marchMonth
    omega
  rw [marchDay, month]
  omega

theorem daysInMonth_of_ne {year : Int} {month : Nat} (other : month ≠ 2) :
    daysInMonth year month = daysInMonth 1 month := by
  rw [daysInMonth, daysInMonth, if_neg other, if_neg other]

def Civil.later (c : Civil) (era : Int) : Civil := { c with year := c.year + 400 * era }

theorem ofMarch_succ {years day : Nat} (era : Int)
    (within : day < 364 ∨ (day = 364 ∧ leapAfter years = true)) :
    (ofMarch years (day + 1)).later era = ((ofMarch years day).later era).next := by
  rcases Nat.lt_or_ge day 337 with early | late
  · obtain ⟨small, step⟩ := march_spec day early
    have other : calendarMonth (marchMonth day) ≠ 2 := by
      unfold calendarMonth
      split_ifs <;> omega
    simp only [Civil.next, Civil.later, ofMarch, daysInMonth_of_ne other]
    split_ifs at step with inside
    · rw [if_pos inside, step.1, step.2]
    · rw [if_neg inside, step.1, step.2]
      unfold calendarMonth
      split_ifs <;> simp only [Civil.mk.injEq, and_true, true_and] <;> omega
  · obtain ⟨month, number⟩ := february_spec late (by omega)
    obtain ⟨month', number'⟩ := february_spec (show 337 ≤ day + 1 by omega) (by omega)
    have inside : marchDay day < daysInMonth ((years : Int) + 1 + 400 * era) 2 := by
      rw [daysInMonth, if_pos rfl, leapAfter_era, number]
      split_ifs with leap
      · omega
      · have before := within.resolve_right fun last => leap last.2
        omega
    have january : ¬ (11 : Nat) < 10 := by omega
    have second : (11 : Nat) - 9 = 2 := rfl
    simp only [Civil.next, Civil.later, ofMarch, month, month', calendarMonth, if_neg january,
      second]
    rw [if_pos inside, number, number', show day + 1 - 336 = day - 336 + 1 by omega]

theorem ofMarch_last {years day : Nat} (era : Int)
    (last : day = 364 ∧ ¬ leapAfter years = true ∨ day = 365 ∧ leapAfter years = true) :
    (ofMarch (years + 1) 0).later era = ((ofMarch years day).later era).next := by
  obtain ⟨month, number⟩ := february_spec (show 337 ≤ day by omega) (by omega)
  have outside : ¬ marchDay day < daysInMonth ((years : Int) + 1 + 400 * era) 2 := by
    rw [daysInMonth, if_pos rfl, leapAfter_era, number]
    rcases last with ⟨rfl, common⟩ | ⟨rfl, leap⟩
    · rw [if_neg common]
      omega
    · rw [if_pos leap]
      omega
  have january : ¬ (11 : Nat) < 10 := by omega
  have second : (11 : Nat) - 9 = 2 := rfl
  simp only [Civil.next, Civil.later, ofMarch, month, calendarMonth, if_neg january, second]
  rw [if_neg outside]
  rfl

/-- The day behind a day is the next of its month, or the first of the month that follows. -/
theorem civil_succ (d : Day) : civil (d + 1) = (civil d).next := by
  have split : civil d = (ofMarch (yearAndDay (fromMarch d % cycle).toNat).1
      (yearAndDay (fromMarch d % cycle).toNat).2).later (fromMarch d / cycle) := rfl
  have split' : civil (d + 1) = (civilOfCycle (fromMarch (d + 1) % cycle).toNat).later
      (fromMarch (d + 1) / cycle) := rfl
  have bound : 0 ≤ fromMarch d % cycle ∧ fromMarch d % cycle < cycle :=
    ⟨Int.emod_nonneg _ (by decide), Int.emod_lt_of_pos _ (by decide)⟩
  have now := counted (n := (fromMarch d % cycle).toNat) (by unfold cycle at *; omega)
  rcases Int.lt_or_le (fromMarch d % cycle + 1) cycle with within | ends
  · have number : (fromMarch (d + 1) % cycle).toNat = (fromMarch d % cycle).toNat + 1 := by
      unfold fromMarch cycle at *
      omega
    have era : fromMarch (d + 1) / cycle = fromMarch d / cycle := by
      unfold fromMarch cycle at *
      omega
    rw [split', number, era, civilOfCycle,
      yearAndDay_succ (by unfold cycle at *; omega), split]
    split_ifs with same
    · exact ofMarch_succ _ same
    · refine ofMarch_last _ ?_
      rw [not_or, not_and] at same
      rcases now.day_lt with before | last
      · have here : (yearAndDay (fromMarch d % cycle).toNat).2 = 364 := by omega
        exact .inl ⟨here, same.2 here⟩
      · exact .inr last
  · -- The last day of a cycle is 29 February of a year divisible by 400.
    have number : (fromMarch (d + 1) % cycle).toNat = 0 ∧
        (fromMarch d % cycle).toNat = 146096 := by
      unfold fromMarch cycle at *
      omega
    have era : fromMarch (d + 1) / cycle = fromMarch d / cycle + 1 := by
      unfold fromMarch cycle at *
      omega
    have final : yearAndDay 146096 = (399, 365) ∧ yearAndDay 0 = (0, 0) := by decide
    rw [split', split, number.1, number.2, era, civilOfCycle, final.1, final.2,
      ← ofMarch_last _ (.inr ⟨rfl, by decide⟩)]
    simp only [ofMarch, Civil.later, Civil.mk.injEq, and_true]
    have first : marchMonth 0 < 10 := by decide
    simp only [if_pos first]
    omega

theorem march_range : ∀ day < 366,
    marchMonth day ≤ 11 ∧ 1 ≤ marchDay day ∧ marchDay day ≤ 31 := by
  decide +kernel

theorem ofMarch_range {day : Nat} (years : Nat) (le : day ≤ 365) :
    1 ≤ (ofMarch years day).month ∧ (ofMarch years day).month ≤ 12 ∧
      1 ≤ (ofMarch years day).day ∧ (ofMarch years day).day ≤ 31 := by
  obtain ⟨small, days⟩ := march_range day (by omega)
  refine ⟨?_, ?_, days⟩
  · simp only [ofMarch, calendarMonth]
    split_ifs <;> omega
  · simp only [ofMarch, calendarMonth]
    split_ifs <;> omega

/-- Months are numbered from 1 to 12, their days from 1 to 31 and the days of a week from 0 to 6. -/
theorem civil_range (d : Day) :
    1 ≤ month d ∧ month d ≤ 12 ∧ 1 ≤ dayOfMonth d ∧ dayOfMonth d ≤ 31 ∧ weekday d ≤ 6 := by
  have bound : 0 ≤ fromMarch d % cycle ∧ fromMarch d % cycle < cycle :=
    ⟨Int.emod_nonneg _ (by decide), Int.emod_lt_of_pos _ (by decide)⟩
  have now := counted (n := (fromMarch d % cycle).toNat) (by unfold cycle at *; omega)
  obtain ⟨low, high, low', high'⟩ :=
    ofMarch_range (yearAndDay (fromMarch d % cycle).toNat).1 now.day_le
  refine ⟨low, high, low', high', ?_⟩
  unfold weekday
  omega

theorem civil_cycle (d : Day) :
    month (d + cycle) = month d ∧ dayOfMonth (d + cycle) = dayOfMonth d ∧
      weekday (d + cycle) = weekday d := by
  have same : fromMarch (d + cycle) % cycle = fromMarch d % cycle := by
    unfold fromMarch cycle
    omega
  refine ⟨?_, ?_, ?_⟩
  · simp only [month, civil, same]
  · simp only [dayOfMonth, civil, same]
  · unfold weekday cycle
    omega

def Civil.rank (c : Civil) : Int := 372 * c.year + 31 * c.month + c.day

theorem rank_lt_next (d : Day) : (civil d).rank < (civil d).next.rank := by
  obtain ⟨_, months, first, days, _⟩ := civil_range d
  unfold month dayOfMonth at *
  unfold Civil.next Civil.rank
  split_ifs <;> dsimp only <;> omega

theorem civil_injective {d d' : Day} (same : civil d = civil d') : d = d' := by
  have mono : StrictMono fun d : Day => (civil d).rank := by
    refine strictMono_int_of_lt_succ fun d => ?_
    rw [civil_succ]
    exact rank_lt_next d
  exact mono.injective (congrArg Civil.rank same)

end Logweir.CivilDays
