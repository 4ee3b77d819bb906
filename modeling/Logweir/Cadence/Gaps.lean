import Logweir.Cadence.Walk

/-!
# How far apart an expression's days are

A walk of 3700 dates reaches a firing from everywhere exactly when the days that an expression
names lie close enough.  They need not: a 29 February that is a Sunday comes back after 28 years.
-/

set_option autoImplicit false

namespace Logweir.Cadence

open Logweir.Text

theorem parseTerm_some {term : String} {min max bits : Nat}
    (parsed : parseTerm term min max = .ok bits) (le : min ≤ max) :
    ∃ v, min ≤ v ∧ v ≤ max ∧ Names min max term v := by
  obtain ⟨_, ⟨rfl, _⟩ | ⟨step, n, rfl, number, pos, _⟩ |
    ⟨first, last, a, b, rfl, number, number', low, le', high, _⟩ | ⟨value, number, low, high, _⟩⟩ :=
    parseTerm_cases parsed
  · exact ⟨min, Nat.le_refl _, le, .every⟩
  · have first : Names min max ("*/" ++ step) (min + 0 * n) := .step number pos
    rw [Nat.zero_mul, Nat.add_zero] at first
    exact ⟨min, Nat.le_refl _, le, first⟩
  · exact ⟨a, low, by omega, .range number number' (Nat.le_refl _) le'⟩
  · exact ⟨value, low, high, .literal number⟩

theorem parseField_some {row : FieldRow} {field : String} {bits : Nat} {restricted : Bool}
    (parsed : parseField row field = .ok (bits, restricted)) (le : row.min ≤ row.max) :
    ∃ v, inField row field v := by
  obtain ⟨all, terms, _⟩ := Results.bind_eq_ok.mp parsed
  have pieces : split ',' field ≠ [] := by
    rw [split, ne_eq, List.map_eq_nil_iff]
    exact splitChars_ne_nil _ _
  obtain ⟨term, rest, list⟩ := List.exists_cons_of_ne_nil pieces
  rw [list, parseTerms] at terms
  split at terms
  · exact Results.not_ok terms
  · rename_i more one
    obtain ⟨v, low, high, named⟩ := parseTerm_some one le
    exact ⟨v, low, high, term, list ▸ List.mem_cons_self, named⟩

namespace Expression

variable (e : Expression)

def OnDay (d : Int) : Prop := ∃ f, Spells e.text f ∧ DayRule f d

def stretch : Nat :=
  if e.cron.timeMatches 0 && e.cron.timeMatches (23 * 60 + 59) then 3700 else 3699

def Dense : Prop := ∀ d : Int, ∃ d', d ≤ d' ∧ d' < d + e.stretch ∧ e.OnDay d'

variable {e}

theorem onDay_cycle (d : Int) : e.OnDay (d + CivilDays.cycle) ↔ e.OnDay d := by
  obtain ⟨month, day, week⟩ := CivilDays.civil_cycle d
  unfold OnDay DayRule
  simp only [month, day, week]

theorem onDay_cycles (d : Int) (n : Nat) :
    e.OnDay (d + n * CivilDays.cycle) ↔ e.OnDay d := by
  induction n with
  | zero => simp
  | succ n ih =>
      rw [← ih, ← onDay_cycle (d + n * CivilDays.cycle)]
      have same : d + ((n + 1 : Nat) : Int) * CivilDays.cycle =
          d + n * CivilDays.cycle + CivilDays.cycle := by
        unfold CivilDays.cycle
        omega
      rw [same]

theorem onDay_shift (d k : Int) : e.OnDay (d + k * CivilDays.cycle) ↔ e.OnDay d := by
  rcases Int.le_total 0 k with pos | neg
  · obtain ⟨n, rfl⟩ := Int.eq_ofNat_of_zero_le pos
    exact onDay_cycles d n
  · obtain ⟨n, number⟩ := Int.eq_ofNat_of_zero_le (Int.neg_nonneg_of_nonpos neg)
    rw [← onDay_cycles (d + k * CivilDays.cycle) n]
    have same : d + k * CivilDays.cycle + n * CivilDays.cycle = d := by
      unfold CivilDays.cycle
      omega
    rw [same]

theorem exists_minute (e : Expression) : ∃ m < 24 * 60, e.cron.timeMatches m = true := by
  obtain ⟨f, ⟨expanded, expands, fields⟩, reads⟩ := e.reads
  obtain ⟨expanded', expands', parsed⟩ := Results.bind_eq_ok.mp e.parsed
  obtain rfl := Except.ok.inj (expands.symm.trans expands')
  rw [fields] at parsed
  obtain ⟨⟨minutes, _⟩, one, parsed⟩ := Results.bind_eq_ok.mp parsed
  obtain ⟨⟨hours, _⟩, two, _⟩ := Results.bind_eq_ok.mp parsed
  obtain ⟨m, inMinute⟩ := parseField_some one (by decide)
  obtain ⟨h, inHour⟩ := parseField_some two (by decide)
  have small : m ≤ 59 := inMinute.2.1
  have small' : h ≤ 23 := inHour.2.1
  refine ⟨h * 60 + m, by omega, ?_⟩
  rw [Cron.timeMatches, Bool.and_eq_true, show (h * 60 + m) / 60 = h by omega,
    show (h * 60 + m) % 60 = m by omega, reads.hour h small', reads.minute m small]
  exact ⟨inHour, inMinute⟩

theorem onDay_iff (date : NaiveDate) : e.OnDay date.day ↔ e.cron.dayMatches date = true := by
  obtain ⟨f, spells, reads⟩ := e.reads
  rw [reads.day_iff]
  constructor
  · rintro ⟨f', spells', rule⟩
    rwa [← spells'.unique spells]
  · exact fun rule => ⟨f, spells, rule⟩

end Expression

/-- Every date that the walks from an instant visit exists. -/
def Clear (t : Instant) : Prop := minDay + 3700 ≤ t.date.day ∧ t.date.day + 3700 ≤ maxDay

def instantOf (d : Int) (m : Nat) (day : minDay ≤ d ∧ d ≤ maxDay) (small : m < 24 * 60) :
    Instant where
  date := ⟨d, day⟩
  secs := m * 60
  nanos := 0
  secs_lt := by omega
  nanos_lt := by omega

section
variable {d : Int} {m : Nat} {day : minDay ≤ d ∧ d ≤ maxDay} {small : m < 24 * 60}

theorem instantOf_minute : (instantOf d m day small).secs / 60 = m := by
  change m * 60 / 60 = m
  omega

theorem instantOf_onMinute : (instantOf d m day small).OnMinute := by
  refine ⟨?_, rfl⟩
  change m * 60 % 60 = 0
  omega

theorem instantOf_fires {e : Expression} (on : e.OnDay d) (at_ : e.cron.timeMatches m = true) :
    e.cron.Fires (instantOf d m day small) := by
  refine ⟨instantOf_onMinute, (Expression.onDay_iff _).mp on, ?_⟩
  rw [instantOf_minute]
  exact at_

end

theorem startDay_eq (t : Instant) :
    Cron.startDay t = if t.secs / 60 = 23 * 60 + 59 then t.date.day + 1 else t.date.day := by
  have := t.secs_lt
  rw [Cron.startDay, Cron.firstDay, t.minuteOfDay]
  split_ifs <;> omega

section
variable {e : Expression}

theorem next_isSome {t : Instant} (clear : Clear t) {d : Int} {m : Nat} (on : e.OnDay d)
    (at_ : e.cron.timeMatches m = true) (small : m < 24 * 60)
    (near : t.date.day ≤ d ∧ d < Cron.startDay t + 3700)
    (after : d = t.date.day → t.secs / 60 < m) : (e.cron.nextFireAfter t).isSome = true := by
  have start := startDay_eq t
  have inside : minDay ≤ d ∧ d ≤ maxDay := by
    unfold Clear at clear
    split at start <;> omega
  have later : t < instantOf d m inside small := by
    refine (instantOf_onMinute.lt_iff t).mpr ?_
    rw [instantOf_minute, ← NaiveDate.day_inj]
    change t.date.day < d ∨ d = t.date.day ∧ _
    omega
  rw [Option.isSome_iff_ne_none]
  intro none_
  have far := Cron.nextFire_none none_ _ (instantOf_fires on at_) later
  change Cron.startDay t + 3700 ≤ d at far
  omega

theorem last_isSome {t : Instant} (clear : Clear t) {d : Int} {m : Nat} (on : e.OnDay d)
    (at_ : e.cron.timeMatches m = true) (small : m < 24 * 60)
    (near : t.date.day - 3700 < d ∧ d ≤ t.date.day)
    (before : d = t.date.day → m ≤ t.secs / 60) :
    (e.cron.lastFireAtOrBefore t).isSome = true := by
  have inside : minDay ≤ d ∧ d ≤ maxDay := by
    unfold Clear at clear
    omega
  have earlier : instantOf d m inside small ≤ t := by
    refine (instantOf_onMinute.le_iff t).mpr ?_
    rw [instantOf_minute, ← NaiveDate.day_inj]
    change d < t.date.day ∨ d = t.date.day ∧ _
    omega
  rw [Option.isSome_iff_ne_none]
  intro none_
  have far := Cron.lastFire_none none_ _ (instantOf_fires on at_) earlier
  change d ≤ t.date.day - 3700 at far
  omega

theorem Expression.stretch_cases (e : Expression) :
    e.stretch = 3700 ∧ e.cron.timeMatches 0 = true ∧ e.cron.timeMatches (23 * 60 + 59) = true ∨
      e.stretch = 3699 ∧
        (e.cron.timeMatches 0 = false ∨ e.cron.timeMatches (23 * 60 + 59) = false) := by
  unfold stretch
  cases e.cron.timeMatches 0 <;> cases e.cron.timeMatches (23 * 60 + 59) <;> simp

theorem next_of_dense (dense : e.Dense) {t : Instant} (clear : Clear t) :
    (e.cron.nextFireAfter t).isSome = true := by
  obtain ⟨m, small, at_⟩ := e.exists_minute
  have bound := t.secs_lt
  have start := startDay_eq t
  rcases e.stretch_cases with ⟨long, _, latest⟩ | ⟨short, _⟩
  · obtain ⟨d, low, high, on⟩ := dense (Cron.startDay t)
    rw [long] at high
    rcases Int.lt_or_eq_of_le (show t.date.day ≤ d by split at start <;> omega) with later | rfl
    · exact next_isSome clear on at_ small ⟨by omega, by omega⟩ fun here => by omega
    · refine next_isSome clear on latest (by omega) ⟨by omega, by omega⟩ fun _ => ?_
      split at start <;> omega
  · obtain ⟨d, low, high, on⟩ := dense (t.date.day + 1)
    rw [short] at high
    exact next_isSome clear on at_ small ⟨by omega, by split at start <;> omega⟩
      fun here => by omega

theorem last_of_dense (dense : e.Dense) {t : Instant} (clear : Clear t) :
    (e.cron.lastFireAtOrBefore t).isSome = true := by
  obtain ⟨m, small, at_⟩ := e.exists_minute
  rcases e.stretch_cases with ⟨long, earliest, _⟩ | ⟨short, _⟩
  · obtain ⟨d, low, high, on⟩ := dense (t.date.day - 3699)
    rw [long] at high
    rcases Int.lt_or_eq_of_le (show d ≤ t.date.day by omega) with before | rfl
    · exact last_isSome clear on at_ small ⟨by omega, by omega⟩ fun here => by omega
    · exact last_isSome clear on earliest (by omega) ⟨by omega, by omega⟩ fun _ => Nat.zero_le _
  · obtain ⟨d, low, high, on⟩ := dense (t.date.day - 3699)
    rw [short] at high
    exact last_isSome clear on at_ small ⟨by omega, by omega⟩ fun here => by omega

theorem dense_of_cycle (dense : ∀ d : Int, 0 ≤ d → d < CivilDays.cycle →
    ∃ d', d ≤ d' ∧ d' < d + e.stretch ∧ e.OnDay d') : e.Dense := by
  intro d
  have low := Int.emod_nonneg d (show CivilDays.cycle ≠ 0 by decide)
  have high := Int.emod_lt_of_pos d (show 0 < CivilDays.cycle by decide)
  have parts := Int.mul_ediv_add_emod d CivilDays.cycle
  obtain ⟨d', above, below, on⟩ := dense (d % CivilDays.cycle) low high
  refine ⟨d' + d / CivilDays.cycle * CivilDays.cycle, ?_, ?_,
    (Expression.onDay_shift d' _).mpr on⟩
  · rw [Int.mul_comm]
    omega
  · rw [Int.mul_comm]
    omega

theorem dense_of_walks (found : ∀ t, Clear t →
    (e.cron.nextFireAfter t).isSome = true ∧ (e.cron.lastFireAtOrBefore t).isSome = true) :
    e.Dense := by
  apply dense_of_cycle
  intro d low high
  have ends : minDay = -96465292 ∧ maxDay = 95026236 ∧ CivilDays.cycle = 146097 :=
    ⟨rfl, rfl, rfl⟩
  rcases e.stretch_cases with ⟨long, _, _⟩ | ⟨short, early | late⟩
  · -- From 23:59 of the day before, the walk visits 3700 dates.
    have inside : minDay ≤ d - 1 ∧ d - 1 ≤ maxDay := by omega
    obtain ⟨x, next⟩ := Option.isSome_iff_exists.mp
      (found (instantOf (d - 1) (23 * 60 + 59) inside (by omega))
        ⟨show minDay + 3700 ≤ d - 1 by omega, show d - 1 + 3700 ≤ maxDay by omega⟩).1
    obtain ⟨⟨⟨fires, after⟩, _⟩, near⟩ := Cron.nextFire_some next
    rw [fires.1.lt_iff, instantOf_minute] at after
    rw [startDay_eq, if_pos instantOf_minute] at near
    have := x.secs_lt
    change d - 1 < x.date.day ∨ _ at after
    change x.date.day < d - 1 + 1 + 3700 at near
    rw [long]
    exact ⟨x.date.day, by omega, by omega, (Expression.onDay_iff _).mpr fires.2.1⟩
  · -- From 00:00, which is not named, the walk back visits 3699 dates before.
    have inside : minDay ≤ d + 3699 ∧ d + 3699 ≤ maxDay := by omega
    obtain ⟨x, last⟩ := Option.isSome_iff_exists.mp
      (found (instantOf (d + 3699) 0 inside (by omega))
        ⟨show minDay + 3700 ≤ d + 3699 by omega, show d + 3699 + 3700 ≤ maxDay by omega⟩).2
    obtain ⟨⟨⟨fires, before⟩, _⟩, near⟩ := Cron.lastFire_some last
    rw [fires.1.le_iff, instantOf_minute] at before
    change x.date.day < d + 3699 ∨ _ at before
    change d + 3699 - 3700 < x.date.day at near
    have other : x.secs / 60 ≠ 0 := by
      intro first
      have time := fires.2.2
      rw [first, early] at time
      exact Bool.noConfusion time
    rw [short]
    exact ⟨x.date.day, by omega, by omega, (Expression.onDay_iff _).mpr fires.2.1⟩
  · -- From 23:58, with 23:59 not named, the walk on visits 3699 dates behind.
    have inside : minDay ≤ d - 1 ∧ d - 1 ≤ maxDay := by omega
    obtain ⟨x, next⟩ := Option.isSome_iff_exists.mp
      (found (instantOf (d - 1) (23 * 60 + 58) inside (by omega))
        ⟨show minDay + 3700 ≤ d - 1 by omega, show d - 1 + 3700 ≤ maxDay by omega⟩).1
    obtain ⟨⟨⟨fires, after⟩, _⟩, near⟩ := Cron.nextFire_some next
    rw [fires.1.lt_iff, instantOf_minute] at after
    rw [startDay_eq, if_neg (by rw [instantOf_minute]; omega)] at near
    have bound := x.secs_lt
    change d - 1 < x.date.day ∨ _ at after
    change x.date.day < d - 1 + 3700 at near
    have other : x.secs / 60 ≠ 23 * 60 + 59 := by
      intro final
      have time := fires.2.2
      rw [final, late] at time
      exact Bool.noConfusion time
    rw [short]
    exact ⟨x.date.day, by omega, by omega, (Expression.onDay_iff _).mpr fires.2.1⟩

end

structure Recurring extends Expression where
  day : Int
  named : toExpression.OnDay day

/-- The walks from every instant find a firing exactly when every stretch of 3699 dates holds a day
that the expression names, or of 3700 where it names both the first and the last minute of a day. -/
theorem walks_reach_iff (e : Recurring) :
    (∀ t, Clear t → (e.cron.nextFireAfter t).isSome = true ∧
      (e.cron.lastFireAtOrBefore t).isSome = true) ↔ e.Dense :=
  ⟨dense_of_walks, fun dense _ clear => ⟨next_of_dense dense clear, last_of_dense dense clear⟩⟩

def leapSundays : Expression where
  text := "0 0 29 2 */7"
  cron := { minute := 1, hour := 1, dayOfMonth := 2 ^ 29, month := 4, dayOfWeek := 1,
            domRestricted := true, dowRestricted := false }
  parsed := by decide +kernel

def leapSunday : Instant := instantOf 22704 0 (by decide) (by decide)

theorem leapSundays_beyond :
    ¬ ∀ (e : Recurring) (t : Instant), Clear t → (e.cron.nextFireAfter t).isSome = true ∧
      (e.cron.lastFireAtOrBefore t).isSome = true := by
  intro reach
  have named : leapSundays.OnDay leapSunday.date.day :=
    (Expression.onDay_iff _).mpr (by decide +kernel)
  have clear : Clear leapSunday := by
    unfold Clear
    decide
  have next := (reach ⟨leapSundays, leapSunday.date.day, named⟩ leapSunday clear).1
  have none_ : leapSundays.cron.nextFireAfter leapSunday = none := by decide +kernel
  change (leapSundays.cron.nextFireAfter leapSunday).isSome = true at next
  rw [none_] at next
  exact Bool.noConfusion next

end Logweir.Cadence
