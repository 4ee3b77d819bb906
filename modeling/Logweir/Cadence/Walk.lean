import Logweir.Cadence.Fields

/-!
# The walks

The walk back ends at the last firing up to its instant and the walk on at the first behind it,
unless every firing on that side is further away than they go.
-/

set_option autoImplicit false

namespace Logweir.Cadence

open Logweir.Searches

theorem NaiveDate.day_inj {d d' : NaiveDate} : d.day = d'.day ↔ d = d' := by
  constructor
  · intro same
    cases d
    cases d'
    simpa using same
  · rintro rfl
    rfl

theorem NaiveDate.ofDay_eq_some {d : Int} {date : NaiveDate} :
    ofDay d = some date ↔ date.day = d := by
  unfold ofDay
  split_ifs with inside
  · rw [Option.some.injEq, ← day_inj]
    exact eq_comm
  · constructor
    · exact fun none_ => none_.elim
    · rintro rfl
      exact absurd date.exists_ inside

theorem NaiveDate.predOpt_none {d : NaiveDate} (none_ : d.predOpt = none) (d' : NaiveDate) :
    d.day ≤ d'.day := by
  unfold predOpt ofDay at none_
  split_ifs at none_ with inside
  have := d.exists_
  have := d'.exists_
  omega

theorem NaiveDate.succOpt_none {d : NaiveDate} (none_ : d.succOpt = none) (d' : NaiveDate) :
    d'.day ≤ d.day := by
  unfold succOpt ofDay at none_
  split_ifs at none_ with inside
  have := d.exists_
  have := d'.exists_
  omega

namespace Instant

theorem le_def {s t : Instant} : s ≤ t ↔ s.rank ≤ t.rank := Iff.rfl

theorem lt_def {s t : Instant} : s < t ↔ s.rank < t.rank := Iff.rfl

theorem le_of_date_lt {s t : Instant} (before : s.date.day < t.date.day) : s ≤ t := by
  have := s.secs_lt
  have := s.nanos_lt
  rw [le_def, rank, rank]
  omega

def OnMinute (t : Instant) : Prop := t.secs % 60 = 0 ∧ t.nanos = 0

theorem OnMinute.le_iff {s : Instant} (on : s.OnMinute) (t : Instant) :
    s ≤ t ↔ s.date.day < t.date.day ∨ s.date = t.date ∧ s.secs / 60 ≤ t.secs / 60 := by
  obtain ⟨second, nano⟩ := on
  have := s.secs_lt
  have := t.secs_lt
  have := t.nanos_lt
  rw [le_def, rank, rank, ← NaiveDate.day_inj, nano]
  omega

theorem OnMinute.lt_iff {s : Instant} (on : s.OnMinute) (t : Instant) :
    t < s ↔ t.date.day < s.date.day ∨ s.date = t.date ∧ t.secs / 60 + 1 ≤ s.secs / 60 := by
  have order := on.le_iff t
  rw [le_def] at order
  rw [lt_def, ← Int.not_le, order, ← NaiveDate.day_inj]
  omega

theorem minuteOfDay (t : Instant) : t.hour * 60 + t.minute = t.secs / 60 := by
  unfold hour minute
  omega

end Instant

theorem at'_eq {date : NaiveDate} {m : Nat} {x : Instant} (small : m < 24 * 60)
    (made : at' date m = some x) : x.date = date ∧ x.secs / 60 = m ∧ x.OnMinute := by
  unfold at' at made
  rw [dif_pos (by omega)] at made
  obtain rfl := Option.some.inj made
  refine ⟨rfl, ?_, ?_, rfl⟩
  · simp only
    omega
  · simp only
    omega

theorem at'_ne_none {date : NaiveDate} {m : Nat} (small : m < 24 * 60) : at' date m ≠ none := by
  unfold at'
  rw [dif_pos (by omega)]
  exact Option.some_ne_none _

namespace Cron

variable {c : Cron}

/-- The minutes whose date and time match. -/
def Fires (c : Cron) (t : Instant) : Prop :=
  t.OnMinute ∧ c.dayMatches t.date = true ∧ c.timeMatches (t.secs / 60) = true

def Behind (c : Cron) (date : NaiveDate) (cap : Nat) : Set Instant :=
  {y | c.Fires y ∧ (y.date.day < date.day ∨ y.date = date ∧ y.secs / 60 ≤ cap)}

theorem behind_pred {date before : NaiveDate} {cap : Nat} (pred : date.predOpt = some before)
    (none_ : (if c.dayMatches date then lastUpTo c.timeMatches cap else none) = none) :
    c.Behind date cap = c.Behind before (23 * 60 + 59) := by
  have day := NaiveDate.ofDay_eq_some.mp pred
  ext y
  have bound := y.secs_lt
  constructor
  · rintro ⟨fires, earlier | ⟨rfl, within⟩⟩
    · refine ⟨fires, ?_⟩
      rw [← NaiveDate.day_inj]
      omega
    · rw [if_pos fires.2.1] at none_
      exact absurd fires.2.2 (by simp [lastUpTo_none none_ _ within])
  · rintro ⟨fires, earlier | ⟨rfl, _⟩⟩
    · exact ⟨fires, .inl (by omega)⟩
    · exact ⟨fires, .inl (by omega)⟩

theorem walkBack_some {x : Instant} (days : Nat) {date : NaiveDate} {cap : Nat}
    (small : cap < 24 * 60) (found : c.walkBack days date cap = some x) :
    IsGreatest (c.Behind date cap) x ∧ date.day - days < x.date.day := by
  induction days generalizing date cap with
  | zero => exact absurd found.symm (Option.some_ne_none _)
  | succ days ih =>
      rw [walkBack] at found
      split at found
      · rename_i m minute
        split_ifs at minute with matches_
        obtain ⟨⟨within, time⟩, greatest⟩ := lastUpTo_some minute
        obtain ⟨rfl, number, on⟩ := at'_eq (by omega) found
        refine ⟨⟨⟨⟨on, matches_, number ▸ time⟩, .inr ⟨rfl, by omega⟩⟩, ?_⟩, by omega⟩
        rintro y ⟨fires, earlier | ⟨same, below⟩⟩
        · exact Instant.le_of_date_lt earlier
        · refine (fires.1.le_iff x).mpr (.inr ⟨same, ?_⟩)
          rw [number]
          exact greatest ⟨below, fires.2.2⟩
      · rename_i none_
        split at found
        · rename_i before pred
          have day := NaiveDate.ofDay_eq_some.mp pred
          obtain ⟨greatest, near⟩ := ih (by omega) found
          rw [behind_pred pred none_]
          exact ⟨greatest, by omega⟩
        · exact absurd found.symm (Option.some_ne_none _)

theorem walkBack_none (days : Nat) {date : NaiveDate} {cap : Nat} (small : cap < 24 * 60)
    (none_ : c.walkBack days date cap = none) :
    ∀ y ∈ c.Behind date cap, y.date.day ≤ date.day - days := by
  induction days generalizing date cap with
  | zero =>
      rintro y ⟨_, earlier | ⟨rfl, _⟩⟩
      · omega
      · omega
  | succ days ih =>
      rw [walkBack] at none_
      split at none_
      · rename_i m minute
        split_ifs at minute with matches_
        have := (lastUpTo_some minute).1.1
        exact absurd none_ (at'_ne_none (by omega))
      · rename_i nothing
        intro y mem
        split at none_
        · rename_i before pred
          have day := NaiveDate.ofDay_eq_some.mp pred
          rw [behind_pred pred nothing] at mem
          have := ih (by omega) none_ y mem
          omega
        · -- The calendar's first date has no day before.
          rename_i pred
          have first := NaiveDate.predOpt_none pred y.date
          obtain ⟨fires, earlier | ⟨rfl, within⟩⟩ := mem
          · omega
          · rw [if_pos fires.2.1] at nothing
            exact absurd fires.2.2 (by simp [lastUpTo_none nothing _ within])

def Ahead (c : Cron) (date : NaiveDate) (floor : Nat) : Set Instant :=
  {y | c.Fires y ∧ (date.day < y.date.day ∨ y.date = date ∧ floor ≤ y.secs / 60)}

def firstDay (date : NaiveDate) (floor : Nat) : Int :=
  if floor > 23 * 60 + 59 then date.day + 1 else date.day

theorem ahead_succ {date behind : NaiveDate} {floor : Nat} (succ : date.succOpt = some behind)
    (none_ : ∀ y, y.date = date → c.Fires y → y.secs / 60 < floor) :
    c.Ahead date floor = c.Ahead behind 0 := by
  have day := NaiveDate.ofDay_eq_some.mp succ
  ext y
  constructor
  · rintro ⟨fires, later | ⟨here, above⟩⟩
    · refine ⟨fires, ?_⟩
      rw [← NaiveDate.day_inj]
      omega
    · have := none_ y here fires
      omega
  · rintro ⟨fires, later | ⟨rfl, _⟩⟩
    · exact ⟨fires, .inl (by omega)⟩
    · exact ⟨fires, .inl (by omega)⟩

theorem firstFrom_fires {date : NaiveDate} {floor : Nat}
    (none_ : (if c.dayMatches date then firstFrom c.timeMatches (24 * 60 - floor) floor
      else none) = none) :
    ∀ y, y.date = date → c.Fires y → y.secs / 60 < floor := by
  rintro y rfl fires
  have := y.secs_lt
  rw [if_pos fires.2.1] at none_
  by_contra above
  exact absurd fires.2.2 (by simp [firstFrom_none none_ (y.secs / 60) (by omega) (by omega)])

theorem walkOn_within {floor : Nat} (small : floor ≤ 23 * 60 + 59) (days : Nat)
    (date : NaiveDate) :
    c.walkOn (days + 1) date floor =
      match if c.dayMatches date then firstFrom c.timeMatches (24 * 60 - floor) floor else none with
      | some m => at' date m
      | none =>
          match date.succOpt with
          | some behind => c.walkOn days behind 0
          | none => none := by
  have within : ¬ floor > 23 * 60 + 59 := by omega
  rw [walkOn, if_neg within] <;> rfl

theorem walkOn_past {floor : Nat} (past : 23 * 60 + 59 < floor) (days : Nat) (date : NaiveDate) :
    c.walkOn (days + 1) date floor =
      match date.succOpt with
      | some behind => c.walkOn (days + 1) behind 0
      | none => none := by
  rw [walkOn, if_pos past]
  cases date.succOpt with
  | none => rfl
  | some behind => exact (walkOn_within (Nat.zero_le _) days behind).symm

theorem walkOn_some {x : Instant} (days : Nat) {date : NaiveDate} {floor : Nat}
    (small : floor ≤ 23 * 60 + 59) (found : c.walkOn days date floor = some x) :
    IsLeast (c.Ahead date floor) x ∧ x.date.day < date.day + days := by
  induction days generalizing date floor with
  | zero => exact absurd found.symm (Option.some_ne_none _)
  | succ days ih =>
      rw [walkOn_within small] at found
      split at found
      · rename_i m minute
        split_ifs at minute with matches_
        obtain ⟨⟨above, within, time⟩, least⟩ := firstFrom_some minute
        obtain ⟨rfl, number, on⟩ := at'_eq (by omega) found
        refine ⟨⟨⟨⟨on, matches_, number ▸ time⟩, .inr ⟨rfl, by omega⟩⟩, ?_⟩, by omega⟩
        rintro y ⟨fires, later | ⟨same, floored⟩⟩
        · exact Instant.le_of_date_lt later
        · have := y.secs_lt
          refine (on.le_iff y).mpr (.inr ⟨same.symm, ?_⟩)
          rw [number]
          exact least ⟨floored, by omega, fires.2.2⟩
      · rename_i none_
        split at found
        · rename_i behind succ
          have day := NaiveDate.ofDay_eq_some.mp succ
          obtain ⟨least, near⟩ := ih (Nat.zero_le _) found
          rw [ahead_succ succ (firstFrom_fires none_)]
          exact ⟨least, by omega⟩
        · exact absurd found.symm (Option.some_ne_none _)

theorem walkOn_none (days : Nat) {date : NaiveDate} {floor : Nat}
    (small : floor ≤ 23 * 60 + 59) (none_ : c.walkOn days date floor = none) :
    ∀ y ∈ c.Ahead date floor, date.day + days ≤ y.date.day := by
  induction days generalizing date floor with
  | zero =>
      rintro y ⟨_, later | ⟨rfl, _⟩⟩
      · omega
      · omega
  | succ days ih =>
      rw [walkOn_within small] at none_
      split at none_
      · rename_i m minute
        split_ifs at minute with matches_
        have := (firstFrom_some minute).1.2.1
        exact absurd none_ (at'_ne_none (by omega))
      · rename_i nothing
        intro y mem
        split at none_
        · rename_i behind succ
          have day := NaiveDate.ofDay_eq_some.mp succ
          rw [ahead_succ succ (firstFrom_fires nothing)] at mem
          have := ih (Nat.zero_le _) none_ y mem
          omega
        · -- The calendar's last date has no day behind.
          rename_i succ
          have last := NaiveDate.succOpt_none succ y.date
          obtain ⟨fires, later | ⟨here, above⟩⟩ := mem
          · omega
          · have := firstFrom_fires nothing y here fires
            omega

theorem not_past {date : NaiveDate} {floor : Nat} (past : 23 * 60 + 59 < floor) :
    ∀ y, y.date = date → c.Fires y → y.secs / 60 < floor := by
  intro y _ _
  have := y.secs_lt
  omega

theorem fires_behind {t y : Instant} :
    y ∈ c.Behind t.date (t.hour * 60 + t.minute) ↔ c.Fires y ∧ y ≤ t := by
  rw [t.minuteOfDay]
  exact and_congr_right fun fires => (fires.1.le_iff t).symm

theorem fires_ahead {t y : Instant} :
    y ∈ c.Ahead t.date (t.hour * 60 + t.minute + 1) ↔ c.Fires y ∧ t < y := by
  rw [t.minuteOfDay]
  exact and_congr_right fun fires => (fires.1.lt_iff t).symm

theorem lastFire_some {t x : Instant} (found : c.lastFireAtOrBefore t = some x) :
    IsGreatest {y | c.Fires y ∧ y ≤ t} x ∧ t.date.day - 3700 < x.date.day := by
  have small : t.hour * 60 + t.minute < 24 * 60 := by
    have := t.secs_lt
    rw [t.minuteOfDay]
    omega
  obtain ⟨greatest, near⟩ := walkBack_some walkDays small found
  have same : c.Behind t.date (t.hour * 60 + t.minute) = {y | c.Fires y ∧ y ≤ t} :=
    Set.ext fun _ => fires_behind
  exact ⟨same ▸ greatest, near⟩

theorem lastFire_none {t : Instant} (none_ : c.lastFireAtOrBefore t = none) :
    ∀ y, c.Fires y → y ≤ t → y.date.day ≤ t.date.day - 3700 := by
  have small : t.hour * 60 + t.minute < 24 * 60 := by
    have := t.secs_lt
    rw [t.minuteOfDay]
    omega
  exact fun y fires le => walkBack_none walkDays small none_ y (fires_behind.mpr ⟨fires, le⟩)

def startDay (t : Instant) : Int := firstDay t.date (t.hour * 60 + t.minute + 1)

theorem nextFire_some {t x : Instant} (found : c.nextFireAfter t = some x) :
    IsLeast {y | c.Fires y ∧ t < y} x ∧ x.date.day < startDay t + 3700 := by
  have same : c.Ahead t.date (t.hour * 60 + t.minute + 1) = {y | c.Fires y ∧ t < y} :=
    Set.ext fun _ => fires_ahead
  rw [← same, startDay]
  unfold nextFireAfter at found
  generalize t.hour * 60 + t.minute + 1 = floor at found ⊢
  rcases Nat.lt_or_ge (23 * 60 + 59) floor with past | small
  · rw [walkDays, walkOn_past past] at found
    rw [firstDay, if_pos past]
    split at found
    · rename_i behind succ
      have day := NaiveDate.ofDay_eq_some.mp succ
      rw [ahead_succ succ (not_past past), ← day]
      exact walkOn_some _ (Nat.zero_le _) found
    · exact absurd found.symm (Option.some_ne_none _)
  · rw [firstDay, if_neg (by omega)]
    exact walkOn_some walkDays small found

theorem nextFire_none {t : Instant} (none_ : c.nextFireAfter t = none) :
    ∀ y, c.Fires y → t < y → startDay t + 3700 ≤ y.date.day := by
  intro y fires later
  have mem := fires_ahead.mpr ⟨fires, later⟩
  unfold nextFireAfter at none_
  rw [startDay]
  generalize t.hour * 60 + t.minute + 1 = floor at none_ mem ⊢
  rcases Nat.lt_or_ge (23 * 60 + 59) floor with past | small
  · rw [walkDays, walkOn_past past] at none_
    rw [firstDay, if_pos past]
    split at none_
    · rename_i behind succ
      have day := NaiveDate.ofDay_eq_some.mp succ
      rw [ahead_succ succ (not_past past)] at mem
      rw [← day]
      exact walkOn_none _ (Nat.zero_le _) none_ y mem
    · rename_i succ
      have last := NaiveDate.succOpt_none succ y.date
      obtain ⟨_, after | ⟨here, above⟩⟩ := mem
      · omega
      · have := not_past past y here fires
        omega
  · rw [firstDay, if_neg (by omega)]
    exact walkOn_none walkDays small none_ y mem

end Cron

/-- The walks of an accepted expression are exact: each ends at the last minute that its text
names up to an instant, or the first behind it, and finds none only where the 3700 dates it visits
hold none.  Between the two nothing fires. -/
theorem walks_exact (e : Expression) (t : Instant) :
    (∀ x, e.cron.lastFireAtOrBefore t = some x → IsGreatest {y | FiresAt e.text y ∧ y ≤ t} x) ∧
    (∀ x, e.cron.nextFireAfter t = some x → IsLeast {y | FiresAt e.text y ∧ t < y} x) ∧
    (e.cron.lastFireAtOrBefore t = none ↔
      ∀ y, FiresAt e.text y → y ≤ t → y.date.day ≤ t.date.day - 3700) ∧
    (e.cron.nextFireAfter t = none ↔
      ∀ y, FiresAt e.text y → t < y → Cron.startDay t + 3700 ≤ y.date.day) ∧
    (∀ x x', e.cron.lastFireAtOrBefore t = some x → e.cron.nextFireAfter t = some x' →
      ∀ y, x < y → y < x' → ¬ FiresAt e.text y) := by
  have same : FiresAt e.text = e.cron.Fires := by
    ext y
    rw [e.firesAt_iff, Cron.Fires, Instant.OnMinute, and_assoc]
  rw [same]
  refine ⟨fun x found => (Cron.lastFire_some found).1, fun x found => (Cron.nextFire_some found).1,
    ⟨Cron.lastFire_none, fun far => ?_⟩, ⟨Cron.nextFire_none, fun far => ?_⟩, ?_⟩
  · cases found : e.cron.lastFireAtOrBefore t with
    | none => rfl
    | some x =>
        obtain ⟨⟨⟨fires, le⟩, _⟩, near⟩ := Cron.lastFire_some found
        have := far x fires le
        omega
  · cases found : e.cron.nextFireAfter t with
    | none => rfl
    | some x =>
        obtain ⟨⟨⟨fires, after⟩, _⟩, near⟩ := Cron.nextFire_some found
        have := far x fires after
        omega
  · intro x x' last next y above below fires
    rw [Instant.lt_def] at above below
    rcases Int.lt_or_le t.rank y.rank with behind | before
    · have := (Cron.nextFire_some next).1.2 ⟨fires, behind⟩
      rw [Instant.le_def] at this
      omega
    · have := (Cron.lastFire_some last).1.2 ⟨fires, before⟩
      rw [Instant.le_def] at this
      omega

end Logweir.Cadence
