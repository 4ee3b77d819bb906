import Logweir.Cadence.Walk
import Logweir.Cadence.Zones

/-!
# What a local date fires

The instants that the local minutes of a date stand for, and how far from the date they are.  The map
of a date's firings holds each of them once, with the most truthful of its markers.
-/

set_option autoImplicit false

namespace Logweir.Cadence

open Std (ExtTreeMap)

namespace Instant

def total (t : Instant) : Int := t.date.day * 86400 + t.secs

theorem lt_of_total {s t : Instant} (before : s.total < t.total) : s < t := by
  have := s.nanos_lt
  unfold total at before
  rw [lt_def, rank, rank]
  omega

theorem total_le {s t : Instant} (le : s ≤ t) : s.total ≤ t.total := by
  by_contra after
  exact absurd (lt_of_total (Int.not_le.mp after)) (not_lt_of_ge le)

theorem total_near (t : Instant) :
    t.date.day * 86400 ≤ t.total ∧ t.total < t.date.day * 86400 + 86400 := by
  have := t.secs_lt
  unfold total
  omega

theorem le_of_whole {s t : Instant} (whole : s.nanos = 0) (le : s.total ≤ t.total) : s ≤ t := by
  unfold total at le
  rw [le_def, rank, rank]
  omega

theorem eq_of_total {s t : Instant} (whole : s.nanos = 0) (whole' : t.nanos = 0)
    (same : s.total = t.total) : s = t :=
  le_antisymm (le_of_whole whole (Int.le_of_eq same)) (le_of_whole whole' (Int.le_of_eq same.symm))

variable {t t' : Instant} {s : Int}

theorem plus_eq (moved : t.plus s = some t') : t'.total = t.total + s ∧ t'.nanos = t.nanos := by
  unfold plus at moved
  split_ifs at moved with inside
  obtain rfl := Option.some.inj moved
  refine ⟨?_, rfl⟩
  unfold total
  dsimp only
  omega

theorem plus_isSome (low : minDay * 86400 ≤ t.total + s)
    (high : t.total + s < (maxDay + 1) * 86400) : ∃ t', t.plus s = some t' := by
  unfold total at low high
  refine ⟨_, dif_pos ⟨?_, ?_⟩⟩
  · omega
  · omega

end Instant

theorem at'_total {date : NaiveDate} {m : Nat} {t : Instant} (small : m < 24 * 60)
    (made : at' date m = some t) : t.total = date.day * 86400 + m * 60 ∧ t.nanos = 0 := by
  obtain ⟨rfl, number, second, whole⟩ := at'_eq small made
  refine ⟨?_, whole⟩
  unfold Instant.total
  omega

namespace Tz

variable {tz : Tz} {wall t : Instant}

/-- A local time that exists, as the first of its instants. -/
def Earliest (tz : Tz) (wall t : Instant) : Prop :=
  tz.fromLocalDatetime wall = .single t ∨ ∃ second, tz.fromLocalDatetime wall = .ambiguous t second

/-- A local time that exists, some minutes behind one that does not, is the next that does. -/
def GapEnds (tz : Tz) (wall : Instant) (first fuel : Nat) (t : Instant) : Prop :=
  ∃ step later, first ≤ step ∧ step < first + fuel ∧ wall.plus (step * 60) = some later ∧
    tz.Earliest later t ∧ ∀ sooner, first ≤ sooner → sooner < step →
      ∃ gap, wall.plus (sooner * 60) = some gap ∧ tz.fromLocalDatetime gap = .none

/-- An instant that a local time stands for, and its marker. -/
inductive Marks (tz : Tz) (wall : Instant) : Instant → Option Adjustment → Prop where
  | single {t : Instant} (one : tz.fromLocalDatetime wall = .single t) : Marks tz wall t none
  | first {t second : Instant} (two : tz.fromLocalDatetime wall = .ambiguous t second) :
      Marks tz wall t (some .repeatedLocalTimeFirst)
  | second {first t : Instant} (two : tz.fromLocalDatetime wall = .ambiguous first t) :
      Marks tz wall t (some .repeatedLocalTimeSecond)
  | shifted {t : Instant} (gap : tz.fromLocalDatetime wall = .none)
      (ends : tz.GapEnds wall 1 gapSearchMinutes t) :
      Marks tz wall t (some .nonexistentLocalTimeShifted)

theorem earliest_inj {t t' : Instant} (one : tz.Earliest wall t) (other : tz.Earliest wall t') :
    t = t' := by
  rcases one with one | ⟨s, one⟩
  · rcases other with other | ⟨s', other⟩
    · simpa [one] using other
    · simp [one] at other
  · rcases other with other | ⟨s', other⟩
    · simp [one] at other
    · rw [one] at other
      cases other
      rfl

theorem gapEnds_succ {first fuel : Nat} {gap : Instant} (here : wall.plus (first * 60) = some gap)
    (none_ : tz.fromLocalDatetime gap = .none) :
    tz.GapEnds wall first (fuel + 1) t ↔ tz.GapEnds wall (first + 1) fuel t := by
  constructor
  · rintro ⟨step, later, low, high, moved, ends, gaps⟩
    rcases Nat.eq_or_lt_of_le low with rfl | behind
    · rw [here, Option.some.injEq] at moved
      subst moved
      rcases ends with one | ⟨s, two⟩
      · simp [none_] at one
      · simp [none_] at two
    · exact ⟨step, later, behind, by omega, moved, ends, fun sooner above below =>
        gaps sooner (by omega) below⟩
  · rintro ⟨step, later, low, high, moved, ends, gaps⟩
    refine ⟨step, later, by omega, by omega, moved, ends, fun sooner above below => ?_⟩
    rcases Nat.eq_or_lt_of_le above with rfl | behind
    · exact ⟨gap, here, none_⟩
    · exact gaps sooner behind below

theorem gapEnds_here {first fuel : Nat} {later t' : Instant}
    (here : wall.plus (first * 60) = some later) (ends : tz.Earliest later t') :
    tz.GapEnds wall first (fuel + 1) t ↔ t' = t := by
  constructor
  · rintro ⟨step, later', low, high, moved, ends', gaps⟩
    rcases Nat.eq_or_lt_of_le low with rfl | behind
    · rw [here, Option.some.injEq] at moved
      subst moved
      exact earliest_inj ends ends'
    · obtain ⟨gap, there, none_⟩ := gaps first (Nat.le_refl _) behind
      rw [here, Option.some.injEq] at there
      subst there
      rcases ends with one | ⟨s, two⟩
      · simp [none_] at one
      · simp [none_] at two
  · rintro rfl
    exact ⟨first, later, Nat.le_refl _, by omega, here, ends, fun sooner above below => by omega⟩

theorem gapSearch_eq {r : Option Instant} (fuel : Nat) {first : Nat}
    (searched : tz.gapSearch wall fuel first = some r) :
    r = some t ↔ tz.GapEnds wall first fuel t := by
  induction fuel generalizing first with
  | zero =>
      cases searched
      constructor
      · exact fun none_ => (Option.some_ne_none t none_.symm).elim
      · rintro ⟨step, later, low, high, _⟩
        omega
  | succ fuel ih =>
      rw [gapSearch] at searched
      split at searched
      · cases searched
      · rename_i later moved
        split at searched
        · rename_i x one
          cases searched
          rw [gapEnds_here moved (.inl one), Option.some.injEq]
        · rename_i x second two
          cases searched
          rw [gapEnds_here moved (.inr ⟨second, two⟩), Option.some.injEq]
        · rename_i none_
          rw [gapEnds_succ moved none_]
          exact ih searched

theorem gapEnd_eq {r : Option Instant} (searched : tz.gapEnd wall = some r) :
    r = some t ↔ tz.GapEnds wall 1 gapSearchMinutes t :=
  gapSearch_eq gapSearchMinutes searched

theorem gapSearch_isSome (tz : Tz) (wall : Instant) (fuel first : Nat)
    (room : wall.total + (first + fuel) * 60 ≤ (maxDay + 1) * 86400)
    (inside : minDay * 86400 ≤ wall.total) : ∃ r, tz.gapSearch wall fuel first = some r := by
  induction fuel generalizing first with
  | zero => exact ⟨none, rfl⟩
  | succ fuel ih =>
      have here : ∃ later, wall.plus (first * 60) = some later :=
        Instant.plus_isSome (by omega) (by omega)
      obtain ⟨later, moved⟩ := here
      rw [gapSearch, moved]
      dsimp only
      split
      · exact ⟨_, rfl⟩
      · exact ⟨_, rfl⟩
      · exact ih (first + 1) (by omega)

end Tz

/-- A map holds the instants of a relation, each with a marker that none of its others is more
truthful than. -/
structure Holds (found : Found) (P : Instant → Option Adjustment → Prop) : Prop where
  sound : ∀ t marker, found[t]? = some marker → P t marker
  least : ∀ t marker, found[t]? = some marker →
    ∀ other, P t other → Adjustment.rank marker ≤ Adjustment.rank other
  full : ∀ t marker, P t marker → ∃ held, found[t]? = some held

theorem holds_empty : Holds ∅ fun _ _ => False where
  sound t marker held := by simp at held
  least t marker held := by simp at held
  full t marker none_ := none_.elim

section
variable {found : Found} {P Q : Instant → Option Adjustment → Prop}

theorem Holds.congr (held : Holds found P) (same : ∀ t marker, P t marker ↔ Q t marker) :
    Holds found Q where
  sound t marker at_ := (same t marker).mp (held.sound t marker at_)
  least t marker at_ other is := held.least t marker at_ other ((same t other).mpr is)
  full t marker is := held.full t marker ((same t marker).mpr is)

theorem getElem?_record (t t' : Instant) (marker : Option Adjustment) :
    (record found t marker)[t']? =
      if t = t' then
        match found[t]? with
        | none => some marker
        | some old => if markerSupersedes marker old then some marker else some old
      else found[t']? := by
  have into : ∀ value : Option Adjustment,
      (found.insert t value)[t']? = if t = t' then some value else found[t']? := by
    intro value
    rw [ExtTreeMap.getElem?_insert]
    exact if_congr compare_eq_iff_eq rfl rfl
  unfold record
  cases here : found[t]? with
  | none => exact into marker
  | some old =>
      dsimp only
      split
      · exact into marker
      · split
        · rename_i same
          rw [← same, here]
        · rfl

theorem holds_record (held : Holds found P) (t : Instant) (marker : Option Adjustment) :
    Holds (record found t marker) fun t' marker' => P t' marker' ∨ t' = t ∧ marker' = marker where
  sound t' marker' at_ := by
    rw [getElem?_record] at at_
    split at at_
    · rename_i same
      subst same
      split at at_
      · exact .inr ⟨rfl, (Option.some.inj at_).symm⟩
      · rename_i old here
        split at at_
        · exact .inr ⟨rfl, (Option.some.inj at_).symm⟩
        · exact .inl (held.sound t marker' (here.trans at_))
    · exact .inl (held.sound t' marker' at_)
  least t' marker' at_ other is := by
    rw [getElem?_record] at at_
    split at at_
    · rename_i same
      subst same
      split at at_
      · rename_i none_
        obtain rfl := Option.some.inj at_
        rcases is with before | ⟨_, rfl⟩
        · obtain ⟨old, here⟩ := held.full t other before
          exact absurd (none_.symm.trans here) (Option.some_ne_none old).symm
        · exact Nat.le_refl _
      · rename_i old here
        have rank : markerSupersedes marker old = true ↔
            Adjustment.rank marker < Adjustment.rank old := decide_eq_true_iff
        split at at_
        · rename_i better
          obtain rfl := Option.some.inj at_
          rcases is with before | ⟨_, rfl⟩
          · have := held.least t old here other before
            have := rank.mp better
            omega
          · exact Nat.le_refl _
        · rename_i worse
          obtain rfl := Option.some.inj at_
          rcases is with before | ⟨_, rfl⟩
          · exact held.least t old here other before
          · exact Nat.not_lt.mp fun less => worse (rank.mpr less)
    · rename_i apart
      rcases is with before | ⟨rfl, _⟩
      · exact held.least t' marker' at_ other before
      · exact absurd rfl apart
  full t' marker' is := by
    rw [getElem?_record]
    split
    · rename_i same
      split
      · exact ⟨_, rfl⟩
      · split
        · exact ⟨_, rfl⟩
        · exact ⟨_, rfl⟩
    · rename_i apart
      rcases is with before | ⟨rfl, _⟩
      · exact held.full t' marker' before
      · exact absurd rfl apart

theorem mem_fires_iff {t : Instant} {marker : Option Adjustment} :
    (⟨t, marker⟩ : Fire) ∈ found.fires ↔ found[t]? = some marker := by
  unfold Found.fires
  rw [← ExtTreeMap.mem_toList_iff_getElem?_eq_some, List.mem_map]
  constructor
  · rintro ⟨⟨t, marker⟩, entry, ⟨⟩⟩
    exact entry
  · exact fun entry => ⟨(t, marker), entry, rfl⟩

theorem Holds.mem_fires (held : Holds found P) {t : Instant} :
    (∃ fire ∈ found.fires, fire.instant = t) ↔ ∃ marker, P t marker := by
  constructor
  · rintro ⟨⟨t, marker⟩, member, rfl⟩
    exact ⟨marker, held.sound t marker (mem_fires_iff.mp member)⟩
  · rintro ⟨marker, is⟩
    obtain ⟨old, here⟩ := held.full t marker is
    exact ⟨⟨t, old⟩, mem_fires_iff.mpr here, rfl⟩

theorem fires_ascending (found : Found) :
    (found.fires.map Fire.instant).Pairwise (· < ·) := by
  unfold Found.fires
  rw [List.map_map, List.pairwise_map]
  exact ExtTreeMap.ordered_keys_toList.imp fun {a b} less => compare_lt_iff_lt.mp less

theorem holds_fold (after : Instant) (fires : List Fire) (held : Holds found P) :
    Holds (recordAfter after fires found) fun t marker =>
      P t marker ∨ after < t ∧ ⟨t, marker⟩ ∈ fires := by
  induction fires generalizing found P with
  | nil => exact held.congr fun t marker => by simp
  | cons fire fires ih =>
      unfold recordAfter
      rw [List.foldl_cons]
      split
      · rename_i behind
        refine (ih (holds_record held fire.instant fire.adjustment)).congr fun t marker => ?_
        have same : (⟨t, marker⟩ : Fire) = fire ↔ t = fire.instant ∧ marker = fire.adjustment :=
          Fire.ext_iff
        rw [List.mem_cons, same, or_assoc]
        refine or_congr_right ⟨?_, ?_⟩
        · rintro (⟨rfl, rfl⟩ | ⟨later, member⟩)
          · exact ⟨behind, .inl ⟨rfl, rfl⟩⟩
          · exact ⟨later, .inr member⟩
        · rintro ⟨later, here | member⟩
          · exact .inl here
          · exact .inr ⟨later, member⟩
      · rename_i before
        refine (ih held).congr fun t marker => ?_
        rw [List.mem_cons]
        refine or_congr_right ⟨fun ⟨later, member⟩ => ⟨later, .inr member⟩, ?_⟩
        rintro ⟨later, here | member⟩
        · subst here
          exact absurd later before
        · exact ⟨later, member⟩

theorem holds_recordAfter {dates : Found} (other : Holds dates Q) (held : Holds found P)
    (after : Instant) :
    Holds (recordAfter after dates.fires found) fun t marker =>
      P t marker ∨ after < t ∧ Q t marker := by
  have folded := holds_fold after dates.fires held
  refine ⟨fun t marker at_ => ?_, fun t marker at_ best is => ?_, fun t marker is => ?_⟩
  · exact (folded.sound t marker at_).imp_right fun ⟨behind, member⟩ =>
      ⟨behind, other.sound t marker (mem_fires_iff.mp member)⟩
  · rcases is with before | ⟨behind, is⟩
    · exact folded.least t marker at_ best (.inl before)
    · -- The date's own map holds a marker that is as truthful.
      obtain ⟨own, here⟩ := other.full t best is
      have := folded.least t marker at_ own (.inr ⟨behind, mem_fires_iff.mpr here⟩)
      have := other.least t own here best is
      omega
  · rcases is with before | ⟨behind, is⟩
    · exact folded.full t marker (.inl before)
    · obtain ⟨own, here⟩ := other.full t marker is
      exact folded.full t own (.inr ⟨behind, mem_fires_iff.mpr here⟩)

end

namespace Tz

variable {tz : Tz} {wall t : Instant}

theorem plus_near {offset : FixedOffset} (moved : wall.plus (-offset.seconds) = some t) :
    t.nanos = wall.nanos ∧ wall.total - 86400 < t.total ∧ t.total < wall.total + 86400 := by
  obtain ⟨total, nanos⟩ := Instant.plus_eq moved
  have := offset.inDay
  refine ⟨nanos, ?_, ?_⟩
  · omega
  · omega

theorem single_near (one : tz.fromLocalDatetime wall = .single t) :
    t.nanos = wall.nanos ∧ wall.total - 86400 < t.total ∧ t.total < wall.total + 86400 := by
  unfold fromLocalDatetime at one
  split at one
  · split at one
    · rename_i moved
      cases one
      exact plus_near moved
    · cases one
  · split at one
    · cases one
    · cases one
  · cases one

theorem ambiguous_moved {first second : Instant}
    (two : tz.fromLocalDatetime wall = .ambiguous first second) :
    ∃ offset offset' : FixedOffset, wall.plus (-offset.seconds) = some first ∧
      wall.plus (-offset'.seconds) = some second := by
  unfold fromLocalDatetime at two
  split at two
  · split at two
    · cases two
    · cases two
  · rename_i offset offset' _
    split at two
    · rename_i moved moved'
      cases two
      exact ⟨offset, offset', moved, moved'⟩
    · cases two
  · cases two

theorem Marks.near {marker : Option Adjustment} (marks : tz.Marks wall t marker) :
    t.nanos = wall.nanos ∧ wall.total - 86400 < t.total ∧ t.total < wall.total + 3 * 86400 := by
  cases marks with
  | single one =>
      have := single_near one
      exact ⟨this.1, this.2.1, by omega⟩
  | first two =>
      obtain ⟨_, _, moved, _⟩ := ambiguous_moved two
      have := plus_near moved
      exact ⟨this.1, this.2.1, by omega⟩
  | second two =>
      obtain ⟨_, _, _, moved⟩ := ambiguous_moved two
      have := plus_near moved
      exact ⟨this.1, this.2.1, by omega⟩
  | shifted gap ends =>
      obtain ⟨step, later, low, high, ahead, earliest, _⟩ := ends
      have within : step ≤ 48 * 60 := by
        unfold gapSearchMinutes at high
        omega
      obtain ⟨total, nanos⟩ := Instant.plus_eq ahead
      have near : t.nanos = later.nanos ∧ later.total - 86400 < t.total ∧
          t.total < later.total + 86400 := by
        rcases earliest with one | ⟨second, two⟩
        · exact single_near one
        · obtain ⟨_, _, moved, _⟩ := ambiguous_moved two
          exact plus_near moved
      exact ⟨near.1.trans nanos, by omega, by omega⟩

theorem localDate_near {date : NaiveDate} (local_ : tz.localDate t = some date) :
    date.day ≤ t.date.day + 1 ∧ t.date.day ≤ date.day + 1 := by
  unfold localDate at local_
  split at local_
  · rename_i wall moved
    cases local_
    obtain ⟨total, _⟩ := Instant.plus_eq moved
    have := (tz.offsetFromUtc t).inDay
    have := t.total_near
    have := wall.total_near
    constructor
    · omega
    · omega
  · cases local_

end Tz

namespace Cron

variable {c : Cron} {tz : Tz} {date : NaiveDate}

/-- An instant that a named minute of a date stands for, and its marker. -/
def AtMinute (c : Cron) (tz : Tz) (date : NaiveDate) (m : Nat) (t : Instant)
    (marker : Option Adjustment) : Prop :=
  c.timeMatches m = true ∧ ∃ wall, at' date m = some wall ∧ tz.Marks wall t marker

/-- An instant that a local date fires at, and its marker. -/
def OnDate (c : Cron) (tz : Tz) (date : NaiveDate) (t : Instant) (marker : Option Adjustment) :
    Prop :=
  c.dayMatches date = true ∧ ∃ m < 24 * 60, c.AtMinute tz date m t marker

theorem holds_recordMinute {found found' : Found} {P : Instant → Option Adjustment → Prop} {m : Nat}
    (small : m < 24 * 60) (held : Holds found P)
    (done_ : c.recordMinute tz date found m = some found') :
    Holds found' fun t marker => P t marker ∨ c.AtMinute tz date m t marker := by
  unfold recordMinute matchesMinuteOfDay at done_
  split at done_
  · rename_i other
    cases done_
    refine held.congr fun t marker => (or_iff_left ?_).symm
    rintro ⟨named, _⟩
    simp [named] at other
  · rename_i named
    rw [Bool.not_eq_true, Bool.not_eq_false'] at named
    split at done_
    · rename_i none_
      exact absurd none_ (at'_ne_none small)
    · rename_i wall made
      have minute : ∀ t marker, c.AtMinute tz date m t marker ↔ tz.Marks wall t marker := by
        intro t marker
        constructor
        · rintro ⟨_, wall', made', marks⟩
          rw [made, Option.some.injEq] at made'
          exact made' ▸ marks
        · exact fun marks => ⟨named, wall, made, marks⟩
      simp only [minute]
      split at done_
      · rename_i x one
        cases done_
        refine (holds_record held x none).congr fun t marker => or_congr_right ?_
        constructor
        · rintro ⟨rfl, rfl⟩
          exact .single one
        · rintro (one' | two | two | gap)
          · rw [one, LocalResult.single.injEq] at one'
            exact ⟨one'.symm, rfl⟩
          all_goals simp_all
      · rename_i first second two
        cases done_
        refine (holds_record (holds_record held _ _) _ _).congr fun t marker => ?_
        rw [or_assoc]
        refine or_congr_right ⟨?_, ?_⟩
        · rintro (⟨rfl, rfl⟩ | ⟨rfl, rfl⟩)
          · exact .first two
          · exact .second two
        · rintro (one | two' | two' | gap)
          · simp [two] at one
          · rw [two, LocalResult.ambiguous.injEq] at two'
            exact .inl ⟨two'.1.symm, rfl⟩
          · rw [two, LocalResult.ambiguous.injEq] at two'
            exact .inr ⟨two'.2.symm, rfl⟩
          · simp [two] at gap
      · rename_i none_
        have marks : ∀ t marker, tz.Marks wall t marker ↔
            tz.GapEnds wall 1 gapSearchMinutes t ∧ marker = some .nonexistentLocalTimeShifted := by
          intro t marker
          constructor
          · rintro (one | two | two | ⟨_, ends⟩)
            · simp [none_] at one
            · simp [none_] at two
            · simp [none_] at two
            · exact ⟨ends, rfl⟩
          · rintro ⟨ends, rfl⟩
            exact .shifted none_ ends
        simp only [marks]
        split at done_
        · cases done_
        · rename_i searched
          cases done_
          refine held.congr fun t marker => (or_iff_left ?_).symm
          rintro ⟨ends, _⟩
          rw [← Tz.gapEnd_eq searched] at ends
          cases ends
        · rename_i x searched
          cases done_
          refine (holds_record held x _).congr fun t marker => or_congr_right ?_
          rw [← Tz.gapEnd_eq searched, Option.some.injEq, eq_comm]

theorem holds_recordMinutes (minutes : List Nat) {found found' : Found}
    {P : Instant → Option Adjustment → Prop} (small : ∀ m ∈ minutes, m < 24 * 60)
    (held : Holds found P) (done_ : c.recordMinutes tz date minutes found = some found') :
    Holds found' fun t marker => P t marker ∨ ∃ m ∈ minutes, c.AtMinute tz date m t marker := by
  induction minutes generalizing found P with
  | nil =>
      cases done_
      exact held.congr fun t marker => by simp
  | cons m minutes ih =>
      rw [recordMinutes] at done_
      split at done_
      · cases done_
      · rename_i next one
        have step := holds_recordMinute (small m List.mem_cons_self) held one
        refine (ih (fun m' member => small m' (List.mem_cons_of_mem _ member)) step done_).congr
          fun t marker => ?_
        simp only [List.mem_cons, exists_eq_or_imp, or_assoc]

theorem firesOnLocalDate_eq {fires : List Fire} (done_ : c.firesOnLocalDate tz date = some fires) :
    ∃ found, fires = found.fires ∧ Holds found (c.OnDate tz date) := by
  unfold firesOnLocalDate matchesDate at done_
  split at done_
  · rename_i other
    cases done_
    refine ⟨∅, by simp [Found.fires], holds_empty.congr fun t marker => ?_⟩
    refine (iff_of_false not_false fun on => ?_)
    simp [on.1] at other
  · rename_i named
    rw [Bool.not_eq_true, Bool.not_eq_false'] at named
    obtain ⟨found, minutes, rfl⟩ := Option.map_eq_some_iff.mp done_
    refine ⟨found, rfl, ?_⟩
    refine (holds_recordMinutes _ (fun m member => List.mem_range.mp member) holds_empty
      minutes).congr fun t marker => ?_
    simp only [false_or, List.mem_range, OnDate, named, true_and]

theorem OnDate.near {t : Instant} {marker : Option Adjustment} (on : c.OnDate tz date t marker) :
    t.nanos = 0 ∧ date.day * 86400 - 86400 < t.total ∧ t.total < date.day * 86400 + 4 * 86400 := by
  obtain ⟨_, m, small, _, wall, made, marks⟩ := on
  obtain ⟨total, whole⟩ := at'_total small made
  have := marks.near
  exact ⟨this.1.trans whole, by omega, by omega⟩

theorem recordMinutes_isSome (c : Cron) (tz : Tz) (room : date.day + 2 ≤ maxDay)
    (minutes : List Nat) (found : Found) (small : ∀ m ∈ minutes, m < 24 * 60) :
    ∃ found', c.recordMinutes tz date minutes found = some found' := by
  induction minutes generalizing found with
  | nil => exact ⟨found, rfl⟩
  | cons m minutes ih =>
      have step : ∃ next, c.recordMinute tz date found m = some next := by
        have within := small m List.mem_cons_self
        unfold recordMinute
        split
        · exact ⟨_, rfl⟩
        · split
          · exact ⟨_, rfl⟩
          · rename_i wall made
            have total := (at'_total within made).1
            have := date.exists_
            obtain ⟨r, searched⟩ := tz.gapSearch_isSome wall gapSearchMinutes 1
              (by unfold gapSearchMinutes; omega) (by omega)
            rw [Tz.gapEnd, searched]
            split
            · exact ⟨_, rfl⟩
            · exact ⟨_, rfl⟩
            · cases r with
              | none => exact ⟨_, rfl⟩
              | some t => exact ⟨_, rfl⟩
      obtain ⟨next, one⟩ := step
      rw [recordMinutes, one]
      exact ih next fun m' member => small m' (List.mem_cons_of_mem _ member)

theorem firesOnLocalDate_isSome (c : Cron) (tz : Tz) (room : date.day + 2 ≤ maxDay) :
    ∃ fires, c.firesOnLocalDate tz date = some fires := by
  unfold firesOnLocalDate
  split
  · exact ⟨_, rfl⟩
  · obtain ⟨found, minutes⟩ := c.recordMinutes_isSome tz room (List.range (24 * 60)) ∅
      fun m member => List.mem_range.mp member
    exact ⟨found.fires, by rw [minutes]; rfl⟩

end Cron

end Logweir.Cadence
