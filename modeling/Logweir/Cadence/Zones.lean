import Std.Data.ExtTreeMap
import Mathlib.Order.Std
import Mathlib.Order.Basic
import Mathlib.Order.Lattice
import Logweir.Cadence.Cron

/-!
# Cadences

`weirkeeper::cadence`: an expression whose fields are read in a time zone.  The local times of a
local date become instants, and a walk of the local dates collects the instants behind another one.
Arithmetic that leaves the calendar panics: such a computation is `none`.
-/

set_option autoImplicit false

namespace Logweir.Cadence

open Std (ExtTreeMap)

/-- `MAX_OFFSET_HOURS`. -/
def maxOffsetHours : Int := 26

/-- `GAP_SEARCH_MINUTES`. -/
def gapSearchMinutes : Nat := 48 * 60

/-- `EDGE_DAYS`. -/
def edgeDays : Nat := 4

/-- `MAX_DATE_STEPS`. -/
def maxDateSteps : Nat := walkDays + 2 * edgeDays

/-- `usize::MAX`. -/
def usizeMax : Nat := 2 ^ 64 - 1

namespace Instant

theorem rank_inj {s t : Instant} (same : s.rank = t.rank) : s = t := by
  obtain ⟨date, secs, nanos, secs_lt, nanos_lt⟩ := s
  obtain ⟨date', secs', nanos', secs_lt', nanos_lt'⟩ := t
  unfold rank at same
  dsimp only at same
  have day : date.day = date'.day := by omega
  obtain rfl : date = date' := by
    cases date
    cases date'
    simpa using day
  obtain rfl : secs = secs' := by omega
  obtain rfl : nanos = nanos' := by omega
  rfl

instance : LinearOrder Instant where
  le_refl s := Int.le_refl s.rank
  le_trans _ _ _ := Int.le_trans
  lt_iff_le_not_ge _ _ := Int.lt_iff_le_and_not_ge
  le_antisymm _ _ le ge := rank_inj (Int.le_antisymm le ge)
  le_total s t := Int.le_total s.rank t.rank
  toDecidableLE s t := inferInstanceAs (Decidable (s.rank ≤ t.rank))
  toDecidableLT s t := inferInstanceAs (Decidable (s.rank < t.rank))

instance : Std.LawfulEqCmp (compare : Instant → Instant → Ordering) where
  eq_of_compare := compare_eq_iff_eq.mp

def plus (t : Instant) (s : Int) : Option Instant :=
  if h : minDay ≤ (t.date.day * 86400 + t.secs + s) / 86400 ∧
      (t.date.day * 86400 + t.secs + s) / 86400 ≤ maxDay then
    some
      { date := ⟨(t.date.day * 86400 + t.secs + s) / 86400, h⟩
        secs := ((t.date.day * 86400 + t.secs + s) % 86400).toNat
        nanos := t.nanos
        secs_lt := by omega
        nanos_lt := t.nanos_lt }
  else none

end Instant

structure FixedOffset where
  seconds : Int
  inDay : -86400 < seconds ∧ seconds < 86400

inductive LocalResult (α : Type) where
  | single (x : α)
  | ambiguous (first second : α)
  | none

/-- What the database of zones holds of one: its offset at an instant, and the offsets that a local
time may have. -/
structure Tz where
  offsetFromUtc : Instant → FixedOffset
  offsetFromLocal : Instant → LocalResult FixedOffset

namespace Tz

variable (tz : Tz)

/-- `with_timezone(..).date_naive()`. -/
def localDate (t : Instant) : Option NaiveDate :=
  match t.plus (tz.offsetFromUtc t).seconds with
  | some wall => some wall.date
  | none => none

def fromLocalDatetime (wall : Instant) : LocalResult Instant :=
  match tz.offsetFromLocal wall with
  | .single offset =>
      match wall.plus (-offset.seconds) with
      | some t => .single t
      | none => .none
  | .ambiguous offset offset' =>
      match wall.plus (-offset.seconds), wall.plus (-offset'.seconds) with
      | some first, some second => .ambiguous first second
      | _, _ => .none
  | .none => .none

def gapSearch (wall : Instant) : Nat → Nat → Option (Option Instant)
  | 0, _ => some none
  | fuel + 1, step =>
      match wall.plus (step * 60) with
      | none => none
      | some candidate =>
          match tz.fromLocalDatetime candidate with
          | .single t => some (some t)
          | .ambiguous first _ => some (some first)
          | .none => gapSearch wall fuel (step + 1)

def gapEnd (wall : Instant) : Option (Option Instant) := tz.gapSearch wall gapSearchMinutes 1

end Tz

inductive Zone where
  | utc
  | named (tz : Tz)

inductive Adjustment where
  | nonexistentLocalTimeShifted
  | repeatedLocalTimeFirst
  | repeatedLocalTimeSecond
  deriving DecidableEq, Repr

def Adjustment.rank : Option Adjustment → Nat
  | none => 0
  | some .repeatedLocalTimeFirst => 1
  | some .repeatedLocalTimeSecond => 1
  | some .nonexistentLocalTimeShifted => 2

def markerSupersedes (candidate held : Option Adjustment) : Bool :=
  Adjustment.rank candidate < Adjustment.rank held

@[ext]
structure Fire where
  instant : Instant
  adjustment : Option Adjustment
  deriving DecidableEq

abbrev Found := ExtTreeMap Instant (Option Adjustment) compare

def record (found : Found) (t : Instant) (adjustment : Option Adjustment) : Found :=
  match found[t]? with
  | none => found.insert t adjustment
  | some held => if markerSupersedes adjustment held then found.insert t adjustment else found

def Found.fires (found : Found) : List Fire := found.toList.map fun entry => ⟨entry.1, entry.2⟩

namespace Cron

variable (c : Cron)

def matchesDate (date : NaiveDate) : Bool := c.dayMatches date
def matchesMinuteOfDay (minutes : Nat) : Bool := c.timeMatches minutes

def recordMinute (tz : Tz) (date : NaiveDate) (found : Found) (minutes : Nat) : Option Found :=
  if !c.matchesMinuteOfDay minutes then some found
  else
    match at' date minutes with
    | none => some found
    | some wall =>
        match tz.fromLocalDatetime wall with
        | .single t => some (record found t none)
        | .ambiguous first second =>
            some (record (record found first (some .repeatedLocalTimeFirst)) second
              (some .repeatedLocalTimeSecond))
        | .none =>
            match tz.gapEnd wall with
            | none => none
            | some none => some found
            | some (some t) => some (record found t (some .nonexistentLocalTimeShifted))

def recordMinutes (tz : Tz) (date : NaiveDate) : List Nat → Found → Option Found
  | [], found => some found
  | minutes :: rest, found =>
      match c.recordMinute tz date found minutes with
      | none => none
      | some found => recordMinutes tz date rest found

def firesOnLocalDate (tz : Tz) (date : NaiveDate) : Option (List Fire) :=
  if !c.matchesDate date then some []
  else (c.recordMinutes tz date (List.range (24 * 60)) ∅).map Found.fires

end Cron

structure Walk where
  fires : List Fire
  horizonReached : Bool

def horizonDate (start : NaiveDate) : NaiveDate :=
  (NaiveDate.ofDay (start.day + walkDays)).getD ⟨maxDay, by decide⟩

def earliestPossibleUtc (date : NaiveDate) : Option Instant :=
  match at' date 0 with
  | some midnight => midnight.plus (-(maxOffsetHours * 3600))
  | none => none

def recordAfter (after : Instant) (fires : List Fire) (found : Found) : Found :=
  fires.foldl (fun found fire =>
    if after < fire.instant then record found fire.instant fire.adjustment else found) found

structure Cadence where
  cron : Cron
  zone : Zone

def Cron.walkUtc (c : Cron) (horizon : NaiveDate) (until_ : Option Instant) : Nat → Instant → Walk
  | 0, _ => ⟨[], false⟩
  | count + 1, cursor =>
      match c.nextFireAfter cursor with
      | none => ⟨[], false⟩
      | some t =>
          if horizon.day < t.date.day then ⟨[], true⟩
          else if until_.any (· ≤ t) then ⟨[⟨t, none⟩], false⟩
          else
            let rest := c.walkUtc horizon until_ count t
            ⟨⟨t, none⟩ :: rest.fires, rest.horizonReached⟩

def holdsEnough (found : Found) (count : Nat) (date : NaiveDate) : Option Bool :=
  match found.toList[count - 1]? with
  | none => some false
  | some (nth, _) => (earliestPossibleUtc date).map fun earliest => nth < earliest

def isPast (until_ : Option Instant) (date : NaiveDate) : Option Bool :=
  match until_ with
  | none => some false
  | some u => (earliestPossibleUtc date).map fun earliest => u ≤ earliest

/-- The walk of the local dates, as the firings it found and whether the horizon ended it. -/
def Cron.walkDates (c : Cron) (tz : Tz) (after : Instant) (count : Nat) (until_ : Option Instant)
    (horizon : NaiveDate) : Nat → NaiveDate → Found → Option (Found × Bool)
  | 0, _, found => some (found, false)
  | steps + 1, date, found =>
      if horizon.day < date.day then some (found, true)
      else
        match holdsEnough found count date with
        | none => none
        | some true => some (found, false)
        | some false =>
            match isPast until_ date with
            | none => none
            | some true => some (found, false)
            | some false =>
                match c.firesOnLocalDate tz date with
                | none => none
                | some fires =>
                    match date.succOpt with
                    | none => some (recordAfter after fires found, false)
                    | some next =>
                        c.walkDates tz after count until_ horizon steps next
                          (recordAfter after fires found)

def firstDate (start : NaiveDate) : Option NaiveDate := NaiveDate.ofDay (start.day - edgeDays)

structure SkippedSlots where
  count : Nat
  capped : Bool
  horizonReached : Bool
  deriving DecidableEq, Repr

def tally (before : Instant) (cap : Nat) (horizonReached : Bool) : List Fire → Nat → SkippedSlots
  | [], count => ⟨count, false, horizonReached⟩
  | fire :: fires, count =>
      if before ≤ fire.instant then ⟨count, false, false⟩
      else if count = cap then ⟨count, true, false⟩
      else tally before cap horizonReached fires (count + 1)

namespace Cadence

variable (c : Cadence)

def firesAfterBounded (after : Instant) (count : Nat) (until_ : Option Instant) : Option Walk :=
  if count = 0 then some ⟨[], false⟩
  else
    match c.zone with
    | .utc => some (c.cron.walkUtc (horizonDate after.date) until_ count after)
    | .named tz =>
        match tz.localDate after with
        | none => none
        | some start =>
            match firstDate start with
            | none => none
            | some first =>
                (c.cron.walkDates tz after count until_ (horizonDate start) maxDateSteps first ∅).map
                  fun walk => ⟨walk.1.fires.take count, walk.2⟩

def skippedSlots (after before : Instant) (cap : Nat) : Option SkippedSlots :=
  match c.firesAfterBounded after (min (cap + 1) usizeMax) (some before) with
  | none => none
  | some walk => some (tally before cap walk.horizonReached walk.fires 0)

end Cadence

end Logweir.Cadence
