import Logweir.Library.CivilDays
import Logweir.Library.Fields
import Logweir.Library.Loops

/-!
# Cron expressions

`weirkeeper::slot`: how a five-field expression is read, the days and minutes it names, and the
walks that look for the last instant up to another one, and the first behind it, at which it fires.
-/

set_option autoImplicit false

namespace Logweir.Cadence

open Logweir.Text
open Logweir.CivilDays
open Logweir.Searches

/-- `WALK_DAYS`. -/
def walkDays : Nat := 3700

structure Cron where
  minute : Nat
  hour : Nat
  dayOfMonth : Nat
  month : Nat
  dayOfWeek : Nat
  domRestricted : Bool
  dowRestricted : Bool
  deriving DecidableEq, Repr

inductive FieldProblem where
  | unrecognised
  | outOfRange (value min max : Nat)
  | zeroStep
  | descendingRange (first last : Nat)
  deriving DecidableEq, Repr

inductive CronError where
  | fieldCount (got : Nat)
  | field (index : Nat) (name term : String) (problem : FieldProblem)
  | unknownAtForm (got : String)
  deriving DecidableEq, Repr

structure FieldRow where
  index : Nat
  name : String
  min : Nat
  max : Nat

def minuteField : FieldRow := ⟨1, "minute", 0, 59⟩
def hourField : FieldRow := ⟨2, "hour", 0, 23⟩
def dayOfMonthField : FieldRow := ⟨3, "day-of-month", 1, 31⟩
def monthField : FieldRow := ⟨4, "month", 1, 12⟩
def dayOfWeekField : FieldRow := ⟨5, "day-of-week", 0, 6⟩

/-- `AT_FORMS`. -/
def atForms : List (String × String) :=
  [("@hourly", "0 * * * *"), ("@daily", "0 0 * * *"), ("@weekly", "0 0 * * 0")]

def checkRange (value min max : Nat) : Except FieldProblem Unit :=
  if value < min ∨ max < value then .error (.outOfRange value min max) else .ok ()

def setBits (first count : Nat) : Nat :=
  (List.range' first count).foldl (fun bits v => bits ||| 1 <<< v) 0

def mask (min max : Nat) : Nat := setBits min (max + 1 - min)

def stepBits (n max : Nat) : Nat → Nat → Nat → Nat
  | 0, _, bits => bits
  | fuel + 1, v, bits =>
      if v ≤ max then stepBits n max fuel ((v + n) % 2 ^ 64) (bits ||| 1 <<< v) else bits

def parseTerm (term : String) (min max : Nat) : Except FieldProblem Nat :=
  if '+' ∈ term.toList then .error .unrecognised
  else if term = "*" then .ok (mask min max)
  else
    match stripPrefix "*/" term with
    | some step =>
        match parseUnsigned 64 step with
        | none => .error .unrecognised
        | some n => if n = 0 then .error .zeroStep else .ok (stepBits n max (max + 2) min 0)
    | none =>
        match splitOnce '-' term with
        | some (first, last) =>
            match parseUnsigned 64 first, parseUnsigned 64 last with
            | some first, some last => do
                checkRange first min max
                checkRange last min max
                if last < first then .error (.descendingRange first last)
                else .ok (setBits first (last + 1 - first))
            | _, _ => .error .unrecognised
        | none =>
            match parseUnsigned 64 term with
            | none => .error .unrecognised
            | some value => do
                checkRange value min max
                .ok (1 <<< value)

def parseTerms (row : FieldRow) : List String → Nat → Except CronError Nat
  | [], bits => .ok bits
  | term :: terms, bits =>
      match parseTerm term row.min row.max with
      | .error problem => .error (.field row.index row.name term problem)
      | .ok more => parseTerms row terms (bits ||| more)

def starred (field : String) : Bool := startsWith field "*"

def parseField (row : FieldRow) (field : String) : Except CronError (Nat × Bool) := do
  let bits ← parseTerms row (split ',' field) 0
  .ok (bits, !starred field)

/-- `str::split_whitespace`. -/
def splitWhitespace (s : String) : List String :=
  ((s.toList.splitOnP isWhitespace).filter (· ≠ [])).map String.ofList

def expand (expr : String) : Except CronError String :=
  let trimmed := trim expr
  if startsWith trimmed "@" then
    match atForms.find? (·.1 = trimmed) with
    | some (_, expansion) => .ok expansion
    | none => .error (.unknownAtForm trimmed)
  else .ok trimmed

def Cron.parse (expr : String) : Except CronError Cron := do
  let expanded ← expand expr
  match splitWhitespace expanded with
  | [minute, hour, dayOfMonth, month, dayOfWeek] => do
      let (minute, _) ← parseField minuteField minute
      let (hour, _) ← parseField hourField hour
      let (dayOfMonth, domRestricted) ← parseField dayOfMonthField dayOfMonth
      let (month, _) ← parseField monthField month
      let (dayOfWeek, dowRestricted) ← parseField dayOfWeekField dayOfWeek
      .ok { minute, hour, dayOfMonth, month, dayOfWeek, domRestricted, dowRestricted }
  | fields => .error (.fieldCount fields.length)

def minDay : Int := -96465292
def maxDay : Int := 95026236

example : civil minDay = ⟨-262143, 1, 1⟩ ∧ civil maxDay = ⟨262142, 12, 31⟩ := by decide

structure NaiveDate where
  day : Int
  exists_ : minDay ≤ day ∧ day ≤ maxDay
  deriving DecidableEq

def NaiveDate.ofDay (d : Int) : Option NaiveDate :=
  if h : minDay ≤ d ∧ d ≤ maxDay then some ⟨d, h⟩ else none

def NaiveDate.predOpt (d : NaiveDate) : Option NaiveDate := ofDay (d.day - 1)
def NaiveDate.succOpt (d : NaiveDate) : Option NaiveDate := ofDay (d.day + 1)

structure Instant where
  date : NaiveDate
  secs : Nat
  nanos : Nat
  secs_lt : secs < 86400
  nanos_lt : nanos < 2000000000
  deriving DecidableEq

namespace Instant

def hour (t : Instant) : Nat := t.secs / 3600
def minute (t : Instant) : Nat := t.secs / 60 % 60

def rank (t : Instant) : Int := (t.date.day * 86400 + t.secs) * 2000000000 + t.nanos

instance : LE Instant := ⟨fun s t => s.rank ≤ t.rank⟩
instance : LT Instant := ⟨fun s t => s.rank < t.rank⟩

end Instant

/-- `at`. -/
def at' (date : NaiveDate) (minutes : Nat) : Option Instant :=
  if small : minutes / 60 < 24 then
    some ⟨date, minutes / 60 * 3600 + minutes % 60 * 60, 0, by omega, by omega⟩
  else none

def bit (set n : Nat) : Bool := decide (n < 64) && set.testBit n

namespace Cron

variable (c : Cron)

def timeMatches (minutes : Nat) : Bool := bit c.hour (minutes / 60) && bit c.minute (minutes % 60)

def dayMatches (date : NaiveDate) : Bool :=
  if !bit c.month (CivilDays.month date.day) then false
  else
    let dom := bit c.dayOfMonth (CivilDays.dayOfMonth date.day)
    let dow := bit c.dayOfWeek (weekday date.day)
    if c.domRestricted && c.dowRestricted then dom || dow else dom && dow

def walkBack : Nat → NaiveDate → Nat → Option Instant
  | 0, _, _ => none
  | days + 1, date, cap =>
      match if c.dayMatches date then lastUpTo c.timeMatches cap else none with
      | some m => at' date m
      | none =>
          match date.predOpt with
          | some before => walkBack days before (23 * 60 + 59)
          | none => none

def lastFireAtOrBefore (t : Instant) : Option Instant :=
  c.walkBack walkDays t.date (t.hour * 60 + t.minute)

/-- One date of the walk on: a floor past 23:59 is the next date's midnight; then the first minute
from the floor, else the day behind. -/
def walkOn : Nat → NaiveDate → Nat → Option Instant
  | 0, _, _ => none
  | days + 1, date, floor =>
      match if floor > 23 * 60 + 59 then date.succOpt.map fun next => (next, 0)
        else some (date, floor) with
      | none => none
      | some (date, floor) =>
          match if c.dayMatches date then firstFrom c.timeMatches (24 * 60 - floor) floor
            else none with
          | some m => at' date m
          | none =>
              match date.succOpt with
              | some behind => walkOn days behind 0
              | none => none

def nextFireAfter (t : Instant) : Option Instant :=
  c.walkOn walkDays t.date (t.hour * 60 + t.minute + 1)

end Cron

end Logweir.Cadence
