import Mathlib.Algebra.Group.Int.Defs
import Mathlib.Algebra.Group.Nat.Defs
import Std.Data.ExtTreeMap
import Std.Data.ExtTreeSet

/-!
# Consumer position translation: the rule

`logweir_core::positions_mapping`, the prober and `classify_entry`.  For a
captured position the prober finds the first restored record at or above it; the
rule then counts the archived records the selection excluded between the two and
refuses the position when a recorded gap meets that interval.
-/

set_option autoImplicit false

namespace Logweir.PositionsMapping

open Std (ExtTreeMap ExtTreeSet)

def i64Max : Int := 2 ^ 63 - 1

structure PartitionFacts where
  partition : Nat
  logStart : Option Int
  highWatermark : Option Int
deriving DecidableEq, Repr

structure PositionEntry where
  topic : String
  partition : Nat
  status : String
  position : Option Int
  reason : Option String
  coverage : Option String
deriving DecidableEq, Repr

structure MappingEntry where
  topic : String
  partition : Nat
  position : Option Int
  targetTopic : Option String
  class_ : String
  targetOffset : Option Int
  skipped : Option Nat
  reason : Option String
deriving DecidableEq, Repr

def exact : String := "exact"
def approximate : String := "approximate"
def unavailable : String := "unavailable"
def selectionExcluded : String := "selectionExcluded"
def transactionalArchive : String := "TransactionalArchive"
def archiveGap : String := "ArchiveGap"
def partitionNotRestored : String := "PartitionNotRestored"
def noArchivedData : String := "NoArchivedData"
def beforeLogStart : String := "BeforeLogStart"
def beforeArchive : String := "BeforeArchive"
def beyondArchive : String := "BeyondArchive"
def positionBeyondEnd : String := "PositionBeyondEnd"
def notCaptured : String := "NotCaptured"

inductive Found where
  | record (targetOffset lineage : Int)
  | «end»
deriving DecidableEq, Repr

/-- Fed the target's records in order, it resolves each pending position at the
first record whose lineage is at or above it. -/
structure Prober where
  pending : List Int
  next : Nat
  found : ExtTreeMap Int Found

def Prober.new (positions : List Int) : Prober :=
  { pending := (ExtTreeSet.ofList positions).toList, next := 0, found := ∅ }

def Prober.observe (p : Prober) (targetOffset lineage : Int) : Prober :=
  let ready := (p.pending.drop p.next).takeWhile fun q => decide (q ≤ lineage)
  { p with
    found := ready.foldl (fun found q => found.insert q (.record targetOffset lineage)) p.found
    next := p.next + ready.length }

def Prober.finish (p : Prober) : ExtTreeMap Int Found :=
  (p.pending.drop p.next).foldl (fun found q => found.insert q .end) p.found

structure PartitionScan where
  targetTopic : String
  highWatermark : Int
  found : ExtTreeMap Int Found
  /-- The archived source offsets the selection excluded, sorted. -/
  excluded : List Int
  /-- The manifest's gaps and pruned ranges, inclusive. -/
  gaps : List (Int × Int)

/-- How many of the sorted `offsets` lie in `[lo, hi)`; the partition point of a
sorted slice is the length of its prefix. -/
def countIn (offsets : List Int) (lo hi : Int) : Nat :=
  if hi ≤ lo then 0
  else
    let a := (offsets.takeWhile fun o => decide (o < lo)).length
    let b := (offsets.takeWhile fun o => decide (o < hi)).length
    b - a

def overlaps (ranges : List (Int × Int)) (lo hi : Int) : Bool :=
  ranges.any fun (a, b) => decide (a < hi) && decide (lo ≤ b)

def MappingEntry.refused (e : MappingEntry) (reason : String) : MappingEntry :=
  { e with class_ := unavailable, targetOffset := none, skipped := none, reason := some reason }

def coverageReason (word : String) : String :=
  if word = "noArchivedData" then noArchivedData
  else if word = "beforeLogStart" then beforeLogStart
  else if word = "beforeArchive" then beforeArchive
  else if word = "beyondArchive" then beyondArchive
  else s!"{notCaptured}: {word}"

def baseEntry (entry : PositionEntry) (targetTopic : Option String) : MappingEntry :=
  { topic := entry.topic, partition := entry.partition, position := entry.position, targetTopic
    class_ := unavailable, targetOffset := none, skipped := none, reason := none }

/-- A position of a related coverage word, over the prober's answer. -/
def mapFound (base : MappingEntry) (scan : PartitionScan) (p : Int) (found : Found) :
    MappingEntry :=
  let (upper, targetOffset) := match found with
    | .record targetOffset lineage => (lineage, targetOffset)
    | .end => (i64Max, scan.highWatermark)
  if overlaps scan.gaps p upper then base.refused archiveGap
  else
    let skipped := countIn scan.excluded p upper
    if skipped = 0 then { base with targetOffset := some targetOffset, class_ := exact }
    else
      { base with
        targetOffset := some targetOffset
        class_ := approximate
        skipped := some skipped
        reason := some selectionExcluded }

/-- The rule for one position entry of a captured group. -/
def classifyEntry (entry : PositionEntry) (facts : Option PartitionFacts)
    (targetTopic : Option String) (scan : Option PartitionScan) (transactional : Bool) :
    MappingEntry :=
  let base := baseEntry entry targetTopic
  -- A restored marker or aborted record could sit under any position.
  if transactional then base.refused transactionalArchive
  else if entry.status = "excluded" then
    base.refused (entry.reason.getD positionBeyondEnd)
  else if entry.status ≠ "captured" then
    let why := entry.reason.getD entry.status
    base.refused s!"{notCaptured}: {why}"
  else
    match entry.position with
    | none => base.refused s!"{notCaptured}: NotAPosition"
    | some p =>
        match targetTopic, scan with
        | some _, some scan =>
            let coverage := entry.coverage.getD ""
            if coverage = "withinArchive" ∨ coverage = "atArchiveEnd" then
              match scan.found[p]? with
              | none => base.refused partitionNotRestored
              | some found => mapFound base scan p found
            else if coverage = "noArchivedData" ∧
                (facts.any fun f => f.logStart == some p && f.highWatermark == some p) = true ∧
                scan.highWatermark = 0 then
              { base with class_ := exact, targetOffset := some 0 }
            else base.refused (coverageReason coverage)
        | _, _ => base.refused partitionNotRestored

end Logweir.PositionsMapping
