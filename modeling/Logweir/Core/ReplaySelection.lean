import Std.Data.ExtTreeMap
import Std.Data.ExtTreeSet

/-!
# Archive facts

The part of `logweir_core::engine` every later module reads: what an archive's
manifest says about its topics, partitions and segments.  Offsets, timestamps
and counts are `Int` for `i64`; nothing below adds two of them up to the wrap.
-/

set_option autoImplicit false

namespace Logweir.Engine

open Std (ExtTreeMap ExtTreeSet)

/-- One archived segment as the manifest lists it.  `startTimestamp` and
`endTimestamp` are its FIRST and LAST record timestamps, not its minimum and
maximum. -/
structure SegmentFacts where
  key : String
  startOffset : Int
  endOffset : Int
  startTimestamp : Int
  endTimestamp : Int
  recordCount : Int
  sha256 : String
deriving DecidableEq, Repr

structure PartitionFacts where
  partitionId : Int
  segments : List SegmentFacts
  /-- Ranges the backup could not capture. -/
  gaps : List (Int × Int)
  /-- Ranges deliberately removed by retention. -/
  pruned : List (Int × Int)
deriving DecidableEq, Repr

structure TopicFacts where
  name : String
  partitions : List PartitionFacts
deriving DecidableEq, Repr

structure BackupSetFacts where
  topics : List TopicFacts
deriving DecidableEq, Repr

/-- Guard G-WIN's floor: the minimum first-record timestamp over every segment
of every named topic. -/
def BackupSetFacts.earliestCoveredTimestampMs (facts : BackupSetFacts)
    (namedTopics : ExtTreeSet String) : Option Int :=
  (((facts.topics.filter fun t => namedTopics.contains t.name).flatMap
    fun t => t.partitions).flatMap fun p => p.segments).map
      (fun seg => seg.startTimestamp) |>.min?

theorem earliestCovered_le (facts : BackupSetFacts) (namedTopics : ExtTreeSet String)
    (floor : Int) (found : facts.earliestCoveredTimestampMs namedTopics = some floor)
    (t : TopicFacts) (ht : t ∈ facts.topics) (named : namedTopics.contains t.name = true)
    (p : PartitionFacts) (hp : p ∈ t.partitions) (seg : SegmentFacts) (hseg : seg ∈ p.segments) :
    floor ≤ seg.startTimestamp := by
  have least := (List.min?_eq_some_iff.mp found).2
  apply least
  simp only [List.mem_map, List.mem_flatMap, List.mem_filter]
  exact ⟨seg, ⟨p, ⟨t, ⟨ht, named⟩, hp⟩, hseg⟩, rfl⟩

end Logweir.Engine

/-!
## Replay selection

`logweir_core::replay_selection`: the one function a restore's preview and its
execution select records by.  A plan narrows a restore by an inclusive window
start and by per-topic partition subsets; absent both, the selection is every
partition of every selected topic, from the archive's floor to the window's end.
-/

namespace Logweir.ReplaySelection

open Std (ExtTreeMap ExtTreeSet)
open Logweir.Engine

inductive WindowFloorSource where
  | archiveManifest
  | inheritedFromSpec
deriving DecidableEq, Repr

structure ReplaySelection where
  topics : ExtTreeSet String
  /-- The stated inclusive start; `none` is the archive's floor. -/
  windowStartMs : Option Int
  windowEndMs : Int
  /-- A selected topic not named here selects every partition listed for it. -/
  partitions : ExtTreeMap String (ExtTreeSet Int)

inductive SelectionRefusal where
  | noCoverage (topics : List String)
  | startBeforeCoverage (startMs floorMs : Int)
  | partitionNotInArchive (topic : String) (partition : Int)
  | emptySelection (startMs endMs : Int)
deriving DecidableEq, Repr

structure SelectedPartition where
  topic : String
  partition : Int
  segmentKeys : List String
  recordsLower : Nat
  recordsUpper : Nat
deriving DecidableEq, Repr

structure EngineRunSelection where
  /-- `none` renders no filter: every partition. -/
  sourcePartitions : Option (List Int)
  topics : List String
deriving DecidableEq, Repr

structure ResolvedSelection where
  floorMs : Int
  startMs : Int
  startSource : WindowFloorSource
  endMs : Int
  partitions : List SelectedPartition
  runs : List EngineRunSelection

/-- Whether `topic`'s `partition` is selected.  A topic the plan does not select
is never selected, whatever its partitions. -/
def ReplaySelection.selectsPartition (sel : ReplaySelection) (topic : String)
    (partition : Int) : Bool :=
  sel.topics.contains topic &&
    match sel.partitions[topic]? with
    | none => true
    | some set => set.contains partition

/-- The record predicate over a window given as values: both ends inclusive, and
no lower bound without a stated start. -/
def windowSelects (startMs : Option Int) (endMs ts : Int) : Bool :=
  decide (ts ≤ endMs) &&
    match startMs with
    | none => true
    | some s => decide (s ≤ ts)

def ReplaySelection.selectsTimestamp (sel : ReplaySelection) (ts : Int) : Bool :=
  windowSelects sel.windowStartMs sel.windowEndMs ts

def segmentOverlaps (startMs endMs firstTs lastTs : Int) : Bool :=
  decide (firstTs ≤ endMs) && decide (startMs ≤ lastTs)

/-- The engine runs a selection needs over `topics`: the unfiltered run first,
then one per distinct subset in ascending order. -/
def engineRuns (partitions : ExtTreeMap String (ExtTreeSet Int)) (topics : List String) :
    List EngineRunSelection :=
  let byFilter : ExtTreeMap (Option (List Int)) (List String) :=
    topics.foldl (fun acc topic =>
      let filter := (partitions[topic]?).map fun set => set.toList
      acc.insert filter ((acc[filter]?).getD [] ++ [topic])) ∅
  byFilter.toList.map fun (sourcePartitions, named) =>
    { sourcePartitions, topics := (ExtTreeSet.ofList named).toList }

def selectedPartition (topic : String) (startMs endMs : Int) (p : PartitionFacts) :
    SelectedPartition :=
  p.segments.foldl (fun sp seg =>
    if segmentOverlaps startMs endMs seg.startTimestamp seg.endTimestamp then
      let n := seg.recordCount.toNat
      { sp with
        segmentKeys := sp.segmentKeys ++ [seg.key]
        recordsLower :=
          if startMs ≤ seg.startTimestamp ∧ seg.endTimestamp ≤ endMs
          then sp.recordsLower + n else sp.recordsLower
        recordsUpper := sp.recordsUpper + n }
    else sp)
    { topic, partition := p.partitionId, segmentKeys := [], recordsLower := 0, recordsUpper := 0 }

def partitionNotInArchive (named : List TopicFacts) :
    List (String × ExtTreeSet Int) → Option (String × Int)
  | [] => none
  | (topic, set) :: rest =>
      let listed := (named.filter fun t => t.name == topic).flatMap
        fun t => t.partitions.map fun p => p.partitionId
      match set.toList.find? fun p => !listed.contains p with
      | some p => some (topic, p)
      | none => partitionNotInArchive named rest

def partitionLe (a b : SelectedPartition) : Bool :=
  (compare a.topic b.topic).then (compare a.partition b.partition) != Ordering.gt

/-- Resolves the selection against the archive's topics. -/
def ReplaySelection.resolve (sel : ReplaySelection) (topics : List TopicFacts) :
    Except SelectionRefusal ResolvedSelection :=
  let named := topics.filter fun t => sel.topics.contains t.name
  match BackupSetFacts.earliestCoveredTimestampMs ⟨topics⟩ sel.topics with
  | none => .error (.noCoverage sel.topics.toList)
  | some floorMs => do
    let (startMs, startSource) ← match sel.windowStartMs with
      | some s =>
          if s < floorMs then .error (.startBeforeCoverage s floorMs)
          else .ok (s, WindowFloorSource.inheritedFromSpec)
      | none => .ok (floorMs, WindowFloorSource.archiveManifest)
    match partitionNotInArchive named sel.partitions.toList with
    | some (topic, p) => .error (.partitionNotInArchive topic p)
    | none =>
      let endMs := sel.windowEndMs
      let partitions := named.flatMap fun t =>
        (t.partitions.filter fun p => sel.selectsPartition t.name p.partitionId).map
          (selectedPartition t.name startMs endMs)
      let partitions := partitions.mergeSort partitionLe
      if partitions.all fun p => p.segmentKeys.isEmpty then
        .error (.emptySelection startMs endMs)
      else
        .ok { floorMs, startMs, startSource, endMs, partitions
              runs := engineRuns sel.partitions (named.map fun t => t.name) }

theorem windowSelects_iff (startMs : Option Int) (endMs ts : Int) :
    windowSelects startMs endMs ts = true ↔ ts ≤ endMs ∧ ∀ s, startMs = some s → s ≤ ts := by
  cases startMs <;> simp [windowSelects]

theorem segmentOverlaps_iff (startMs endMs firstTs lastTs : Int) :
    segmentOverlaps startMs endMs firstTs lastTs = true ↔ firstTs ≤ endMs ∧ startMs ≤ lastTs := by
  simp [segmentOverlaps]

theorem selectsPartition_topic (sel : ReplaySelection) (topic : String) (partition : Int)
    (selected : sel.selectsPartition topic partition = true) :
    sel.topics.contains topic = true := by
  simp only [ReplaySelection.selectsPartition, Bool.and_eq_true] at selected
  exact selected.1

end Logweir.ReplaySelection
