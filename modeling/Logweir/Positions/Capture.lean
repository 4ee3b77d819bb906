import Logweir.Library.TreeMaps
import Logweir.Positions.Document
import Mathlib.Data.List.Induction

/-!
# Consumer position evidence

`logweir_core::consumer_positions` and `logweir::backup::consumer_positions`: what a backup records of
the consumer groups it selects, in the receipt's block and in the positions document the block binds.
`build` is a function of its capture.
-/

set_option autoImplicit false
set_option linter.dupNamespace false

namespace Logweir.ConsumerPositions

open Std (ExtTreeMap)
open Logweir Logweir.Json Logweir.Text Logweir.Fingerprint
open Logweir.PositionsMapping (DocumentRef optional sha256Prefixed u32Max i64Max)

structure PartitionFacts where
  partition : Nat
  observed : Bool
  logStart : Option Int
  highWatermark : Option Int
  logStartAfter : Option Int
  highWatermarkAfter : Option Int
  archivedFirst : Option Int
  archivedLast : Option Int
deriving DecidableEq, Repr

structure TopicPartitions where
  partitions : List PartitionFacts
  changedDuringCapture : Bool
deriving DecidableEq, Repr

structure PositionEntry where
  topic : String
  partition : Nat
  status : String
  position : Option Int
  reason : Option String
  coverage : Option String
deriving DecidableEq, Repr

structure GroupPositions where
  positions : List PositionEntry
  noCommittedPosition : Nat
deriving DecidableEq, Repr

structure PositionsDocument where
  formatVersion : String
  backupId : String
  runId : String
  topics : ExtTreeMap String TopicPartitions
  groups : ExtTreeMap String GroupPositions

structure PositionCounts where
  related : Nat := 0
  notRelated : Nat := 0
  neverCommitted : Nat := 0
  beyondEnd : Nat := 0
  failed : Nat := 0
  notObserved : Nat := 0
deriving DecidableEq, Repr

structure GroupSnapshot where
  outcome : String
  reason : Option String
  groupType : Option String
  state : Option String
  listedState : Option String
  members : Option Nat
  active : Option Bool
  counts : Option PositionCounts
deriving DecidableEq, Repr

structure ConsumerPositions where
  observedFrom : Int
  observedTo : Int
  listing : String
  document : DocumentRef
  groups : ExtTreeMap String GroupSnapshot

def GROUP_VANISHED : String := "GroupVanishedDuringCapture"
def GENERATION_CHANGED : String := "GenerationChangedDuringCapture"
def PARTITIONS_NOT_READ : String := "PartitionsNotRead"
def GROUP_TYPE_NOT_CAPTURED : String := "GroupTypeNotCaptured"
def OTHER_TYPE : String := "other"
def INACTIVE_STATES : List String := ["Empty", "Dead"]
def DEAD_STATE : String := "Dead"
def POSITION_BEYOND_END : String := "PositionBeyondEnd"
def MARKS_NOT_READ : String := "MarksNotRead"
def RELATED : List String := ["withinArchive", "atArchiveEnd"]
def DOCUMENT_FORMAT_VERSION : String := "1.0.0"

inductive Relation where
  | marksNotRead
  | beyondEnd
  | coverage (word : String)
deriving DecidableEq, Repr

/-- `i64::saturating_add(1)`. -/
def saturatingSucc (n : Int) : Int := if n + 1 ≤ i64Max then n + 1 else i64Max

def relation (position : Int) (facts : PartitionFacts) : Relation :=
  match facts.logStart, facts.highWatermark with
  | some logStart, some high =>
    if position > high then .beyondEnd
    else if position < logStart then .coverage "beforeLogStart"
    else
      match facts.archivedFirst, facts.archivedLast with
      | some first, some last =>
        if position < first then .coverage "beforeArchive"
        else if position ≤ last then .coverage "withinArchive"
        else if position = saturatingSucc last then .coverage "atArchiveEnd"
        else .coverage "beyondArchive"
      | _, _ => .coverage "noArchivedData"
  | _, _ => .marksNotRead

theorem saturatingSucc_le (n : Int) : saturatingSucc n ≤ n + 1 ∨ saturatingSucc n ≤ n := by
  unfold saturatingSucc
  split
  · exact .inl (Int.le_refl _)
  · exact .inr (by omega)

theorem bounds_of_relation {position : Int} {facts : PartitionFacts} {word : String}
    (said : relation position facts = .coverage word) (related : word ∈ RELATED) :
    ∃ logStart high first last, facts.logStart = some logStart ∧
      facts.highWatermark = some high ∧ facts.archivedFirst = some first ∧
      facts.archivedLast = some last ∧ logStart ≤ position ∧ position ≤ high ∧
      first ≤ position ∧ position ≤ last + 1 := by
  unfold relation at said
  split at said
  next logStart high startRead highRead =>
    split_ifs at said with above below
    · cases said
      exact absurd related (by decide)
    · split at said
      next first last firstRead lastRead =>
        refine ⟨logStart, high, first, last, startRead, highRead, firstRead, lastRead,
          Int.not_lt.mp below, Int.not_lt.mp above, ?_⟩
        split_ifs at said with early within atEnd
        · cases said
          exact absurd related (by decide)
        · exact ⟨Int.not_lt.mp early, by omega⟩
        · have step := saturatingSucc_le last
          exact ⟨Int.not_lt.mp early, by omega⟩
        · cases said
          exact absurd related (by decide)
      next =>
        cases said
        exact absurd related (by decide)
  next => cases said

def regressed (before after : Option Int) : Bool :=
  match before, after with
  | some b, some a => a < b
  | _, _ => false

def changedDuringCapture (partitions : List PartitionFacts) : Bool :=
  partitions.any fun p =>
    regressed p.logStart p.logStartAfter || regressed p.highWatermark p.highWatermarkAfter

def active (state listedState : String) : Bool :=
  !INACTIVE_STATES.contains state || !INACTIVE_STATES.contains listedState

def vanished (state : String) (members : Nat) : Bool := state == DEAD_STATE && members == 0

/-- `u32::saturating_add(1)`. -/
def bump (n : Nat) : Nat := if n + 1 ≤ u32Max then n + 1 else u32Max

def PositionEntry.isRelated (e : PositionEntry) : Bool := e.coverage.any RELATED.contains

def PositionCounts.count (c : PositionCounts) (e : PositionEntry) : PositionCounts :=
  if e.status = "captured" then
    if e.isRelated then { c with related := bump c.related }
    else { c with notRelated := bump c.notRelated }
  else if e.status = "excluded" then { c with beyondEnd := bump c.beyondEnd }
  else if e.status = "failed" then { c with failed := bump c.failed }
  else { c with notObserved := bump c.notObserved }

def PositionCounts.of (group : GroupPositions) : PositionCounts :=
  group.positions.foldl PositionCounts.count { neverCommitted := group.noCommittedPosition }

theorem bump_min (n : Nat) : bump (min n u32Max) = min (n + 1) u32Max := by
  unfold bump
  split <;> omega

inductive Slot where
  | related
  | notRelated
  | beyondEnd
  | failed
  | notObserved
deriving DecidableEq, Repr

def PositionEntry.slot (e : PositionEntry) : Slot :=
  if e.status = "captured" then
    if e.isRelated then .related else .notRelated
  else if e.status = "excluded" then .beyondEnd
  else if e.status = "failed" then .failed
  else .notObserved

def tally (slot : Slot) (entries : List PositionEntry) : Nat :=
  min (entries.countP fun e => e.slot = slot) u32Max

theorem PositionCounts.count_eq (c : PositionCounts) (e : PositionEntry) : c.count e =
    { related := if e.slot = .related then bump c.related else c.related
      notRelated := if e.slot = .notRelated then bump c.notRelated else c.notRelated
      neverCommitted := c.neverCommitted
      beyondEnd := if e.slot = .beyondEnd then bump c.beyondEnd else c.beyondEnd
      failed := if e.slot = .failed then bump c.failed else c.failed
      notObserved := if e.slot = .notObserved then bump c.notObserved else c.notObserved } := by
  unfold count PositionEntry.slot
  by_cases captured : e.status = "captured"
  · cases related : e.isRelated with
    | true => simp [captured]
    | false => simp [captured]
  by_cases excluded : e.status = "excluded"
  · simp [excluded]
  by_cases failed : e.status = "failed"
  · simp [failed]
  · simp [captured, excluded, failed]

theorem tally_concat (slot : Slot) (entries : List PositionEntry) (e : PositionEntry) :
    tally slot (entries ++ [e]) =
      if e.slot = slot then bump (tally slot entries) else tally slot entries := by
  unfold tally
  rw [List.countP_append, List.countP_singleton]
  by_cases here : e.slot = slot
  · rw [if_pos here, if_pos (decide_eq_true here), bump_min]
  · rw [if_neg here, if_neg (by simpa using here), Nat.add_zero]

theorem PositionCounts.of_eq (group : GroupPositions) : PositionCounts.of group =
    { related := tally .related group.positions
      notRelated := tally .notRelated group.positions
      neverCommitted := group.noCommittedPosition
      beyondEnd := tally .beyondEnd group.positions
      failed := tally .failed group.positions
      notObserved := tally .notObserved group.positions } := by
  unfold PositionCounts.of
  generalize group.positions = entries
  induction entries using List.reverseRecOn with
  | nil => rfl
  | append_singleton entries e ih =>
      rw [List.foldl_concat, ih, PositionCounts.count_eq]
      simp only [tally_concat]

theorem countP_slots (entries : List PositionEntry) :
    (entries.countP fun e => e.slot = .related) + (entries.countP fun e => e.slot = .notRelated) +
      (entries.countP fun e => e.slot = .beyondEnd) + (entries.countP fun e => e.slot = .failed) +
      (entries.countP fun e => e.slot = .notObserved) = entries.length := by
  induction entries with
  | nil => rfl
  | cons e entries ih =>
      simp only [List.countP_cons, List.length_cons]
      cases e.slot <;> simp <;> omega

def PositionCounts.total (c : PositionCounts) : Nat :=
  c.related + c.notRelated + c.neverCommitted + c.beyondEnd + c.failed + c.notObserved

theorem PositionCounts.total_of {group : GroupPositions} (few : group.positions.length ≤ u32Max) :
    (PositionCounts.of group).total = group.positions.length + group.noCommittedPosition := by
  have whole := countP_slots group.positions
  have exact_ (slot : Slot) :
      tally slot group.positions = group.positions.countP fun e => e.slot = slot :=
    Nat.min_eq_left (Nat.le_trans List.countP_le_length few)
  rw [PositionCounts.of_eq, total]
  simp only [exact_]
  omega

inductive GroupType where
  | classic
  | consumer
deriving DecidableEq, Repr

def GroupType.wireName : GroupType → String
  | .classic => "classic"
  | .consumer => "consumer"

inductive GroupState where
  | preparingRebalance
  | completingRebalance
  | stable
  | dead
  | empty
  | unknownToClient (raw : Nat)
deriving DecidableEq, Repr

def GroupState.wireName : GroupState → String
  | .preparingRebalance => "PreparingRebalance"
  | .completingRebalance => "CompletingRebalance"
  | .stable => "Stable"
  | .dead => "Dead"
  | .empty => "Empty"
  | .unknownToClient _ => "stateUnknownToClient"

inductive Excluded where
  | groupTypeNotCaptured
  | groupNotFound
deriving DecidableEq, Repr

inductive GroupFailure where
  | notVisibleToPrincipal
  | listingInconsistent
  | absenceUnproven
  | typeUnproven
  | unreachable
deriving DecidableEq, Repr

inductive GroupVerdict where
  | capture (groupType : GroupType) (state : GroupState)
  | excluded (why : Excluded)
  | failed (why : GroupFailure)
deriving DecidableEq, Repr

inductive DescribeFailure where
  | notAuthorized
  | typeDisagrees
  | notRepresentable
  | failed
deriving DecidableEq, Repr

structure GroupDescription where
  state : GroupState
  members : Nat
deriving DecidableEq, Repr

inductive PositionsError where
  | positionsUnstable
  | notVisibleOrUnreachable
  | notAuthorized
  | notVisibleToPrincipal
  | failed
  | invalidRequest
  | client
deriving DecidableEq, Repr

inductive PartitionFailure where
  | topicNotAuthorized
  | unstable
  | notAPosition
  | other
deriving DecidableEq, Repr

inductive PartitionPosition where
  | committed (offset : Int)
  | noCommittedPosition
  | failed (why : PartitionFailure)
deriving DecidableEq, Repr

abbrev Answered := List ((String × Int) × PartitionPosition)

structure ObservedGroup where
  groupId : String
  verdict : GroupVerdict
  description : Option (Except DescribeFailure GroupDescription)
  positions : Option (Except PositionsError Answered)

structure Marks where
  logStart : Int
  highWatermark : Int
deriving DecidableEq, Repr

abbrev TopicMarks := Except String (List (Int × Except String Marks))

inductive ListingCompleteness where
  | complete
  | notComplete
deriving DecidableEq, Repr

structure GroupsObservation where
  completeness : Option ListingCompleteness
  groups : List ObservedGroup
  topics : ExtTreeMap String TopicMarks

abbrev ArchivedRanges := ExtTreeMap String (ExtTreeMap Int (Int × Int))

structure Capture where
  backupId : String
  runId : String
  selected : List String
  topics : List String
  observedFrom : Int
  observedTo : Int
  observation : GroupsObservation
  after : ExtTreeMap String TopicMarks
  archived : ArchivedRanges

def marksByPartition (read : Option TopicMarks) : Option (ExtTreeMap Int (Option Marks)) :=
  match read with
  | some (.ok list) => some (TreeMaps.ofEntries (list.map fun p => (p.1, p.2.toOption)))
  | _ => none

def partitionsOf {β : Type} (m : Option (ExtTreeMap Int β)) : List Int :=
  (m.map fun m => m.keys).getD []

/-- One topic's partition facts, from 0 to the highest that any of the three reads names. -/
def topicPartitions (atCapture after : Option (ExtTreeMap Int (Option Marks)))
    (archived : Option (ExtTreeMap Int (Int × Int))) : List PartitionFacts :=
  let named := (partitionsOf atCapture ++ partitionsOf after ++ partitionsOf archived).filter (0 ≤ ·)
  match named.max? with
  | none => []
  | some highest =>
    (List.range (highest.toNat + 1)).map fun (p : Nat) =>
      let seen := atCapture.bind fun m => m[(p : Int)]?
      let marks := seen.join
      let marksAfter := (after.bind fun m => m[(p : Int)]?).join
      let range := archived.bind fun m => m[(p : Int)]?
      { partition := p
        observed := seen.isSome
        logStart := marks.map Marks.logStart
        highWatermark := marks.map Marks.highWatermark
        logStartAfter := marksAfter.map Marks.logStart
        highWatermarkAfter := marksAfter.map Marks.highWatermark
        archivedFirst := range.map Prod.fst
        archivedLast := range.map Prod.snd }

def topicFacts (c : Capture) : ExtTreeMap String TopicPartitions :=
  TreeMaps.ofEntries (c.topics.map fun topic =>
    let partitions := topicPartitions (marksByPartition c.observation.topics[topic]?)
      (marksByPartition c.after[topic]?) c.archived[topic]?
    (topic, { partitions, changedDuringCapture := changedDuringCapture partitions }))

def notCaptured (outcome reason : String) : GroupSnapshot where
  outcome := outcome
  reason := some reason
  groupType := if reason = GROUP_TYPE_NOT_CAPTURED then some OTHER_TYPE else none
  state := none
  listedState := none
  members := none
  active := none
  counts := none

def failed (reason : String) : GroupSnapshot × Option GroupPositions :=
  (notCaptured "failed" reason, none)

def classificationFailure : GroupFailure → String
  | .notVisibleToPrincipal => "NotVisibleToPrincipal"
  | .listingInconsistent => "ListingInconsistent"
  | .absenceUnproven => "AbsenceUnproven"
  | .typeUnproven => "TypeUnproven"
  | .unreachable => "Unreachable"

def descriptionFailure : DescribeFailure → String
  | .notAuthorized => "NotAuthorized"
  | .typeDisagrees => "ListingInconsistent"
  | .notRepresentable => "DescribeFailed"
  | .failed => "DescribeFailed"

def positionsFailure : PositionsError → String
  | .positionsUnstable => "PositionsUnstable"
  | .notVisibleOrUnreachable => "NotVisibleOrUnreachable"
  | .notAuthorized => "NotAuthorized"
  | .notVisibleToPrincipal => "NotVisibleToPrincipal"
  | .failed => "PositionsFailed"
  | .invalidRequest => "PositionsFailed"
  | .client => "PositionsFailed"

def partitionFailure : PartitionFailure → String
  | .topicNotAuthorized => "TopicNotAuthorized"
  | .unstable => "Unstable"
  | .notAPosition => "NotAPosition"
  | .other => "PartitionFailed"

/-- What one partition of a named topic says of a group: an entry, or nothing where no offset was ever
committed. -/
def positionEntry (topic : String) (topicRead : Bool) (answered : Answered) (f : PartitionFacts) :
    Option PositionEntry :=
  let entry (status : String) : PositionEntry :=
    { topic, partition := f.partition, status, position := none, reason := none, coverage := none }
  if !f.observed then
    some { entry "notObserved" with
      reason := some (if topicRead then "PartitionAddedDuringCapture" else "TopicNotObserved") }
  else
    match answered.lookup (topic, (f.partition : Int)) with
    | some (.committed offset) =>
      match relation offset f with
      | .marksNotRead => some { entry "failed" with reason := some MARKS_NOT_READ }
      | .beyondEnd =>
        some { entry "excluded" with position := some offset, reason := some POSITION_BEYOND_END }
      | .coverage word => some { entry "captured" with position := some offset, coverage := some word }
    | some .noCommittedPosition => none
    | some (.failed why) => some { entry "failed" with reason := some (partitionFailure why) }
    | none => some { entry "failed" with reason := some "PartitionFailed" }

def takePartition (topic : String) (topicRead : Bool) (answered : Answered) (out : GroupPositions)
    (f : PartitionFacts) : GroupPositions :=
  match positionEntry topic topicRead answered f with
  | some e => { out with positions := out.positions ++ [e] }
  | none => { out with noCommittedPosition := bump out.noCommittedPosition }

def topicRead (observation : GroupsObservation) (topic : String) : Bool :=
  match observation.topics[topic]? with
  | some (.ok _) => true
  | _ => false

def positionEntries (topics : ExtTreeMap String TopicPartitions) (observation : GroupsObservation)
    (answered : Answered) : GroupPositions :=
  topics.toList.foldl (fun out t =>
    t.2.partitions.foldl (takePartition t.1 (topicRead observation t.1) answered) out)
    { positions := [], noCommittedPosition := 0 }

theorem noCommittedPosition_le (topics : ExtTreeMap String TopicPartitions)
    (observation : GroupsObservation) (answered : Answered) :
    (positionEntries topics observation answered).noCommittedPosition ≤ u32Max := by
  have partition (topic : String) (read : Bool) : ∀ (facts : List PartitionFacts)
      (out : GroupPositions), out.noCommittedPosition ≤ u32Max →
        (facts.foldl (takePartition topic read answered) out).noCommittedPosition ≤ u32Max := by
    intro facts
    induction facts with
    | nil => exact fun out small => small
    | cons f facts ih =>
        intro out small
        refine ih _ ?_
        unfold takePartition bump
        split
        · exact small
        · dsimp only
          split
          · assumption
          · exact Nat.le_refl _
  have topic : ∀ (entries : List (String × TopicPartitions)) (out : GroupPositions),
      out.noCommittedPosition ≤ u32Max →
        (entries.foldl (fun out t => t.2.partitions.foldl
          (takePartition t.1 (topicRead observation t.1) answered) out) out).noCommittedPosition ≤
            u32Max := by
    intro entries
    induction entries with
    | nil => exact fun out small => small
    | cons t entries ih => exact fun out small => ih _ (partition t.1 _ _ _ small)
  exact topic _ _ (Nat.zero_le _)

/-- One selected group's outcome, and its positions when it is captured. -/
def groupOutcome (observed : Option ObservedGroup) (topics : ExtTreeMap String TopicPartitions)
    (observation : GroupsObservation) : GroupSnapshot × Option GroupPositions :=
  match observed with
  | none => failed "CaptureUnavailable"
  | some g =>
    match g.verdict with
    | .excluded .groupTypeNotCaptured => (notCaptured "excluded" GROUP_TYPE_NOT_CAPTURED, none)
    | .excluded .groupNotFound => (notCaptured "excluded" "GroupNotFound", none)
    | .failed f => failed (classificationFailure f)
    | .capture groupType listed =>
      match g.description with
      | none => failed "DescribeFailed"
      | some (.error f) => failed (descriptionFailure f)
      | some (.ok d) =>
        let members := if d.members ≤ u32Max then d.members else u32Max
        if vanished d.state.wireName members then failed GROUP_VANISHED
        else
          match g.positions with
          | none => failed "PositionsFailed"
          | some (.error e) => failed (positionsFailure e)
          | some (.ok answered) =>
            if topics.toList.any fun t => t.2.partitions.isEmpty then failed PARTITIONS_NOT_READ
            else
              let positions := positionEntries topics observation answered
              -- A kept position, captured or excluded, on a topic that changed during the capture.
              if positions.positions.any fun e => e.position.isSome &&
                  topics[e.topic]?.any TopicPartitions.changedDuringCapture then
                failed GENERATION_CHANGED
              else
                ({ outcome := "captured"
                   reason := none
                   groupType := some groupType.wireName
                   state := some d.state.wireName
                   listedState := some listed.wireName
                   members := some members
                   active := some (ConsumerPositions.active d.state.wireName listed.wireName)
                   counts := some (.of positions) }, some positions)

def PartitionFacts.toJson (f : PartitionFacts) : Json :=
  .obj ([("partition", .num f.partition), ("observed", .bool f.observed)] ++
    optional "log_start" f.logStart .num ++ optional "high_watermark" f.highWatermark .num ++
    optional "log_start_after" f.logStartAfter .num ++
    optional "high_watermark_after" f.highWatermarkAfter .num ++
    optional "archived_first" f.archivedFirst .num ++ optional "archived_last" f.archivedLast .num)

def TopicPartitions.toJson (t : TopicPartitions) : Json :=
  .obj [("partitions", .arr (t.partitions.map PartitionFacts.toJson)),
    ("changed_during_capture", .bool t.changedDuringCapture)]

def PositionEntry.toJson (e : PositionEntry) : Json :=
  .obj ([("topic", .str e.topic), ("partition", .num e.partition), ("status", .str e.status)] ++
    optional "position" e.position .num ++ optional "reason" e.reason .str ++
    optional "coverage" e.coverage .str)

def GroupPositions.toJson (g : GroupPositions) : Json :=
  .obj [("positions", .arr (g.positions.map PositionEntry.toJson)),
    ("no_committed_position", .num g.noCommittedPosition)]

def PositionsDocument.toBytes (doc : PositionsDocument) : List UInt8 :=
  toDeterministicJson (.obj
    [("format_version", .str doc.formatVersion), ("backup_id", .str doc.backupId),
      ("run_id", .str doc.runId),
      ("topics", .obj (doc.topics.toList.map fun t => (t.1, t.2.toJson))),
      ("groups", .obj (doc.groups.toList.map fun g => (g.1, g.2.toJson)))])

def PositionCounts.toJson (c : PositionCounts) : Json :=
  .obj [("related", .num c.related), ("not_related", .num c.notRelated),
    ("never_committed", .num c.neverCommitted), ("beyond_end", .num c.beyondEnd),
    ("failed", .num c.failed), ("not_observed", .num c.notObserved)]

def GroupSnapshot.toJson (g : GroupSnapshot) : Json :=
  .obj ([("outcome", .str g.outcome)] ++ optional "reason" g.reason .str ++
    optional "group_type" g.groupType .str ++ optional "state" g.state .str ++
    optional "listed_state" g.listedState .str ++ optional "members" g.members (fun n => .num n) ++
    optional "active" g.active .bool ++ optional "counts" g.counts PositionCounts.toJson)

def documentJson (d : DocumentRef) : Json :=
  .obj [("key", .str d.key), ("sha256", .str d.sha256), ("bytes", .num d.bytes)]

def documentKey (backupId runId : String) : String :=
  "logweir/backups/" ++ backupId ++ "/" ++ runId ++ ".consumer-positions.json"

section

variable (instantText : Int → String)

def ConsumerPositions.toJson (b : ConsumerPositions) : Json :=
  .obj [("observed_from", .str (instantText b.observedFrom)),
    ("observed_to", .str (instantText b.observedTo)), ("listing", .str b.listing),
    ("document", documentJson b.document),
    ("groups", .obj (b.groups.toList.map fun g => (g.1, g.2.toJson)))]

def ConsumerPositions.encoded (b : ConsumerPositions) : List UInt8 :=
  toDeterministicJson (b.toJson instantText)

end

structure Built where
  block : ConsumerPositions
  document : PositionsDocument
  documentBytes : List UInt8

def byId (c : Capture) : ExtTreeMap String ObservedGroup :=
  TreeMaps.ofEntries (c.observation.groups.map fun g => (g.groupId, g))

def outcomeOf (c : Capture) (id : String) : GroupSnapshot × Option GroupPositions :=
  groupOutcome (byId c)[id]? (topicFacts c) c.observation

def build (sha256 : List UInt8 → Digest) (c : Capture) : Built :=
  let document : PositionsDocument :=
    { formatVersion := DOCUMENT_FORMAT_VERSION
      backupId := c.backupId
      runId := c.runId
      topics := topicFacts c
      groups := TreeMaps.ofEntries (c.selected.filterMap fun id =>
        (outcomeOf c id).2.map fun positions => (id, positions)) }
  let bytes := document.toBytes
  { block :=
      { observedFrom := c.observedFrom
        observedTo := max c.observedTo c.observedFrom
        listing := if c.observation.completeness = some .complete then "complete" else "notComplete"
        document :=
          { key := documentKey c.backupId c.runId
            sha256 := sha256Prefixed sha256 bytes
            bytes := bytes.length % 2 ^ 64 }
        groups := TreeMaps.ofEntries (c.selected.map fun id => (id, (outcomeOf c id).1)) }
    document
    documentBytes := bytes }

end Logweir.ConsumerPositions
