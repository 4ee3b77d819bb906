import Logweir.Library.Json
import Logweir.Verify.Complete

/-!
# The positions-mapping document

`logweir_core::positions_mapping`, the document a passing complete restore
writes, the scorecard block that binds it, and the two readers that check them:
`check_block` (PM-1 to PM-5) and `validate_document` (PMD-1 to PMD-7).
-/

set_option autoImplicit false

namespace Logweir.PositionsMapping

open Std (ExtTreeMap ExtTreeSet)
open Logweir.Json Logweir.Text Logweir.Fingerprint
open Logweir.Complete (PartMap Probes Scans)

structure GroupSnapshot where
  outcome : String
  reason : Option String
  groupType : Option String
  active : Option Bool
deriving DecidableEq, Repr

structure ConsumerPositions where
  groups : ExtTreeMap String GroupSnapshot

structure TopicPartitions where
  partitions : List PartitionFacts
deriving DecidableEq, Repr

structure GroupPositions where
  positions : List PositionEntry
  noCommittedPosition : Nat
deriving DecidableEq, Repr

structure PositionsDocument where
  topics : ExtTreeMap String TopicPartitions
  groups : ExtTreeMap String GroupPositions

structure GroupMapping where
  groupType : Option String
  activeAtCapture : Bool
  reason : Option String
  entries : List MappingEntry
  noCommittedPosition : Nat
deriving DecidableEq, Repr

structure MappingDocument where
  formatVersion : String
  runId : String
  pointId : String
  positionsSha256 : String
  rule : String
  groups : ExtTreeMap String GroupMapping

structure MappingCounts where
  exact : Nat := 0
  approximate : Nat := 0
  unavailable : Nat := 0
deriving DecidableEq, Repr

structure DocumentRef where
  key : String
  sha256 : String
  bytes : Nat
deriving DecidableEq, Repr

structure PositionsMapping where
  document : Option DocumentRef
  omitted : Option String
  counts : MappingCounts
  groups : Nat
deriving DecidableEq, Repr

def documentFormatVersion : String := "1.0.0"
def rule : String := "firstTargetRecordAtOrAboveLineage"
def maxDocumentBytes : Nat := 4 * 1024 * 1024
def omittedTooLarge : String := "tooLarge"
def omittedWriteFailed : String := "writeFailed"
def omittedReasons : List String := [omittedTooLarge, omittedWriteFailed]

def unavailableReasons : List String :=
  [transactionalArchive, archiveGap, partitionNotRestored, noArchivedData, beforeLogStart,
    beforeArchive, beyondArchive, positionBeyondEnd]

def documentKey (runId : String) : String := s!"logweir/drills/{runId}.positions-mapping.json"

def isUnavailableReason (reason : String) : Bool :=
  unavailableReasons.contains reason ||
    ((notCaptured ++ ": ").toList.isPrefixOf reason.toList &&
      decide ((notCaptured ++ ": ").length < reason.length))

def MappingCounts.count (c : MappingCounts) (e : MappingEntry) : MappingCounts :=
  if e.class_ = PositionsMapping.exact then { c with exact := c.exact + 1 }
  else if e.class_ = PositionsMapping.approximate then { c with approximate := c.approximate + 1 }
  else { c with unavailable := c.unavailable + 1 }

def MappingDocument.entries (doc : MappingDocument) : List MappingEntry :=
  doc.groups.toList.flatMap fun (_, g) => g.entries

def MappingDocument.counts (doc : MappingDocument) : MappingCounts :=
  doc.entries.foldl MappingCounts.count {}

def optional {α : Type} (key : String) (value : Option α) (json : α → Json) :
    List (String × Json) :=
  (value.map fun v => (key, json v)).toList

def MappingEntry.toJson (e : MappingEntry) : Json :=
  .obj ([("topic", .str e.topic), ("partition", .num e.partition)] ++
    optional "position" e.position .num ++ optional "target_topic" e.targetTopic .str ++
    [("class", .str e.class_)] ++ optional "target_offset" e.targetOffset .num ++
    optional "skipped" e.skipped (fun n => .num n) ++ optional "reason" e.reason .str)

def GroupMapping.toJson (g : GroupMapping) : Json :=
  .obj (optional "group_type" g.groupType .str ++
    [("active_at_capture", .bool g.activeAtCapture)] ++ optional "reason" g.reason .str ++
    [("entries", .arr (g.entries.map MappingEntry.toJson)),
      ("no_committed_position", .num g.noCommittedPosition)])

def MappingDocument.members (doc : MappingDocument) : List (String × Json) :=
  [("format_version", .str doc.formatVersion), ("run_id", .str doc.runId),
    ("point_id", .str doc.pointId), ("positions_sha256", .str doc.positionsSha256),
    ("rule", .str doc.rule),
    ("groups", .obj (doc.groups.toList.map fun (id, g) => (id, g.toJson)))]

def MappingDocument.toBytes (doc : MappingDocument) : List UInt8 :=
  toDeterministicJson (.obj doc.members)

def u32Max : Nat := 2 ^ 32 - 1

def sha256Prefixed (sha256 : List UInt8 → Digest) (bytes : List UInt8) : String :=
  "sha256:" ++ hexEncode (sha256 bytes).toList

def MappingDocument.block (sha256 : List UInt8 → Digest) (doc : MappingDocument) :
    PositionsMapping × Option (List UInt8) :=
  let bytes := doc.toBytes
  let counts := doc.counts
  let groups := if doc.groups.size ≤ u32Max then doc.groups.size else u32Max
  if maxDocumentBytes < bytes.length then
    ({ document := none, omitted := some omittedTooLarge, counts, groups }, none)
  else
    ({ document := some
         { key := documentKey doc.runId, sha256 := sha256Prefixed sha256 bytes
           bytes := bytes.length }
       omitted := none, counts, groups },
      some bytes)

structure MapInputs where
  runId : String
  pointId : String
  positionsSha256 : String
  receipt : ConsumerPositions
  document : PositionsDocument
  topicMapping : ExtTreeMap String String
  scans : Scans
  transactional : Bool

def MapInputs.factsOf (i : MapInputs) (topic : String) (partition : Nat) : Option PartitionFacts :=
  (i.document.topics[topic]?).bind fun t => t.partitions.find? fun f => f.partition == partition

def MapInputs.entry (i : MapInputs) (e : PositionEntry) : MappingEntry :=
  classifyEntry e (i.factsOf e.topic e.partition) (i.topicMapping[e.topic]?)
    (i.scans[(e.topic, (e.partition : Int))]?) i.transactional

def MapInputs.group (i : MapInputs) (id : String) (snap : GroupSnapshot) : GroupMapping :=
  match if snap.outcome = "captured" then i.document.groups[id]? else none with
  | none =>
      let why := snap.reason.getD snap.outcome
      { groupType := snap.groupType, activeAtCapture := snap.active.getD false
        reason := some s!"{notCaptured}: {why}", entries := [], noCommittedPosition := 0 }
  | some doc =>
      { groupType := snap.groupType, activeAtCapture := snap.active.getD true, reason := none
        entries := doc.positions.map i.entry, noCommittedPosition := doc.noCommittedPosition }

def build (i : MapInputs) : MappingDocument where
  formatVersion := documentFormatVersion
  runId := i.runId
  pointId := i.pointId
  positionsSha256 := i.positionsSha256
  rule := rule
  groups := i.receipt.groups.toList.foldl (fun groups (id, snap) =>
    groups.insert id (i.group id snap)) ∅

def probeEntry (out : Probes) (e : PositionEntry) : Probes :=
  match if e.status = "captured" then e.position else none with
  | none => out
  | some p =>
      let key := (e.topic, (e.partition : Int))
      out.insert key ((out[key]?.getD ∅).insert p)

def probes (document : PositionsDocument) : Probes :=
  (document.groups.toList.flatMap fun (_, g) => g.positions).foldl probeEntry ∅

structure BlockContext where
  runId : String
  defined : Bool
  passed : Bool
  complete : Bool
  covered : Bool
deriving DecidableEq, Repr

def positionsMappingSinceMinor : Nat := 12
def positionsMappingSinceMinorOfMajor2 : Nat := 4

def isSha256Prefixed (s : String) : Bool :=
  "sha256:".toList.isPrefixOf s.toList &&
    (let hex := s.toList.drop 7
     hex.length == 64 && hex.all fun c => c.isDigit || (decide ('a' ≤ c) && decide (c ≤ 'f')))

def checkBlock (b : PositionsMapping) (cx : BlockContext) : Except String Unit :=
  if cx.defined = false then
    .error (s!"integrity.verification.positions_mapping is present but the format_version does not " ++
      s!"define it: the block is defined from 1.{positionsMappingSinceMinor}.0 of format 1 and from " ++
      s!"2.{positionsMappingSinceMinorOfMajor2}.0 of format 2")
  else if ¬ (cx.passed = true ∧ cx.complete = true ∧ cx.covered = true) then
    .error ("integrity.verification.positions_mapping is present but the run is not a passing " ++
      "complete verification; positions are mapped only when outcome is pass, coverage is complete " ++
      "and complete.covered is true")
  else if ¬ ((b.document.isSome ∧ b.omitted.isNone) ∨
      (b.document.isNone ∧ (b.omitted.any fun o => omittedReasons.contains o))) then
    .error ("integrity.verification.positions_mapping names exactly one of document and omitted, " ++
      "and omitted is tooLarge or writeFailed")
  else if b.document.any (fun d =>
      d.key != documentKey cx.runId || !isSha256Prefixed d.sha256 || d.bytes == 0 ||
        decide (maxDocumentBytes < d.bytes)) then
    .error (s!"integrity.verification.positions_mapping.document is not this run's mapping: its key " ++
      "is logweir/drills/<run_id>.positions-mapping.json, its sha256 is sha256:<64 lowercase hex> " ++
      s!"and its length is 1 to {maxDocumentBytes} bytes")
  else if b.groups = 0 then
    .error ("integrity.verification.positions_mapping.groups is 0; a mapping is written only for a " ++
      "point that selected consumer groups")
  else .ok ()

abbrev VerifiedPartitions := PartMap String

def entryFits (e : MappingEntry) : Bool :=
  if e.class_ = exact then
    e.targetOffset.any (fun o => decide (0 ≤ o)) && e.skipped.isNone && e.reason.isNone
  else if e.class_ = approximate then
    e.targetOffset.any (fun o => decide (0 ≤ o)) && e.skipped.any (fun s => decide (1 ≤ s)) &&
      e.reason == some selectionExcluded
  else if e.class_ = unavailable then
    e.targetOffset.isNone && e.skipped.isNone && e.reason.any isUnavailableReason
  else false

/-- PMD-6. A mapped entry lands on a verified partition, in its restored topic; a
partition said not restored was not. -/
def entryLands (verified : VerifiedPartitions) (e : MappingEntry) : Bool :=
  let landed := verified[(e.topic, (e.partition : Int))]?
  if e.class_ = unavailable then e.reason != some partitionNotRestored || landed.isNone
  else
    match landed with
    | some t => e.targetTopic == some t
    | none => false

def checkEntry (verified : VerifiedPartitions) (id : String) (e : MappingEntry) :
    Except String Unit :=
  if entryFits e = false then
    .error (s!"group {debug id} entry {debug e.topic}/{e.partition}: an exact entry carries a " ++
      "target offset and nothing else, an approximate one a target offset, skipped of at least 1 " ++
      "and reason selectionExcluded, and an unavailable one only a reason from the closed set")
  else if entryLands verified e = false then
    .error (s!"group {debug id} entry {debug e.topic}/{e.partition}: a mapped entry names a " ++
      "partition the scorecard verified and its restored topic, and one marked " ++
      "PartitionNotRestored names none")
  else .ok ()

def checkGroup (verified : VerifiedPartitions) (id : String) (g : GroupMapping) :
    Except String Unit :=
  if g.reason.any (fun r =>
      !isUnavailableReason r || !notCaptured.toList.isPrefixOf r.toList || !g.entries.isEmpty) then
    .error (s!"group {debug id} carries a reason, so it was not captured: its reason is " ++
      "\"NotCaptured: <why>\" and it has no entry")
  else g.entries.forM (checkEntry verified id)

def validateDocument (sha256 : List UInt8 → Digest) (block : PositionsMapping) (runId : String)
    (verified : VerifiedPartitions) (bytes : List UInt8) (doc : MappingDocument) :
    Except String Unit :=
  match block.document with
  | none =>
      .error ("the scorecard's positions_mapping block names no document (omitted), so there is no " ++
        "mapping to verify")
  | some d =>
      let digest := sha256Prefixed sha256 bytes
      if digest ≠ d.sha256 ∨ bytes.length ≠ d.bytes then
        .error (s!"the positions-mapping document is {digest} over {bytes.length} bytes but the " ++
          s!"scorecard binds {d.sha256} over {d.bytes} bytes: it is not the mapping this scorecard " ++
          "signed")
      else if doc.formatVersion.toList.takeWhile (fun c => c != '.') ≠ ['1'] ∨ doc.runId ≠ runId ∨
          doc.rule ≠ rule then
        .error (s!"the positions-mapping document is not a format 1 mapping of run {debug runId} by " ++
          s!"rule {rule}")
      else if doc.counts ≠ block.counts ∨ doc.groups.size ≠ block.groups then
        .error ("the positions-mapping document's groups and class counts are not the ones the " ++
          "scorecard's block records")
      else doc.groups.toList.forM fun (id, g) => checkGroup verified id g

end Logweir.PositionsMapping
