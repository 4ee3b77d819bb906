import Mathlib.Algebra.Ring.Nat
import Logweir.Core.ReplaySelection
import Logweir.Library.Text
import Logweir.Kbak.Scan
import Logweir.Positions.Rule

/-!
# Complete verification

`drill::phase7_verify::complete`.  Per partition of every restored topic: every
segment the manifest entry lists is read back, hashed and decoded
(`archiveSide`), every restored record is mapped back to its source offset and
compared (`replaySide`), and `run` lays the two out as one verdict a partition.
The store, the cluster reader and the hash are parameters.
-/

set_option autoImplicit false

namespace Logweir.Complete

open Std (ExtTreeMap ExtTreeSet)
open Logweir.Engine Logweir.ReplaySelection Logweir.Fingerprint Logweir.Kbak Logweir.Text
open Logweir.PositionsMapping (Prober PartitionScan)

inductive StoreError where
  | notFound (key : String)
  | tooLarge (key : String)
  | other (message : String)
deriving DecidableEq, Repr

structure Store where
  getCapped : String → Nat → Except StoreError (List UInt8)

structure ConsumedRecord where
  offset : Int
  timestampMs : Int
  key : Option (List UInt8)
  value : Option (List UInt8)
  headers : List Header
deriving DecidableEq, Repr

structure ClusterReader where
  endOffsets : String → Except String (List (Int × Int))
  consumeRange : String → Int → Int → Nat → Except String (List ConsumedRecord)

inductive DrillError where
  | operational (message : String)
  | kafka (message : String)
  | engine (message : String)
  /-- A reader that answers records below the offset it was asked for would keep
  the source reading for ever. -/
  | stalled
deriving DecidableEq, Repr

structure RestorePlan where
  topicMapping : ExtTreeMap String String
  windowFloorSource : WindowFloorSource
  timeWindow : Int × Int
  sourcePartitions : ExtTreeMap String (List Int)

structure CompleteWindow where
  startMs : Option Int
  endMs : Int
deriving DecidableEq, Repr

structure ArchiveIntegrity where
  segments : Nat
  segmentsVerified : Nat
  segmentsFailed : List String
  segmentsUnverified : List String
  recordsDecoded : Nat
  offsetHoles : Nat
deriving DecidableEq, Repr

structure ReplayComparison where
  expected : Nat := 0
  restored : Nat := 0
  matching : Nat := 0
  missing : Nat := 0
  unexpected : Nat := 0
  duplicates : Nat := 0
  outOfOrder : Nat := 0
  mismatched : Nat := 0
deriving DecidableEq, Repr

structure PartitionVerification where
  topic : String
  partition : Int
  targetTopic : String
  compared : Bool
  segments : Nat
  segmentsVerified : Nat
  recordsDecoded : Nat
  offsetHoles : Nat
  replay : ReplayComparison
  findings : List String
deriving DecidableEq, Repr

structure CompleteVerification where
  covered : Bool
  incompleteReason : Option String
  maxRecords : Option Nat
  window : CompleteWindow
  archive : ArchiveIntegrity
  replay : ReplayComparison
  partitions : List PartitionVerification
deriving DecidableEq, Repr

inductive Evidence where
  | verified (checked : Nat)
  | failed (why : String)
  | unverified (why : String)
deriving DecidableEq, Repr

def Evidence.isVerified : Evidence → Bool
  | .verified _ => true
  | _ => false

structure SelectionVerdict where
  id : String
  claimed : Nat
  segments : Evidence
  records : Evidence
  recordsRestored : Nat
  reconciled : Option (Nat × Nat)
  downgrade : Option String
deriving DecidableEq, Repr

structure OffsetRange where
  topic : String
  partition : Int
  fromOffset : Int
  toOffset : Int
deriving DecidableEq, Repr

def segmentStoredCap : Nat := 2 ^ 30
def segmentDecompressedCap : Nat := 2 ^ 30
def segmentLimits : ScanLimits := ⟨segmentDecompressedCap, none⟩
def targetReadChunk : Nat := 5000
def partitionFindingsCap : Nat := 20
def lineageHeader : String := "x-original-offset"

def u64SaturatingAdd (a b : Nat) : Nat := min (a + b) u64Max

def i64SaturatingSucc (a : Int) : Int := min (a + 1) (2 ^ 63 - 1)

/-- `phase7_verify::decode_original_offset`. -/
def decodeOriginalOffset (raw : List UInt8) : Option Int :=
  if raw.length = 8 then some (signed 64 (leNat raw)) else none

def lineageOffset (headers : List Header) : Option Int :=
  ((headers.reverse.find? fun h => h.1 == lineageHeader).bind fun h => h.2).bind
    decodeOriginalOffset

def windowOf (plan : RestorePlan) : CompleteWindow where
  startMs := match plan.windowFloorSource with
    | .archiveManifest => none
    | .inheritedFromSpec => some plan.timeWindow.1
  endMs := plan.timeWindow.2

/-- `ReplaySelection::from_plan`. -/
def fromPlan (plan : RestorePlan) : ReplaySelection where
  topics := ExtTreeSet.ofList plan.topicMapping.keys
  windowStartMs :=
    if plan.windowFloorSource = .inheritedFromSpec then some plan.timeWindow.1 else none
  windowEndMs := plan.timeWindow.2
  partitions := ExtTreeMap.ofList
    ((plan.sourcePartitions.toList.filter fun (t, _) => plan.topicMapping.contains t).map
      fun (t, ps) => (t, ExtTreeSet.ofList ps))

def selected (window : CompleteWindow) (ts : Int) : Bool :=
  windowSelects window.startMs window.endMs ts

structure Findings where
  lines : List String := []
  leftOut : Nat := 0
deriving DecidableEq, Repr

def Findings.push (f : Findings) (line : String) : Findings :=
  if f.lines.length < partitionFindingsCap then { f with lines := f.lines ++ [line] }
  else { f with leftOut := f.leftOut + 1 }

def Findings.intoVec (f : Findings) : List String :=
  if 0 < f.leftOut then
    let left := f.leftOut
    f.lines ++ [s!"… and {left} more findings not listed"]
  else f.lines

structure ArchiveSide where
  segments : Nat := 0
  verified : Nat := 0
  failed : List String := []
  unverified : List String := []
  decoded : Nat := 0
  offsetHoles : Nat := 0
  /-- Source offset to ordered digest, for every selected record. -/
  expected : ExtTreeMap Int Digest := ∅
  /-- Why the expected output is not known, when it is not. -/
  unknown : Option String := none
  downgrade : Option String := none
  capped : Nat := 0

def ArchiveSide.setUnknown (side : ArchiveSide) (why : String) : ArchiveSide :=
  { side with unknown := some (side.unknown.getD why) }

def rangeLe (a b : Int × Int) : Bool := decide (a.1 < b.1 ∨ (a.1 = b.1 ∧ a.2 ≤ b.2))

def rangeSize (r : Int × Int) : Nat := (r.2 - r.1 + 1).toNat

def coveredBy (ranges : List (Int × Int)) (lo hi : Int) : Nat :=
  let clipped := (ranges.map fun (a, b) => (max a lo, min b hi)).filter
    fun (a, b) => decide (a ≤ b)
  let (total, cur) := (clipped.mergeSort rangeLe).foldl
    (fun (total, cur) (a, b) =>
      match cur with
      | some (ca, cb) =>
          if a ≤ i64SaturatingSucc cb then (total, some (ca, max cb b))
          else (total + rangeSize (ca, cb), some (a, b))
      | none => (total, some (a, b)))
    (0, (none : Option (Int × Int)))
  total + (cur.map rangeSize).getD 0

def segmentLe (a b : SegmentFacts) : Bool :=
  rangeLe (a.startOffset, a.endOffset) (b.startOffset, b.endOffset)

structure ArchiveState where
  side : ArchiveSide
  prev : Option Int := none
  lineageMissing : Nat := 0
  findings : Findings
  /-- The offsets the selection excluded, when the mapping asks for them. -/
  excluded : Option (List Int)

def wantedDigest (sha256 : String) : String :=
  if "sha256:".toList.isPrefixOf sha256.toList then String.ofList (sha256.toList.drop 7) else sha256

def holesBefore (explained : List (Int × Int)) (prev : Option Int) (offset : Int) : Nat :=
  match prev with
  | some pv =>
      if i64SaturatingSucc pv < offset then
        (offset - pv - 1).toNat - coveredBy explained (pv + 1) (offset - 1)
      else 0
  | none => 0

/-- One verified segment's record, in archive order. -/
def archiveRecord (window : CompleteWindow) (explained : List (Int × Int)) (st : ArchiveState)
    (r : RecordDigest) : ArchiveState :=
  let side :=
    { st.side with
      decoded := st.side.decoded + 1
      offsetHoles := st.side.offsetHoles + holesBefore explained st.prev r.offset }
  let prev := some ((st.prev.map fun pv => max pv r.offset).getD r.offset)
  if selected window r.timestamp = false then
    { st with side, prev, excluded := st.excluded.map fun x => x ++ [r.offset] }
  else
    let lineageMissing :=
      if (r.kept.map fun v => signed 64 (leNat v)) ≠ some r.offset then st.lineageMissing + 1
      else st.lineageMissing
    let repeated := side.expected.contains r.offset
    let side := { side with expected := side.expected.insert r.offset r.digest }
    if repeated then
      let why := s!"source offset {r.offset} is archived more than once"
      { st with
        side := side.setUnknown why
        prev, lineageMissing
        findings := st.findings.push why }
    else { st with side, prev, lineageMissing }

section Lane
variable {ζ : Type} (sha256 : List UInt8 → Digest) (zstd : ZstdStream ζ)

def keepListed (listed : Nat) (taken : List RecordDigest × Bool) (r : RecordDigest) :
    (List RecordDigest × Bool) × Bool :=
  if taken.1.length = listed then ((taken.1, true), false) else ((taken.1 ++ [r], taken.2), true)

/-- One listed segment: read, hashed, decoded and held to the manifest. -/
def archiveSegment (store : Store) (window : CompleteWindow) (explained : List (Int × Int))
    (st : ArchiveState) (seg : SegmentFacts) : Except DrillError ArchiveState :=
  let key := seg.key
  let unverified (st : ArchiveState) (finding why : String) : ArchiveState :=
    { st with
      side := { st.side with unverified := st.side.unverified ++ [key] }.setUnknown why
      findings := st.findings.push finding }
  let failed (st : ArchiveState) (finding why : String) : ArchiveState :=
    { st with
      side := { st.side with failed := st.side.failed ++ [key] }.setUnknown why
      findings := st.findings.push finding }
  let cap (st : ArchiveState) : ArchiveState :=
    { st with side := { st.side with capped := st.side.capped + 1 } }
  if seg.sha256.isEmpty then
    .ok (unverified st
      s!"segment {key} carries no sha256 (written before 0.21) and cannot be verified"
      s!"segment {key} cannot be verified (no sha256)")
  else
    match store.getCapped key segmentStoredCap with
    | .error (.notFound _) =>
        .ok (failed st s!"segment {key} is listed in the manifest and the store does not hold it"
          s!"segment {key} is missing from the store")
    | .error (.tooLarge _) =>
        .ok (unverified (cap st)
          (s!"segment {key} is larger than the {segmentStoredCap}-byte stored cap per segment and " ++
            "was not read")
          s!"segment {key} is past the stored cap")
    | .error (.other e) => .error (.engine e)
    | .ok bytes =>
        if hexEncode (sha256 bytes).toList ≠ wantedDigest seg.sha256 then
          .ok (failed st s!"segment {key} does not match the manifest's sha256"
            s!"segment {key} failed its sha256 check")
        else
          let listed := seg.recordCount.toNat
          match digestSegment sha256 zstd (fun _ => 0) bytes segmentLimits lineageHeader
            (keepListed listed) ([], false) with
          | (.error (.unreadable e), _) =>
              let st := unverified st s!"segment {key} could not be decoded: {e}"
                s!"segment {key} could not be decoded"
              .ok { st with side := { st.side with downgrade := some (st.side.downgrade.getD e) } }
          | (.error (.tooLarge e), _) =>
              .ok (unverified (cap st)
                (s!"segment {key} was not decoded: its body is past the " ++
                  s!"{segmentDecompressedCap}-byte decompressed cap per segment (too large: {e})")
                s!"segment {key} is past the decompressed cap")
          | (.error (.timedOut e), _) =>
              .ok (unverified (cap st)
                (s!"segment {key} was not decoded: its body is past the " ++
                  s!"{segmentDecompressedCap}-byte decompressed cap per segment (timed out: {e})")
                s!"segment {key} is past the decompressed cap")
          | (.ok _, (records, more)) =>
              let inRange := records.all fun r =>
                decide (seg.startOffset ≤ r.offset) && decide (r.offset ≤ seg.endOffset)
              if more = true ∨ (records.length : Int) ≠ seg.recordCount ∨ inRange = false then
                let moreThan := if more then "more than " else ""
                let outside :=
                  if inRange then "" else ", and a decoded offset lies outside that range"
                .ok (failed st
                  (s!"segment {key} decodes to {moreThan}{records.length} records, the manifest " ++
                    s!"says {seg.recordCount} in offsets {seg.startOffset}..={seg.endOffset}{outside}")
                  s!"segment {key} disagrees with the manifest")
              else
                .ok (records.foldl (archiveRecord window explained)
                  { st with side := { st.side with verified := st.side.verified + 1 } })

/-- Reads, hashes and decodes every segment of one partition entry, and builds
the expected output. -/
def archiveSide (store : Store) (p : Option PartitionFacts) (window : CompleteWindow)
    (findings : Findings) (excluded : Option (List Int)) :
    Except DrillError (ArchiveSide × Findings × Option (List Int)) :=
  match p with
  | none => .ok ({}, findings, excluded)
  | some p => do
      let explained := p.gaps ++ p.pruned
      -- Archive order is source-offset order; nothing orders a real manifest.
      let segs := p.segments.mergeSort segmentLe
      let st ← segs.foldlM (archiveSegment sha256 zstd store window explained)
        { side := { segments := segs.length }, findings, excluded }
      if 0 < st.lineageMissing ∧ st.side.unknown = none then
        let missing := st.lineageMissing
        return ({ st.side with
            unknown := some (s!"{missing} selected archived records carry no x-original-offset " ++
              "header") },
          st.findings.push (s!"{missing} selected archived records carry no x-original-offset " ++
            "naming their own offset (an archive written with include_offset_headers: false), so no " ++
            "restored record can be mapped back to them"),
          st.excluded)
      else return (st.side, st.findings, st.excluded)

structure ReplayState where
  counts : ReplayComparison
  seen : ExtTreeSet Int := ∅
  maxSeen : Option Int := none
  findings : Findings
  prober : Option Prober

def recordDigest (c : ConsumedRecord) : Digest :=
  recordDigestOrdered sha256 c.key c.value c.headers c.timestampMs

/-- A source offset seen for the first time: below one seen before it, it is out
of order. -/
def noteOrder (st : ReplayState) (c : ConsumedRecord) (o : Int) : ReplayState :=
  let seen := st.seen.insert o
  let maxSeen := some ((st.maxSeen.map fun m => max m o).getD o)
  if (st.maxSeen.any fun m => decide (o < m)) = true then
    let after := st.maxSeen.getD 0
    { st with
      seen, maxSeen
      counts := { st.counts with outOfOrder := st.counts.outOfOrder + 1 }
      findings := st.findings.push (s!"source offset {o} is restored at target offset {c.offset} " ++
        s!"after source offset {after}") }
  else { st with seen, maxSeen }

/-- The first copy of a source offset against the archive's. -/
def compareRecord (expected : ExtTreeMap Int Digest) (st : ReplayState) (c : ConsumedRecord)
    (o : Int) : ReplayState :=
  match expected[o]? with
  | none =>
      { st with
        counts := { st.counts with unexpected := st.counts.unexpected + 1 }
        findings := st.findings.push (s!"source offset {o} at target offset {c.offset} is not in " ++
          "the expected output") }
  | some want =>
      if recordDigest sha256 c = want then
        { st with counts := { st.counts with matching := st.counts.matching + 1 } }
      else
        { st with
          counts := { st.counts with mismatched := st.counts.mismatched + 1 }
          findings := st.findings.push (s!"source offset {o} at target offset {c.offset} differs " ++
            "from the archive") }

/-- One restored record against the expected output. -/
def replayRecord (expected : ExtTreeMap Int Digest) (st : ReplayState) (c : ConsumedRecord) :
    ReplayState :=
  let st := { st with counts := { st.counts with restored := st.counts.restored + 1 } }
  match lineageOffset c.headers with
  | none =>
      { st with
        counts := { st.counts with unexpected := st.counts.unexpected + 1 }
        findings := st.findings.push s!"target offset {c.offset} carries no x-original-offset" }
  | some o =>
      let st := { st with prober := st.prober.map fun (p : Prober) => p.observe c.offset o }
      if st.seen.contains o then
        { st with
          counts := { st.counts with duplicates := st.counts.duplicates + 1 }
          findings := st.findings.push
            s!"source offset {o} is restored again at target offset {c.offset}" }
      else compareRecord sha256 expected (noteOrder st c o) c o

def replayLoop (reader : ClusterReader) (target : String) (partition hi : Int)
    (expected : ExtTreeMap Int Digest) : Nat → Int → ReplayState → Except DrillError ReplayState
  | 0, start, st => if start < hi then .error .stalled else .ok st
  | fuel + 1, start, st =>
      if start < hi then
        match reader.consumeRange target partition start targetReadChunk with
        | .error e => .error (.kafka e)
        | .ok chunk =>
            match chunk.getLast? with
            | none =>
                .error (.operational (s!"{target}/{partition}: reading the restored records stopped " ++
                  s!"at offset {start} below the high watermark {hi}; a complete verification that " ++
                  "read less than the whole partition cannot report on it"))
            | some last =>
                replayLoop reader target partition hi expected fuel (last.offset + 1)
                  (chunk.foldl (replayRecord sha256 expected) st)
      else .ok st

def replaySide (reader : ClusterReader) (target : String) (partition hi : Int)
    (expected : ExtTreeMap Int Digest) (findings : Findings) (prober : Option Prober) :
    Except DrillError (ReplayComparison × Findings × Option Prober) := do
  let st ← replayLoop sha256 reader target partition hi expected hi.toNat 0
    { counts := { expected := expected.size }, findings, prober }
  let missing := expected.keys.filter fun o => !st.seen.contains o
  let findings := missing.foldl
    (fun findings o => findings.push s!"source offset {o} is missing from the target") st.findings
  return ({ st.counts with missing := st.counts.missing + missing.length }, findings, st.prober)

def ReplayComparison.isExact (r : ReplayComparison) : Bool :=
  r.missing == 0 && r.unexpected == 0 && r.duplicates == 0 && r.outOfOrder == 0 &&
    r.mismatched == 0 && r.matching == r.expected && r.restored == r.expected

def ReplayComparison.add (a b : ReplayComparison) : ReplayComparison where
  expected := u64SaturatingAdd a.expected b.expected
  restored := u64SaturatingAdd a.restored b.restored
  matching := u64SaturatingAdd a.matching b.matching
  missing := u64SaturatingAdd a.missing b.missing
  unexpected := u64SaturatingAdd a.unexpected b.unexpected
  duplicates := u64SaturatingAdd a.duplicates b.duplicates
  outOfOrder := u64SaturatingAdd a.outOfOrder b.outOfOrder
  mismatched := u64SaturatingAdd a.mismatched b.mismatched

structure PartitionProbe where
  prober : Prober
  excluded : List Int

def PartitionProbe.new (positions : ExtTreeSet Int) : PartitionProbe :=
  ⟨Prober.new positions.toList, []⟩

def PartitionProbe.finish (p : PartitionProbe) (targetTopic : String) (highWatermark : Int)
    (gaps : List (Int × Int)) : PartitionScan :=
  { targetTopic, highWatermark, found := p.prober.finish
    excluded := p.excluded.mergeSort fun a b => decide (a ≤ b), gaps }

def partCmp : String × Int → String × Int → Ordering :=
  compareLex (compareOn Prod.fst) (compareOn Prod.snd)

instance : Std.TransCmp partCmp := inferInstanceAs (Std.TransCmp (compareLex _ _))

instance : Std.LawfulEqCmp partCmp where
  eq_of_compare {a b} h := by
    simp only [partCmp, compareLex, compareOn, Ordering.then_eq_eq, Std.compare_eq_iff_eq] at h
    exact Prod.ext h.1 h.2

abbrev PartMap (β : Type) := ExtTreeMap (String × Int) β partCmp

abbrev Parts := PartMap (String × Int)

abbrev Probes := PartMap (ExtTreeSet Int)
abbrev Scans := PartMap PartitionScan

structure CompleteOutcome where
  verdicts : List SelectionVerdict
  block : CompleteVerification
  gaps : List OffsetRange
  pruned : List OffsetRange
  scans : Scans

/-- One mapped topic's partitions: the selected ones of its manifest entry, and
those of its target that are selected or hold records. -/
def partsOf (facts : BackupSetFacts) (selection : ReplaySelection) (src tgt : String)
    (ends : ExtTreeMap Int Int) (parts : Parts) : Parts :=
  let parts := match facts.topics.find? fun t => t.name == src with
    | none => parts
    | some t =>
        (t.partitions.filter fun p => selection.selectsPartition src p.partitionId).foldl
          (fun parts p =>
            parts.insert (src, p.partitionId) (tgt, (ends[p.partitionId]?).getD 0)) parts
  (ends.toList.filter fun (pid, hi) =>
    selection.selectsPartition src pid || decide (0 < hi)).foldl
      (fun parts (pid, hi) => parts.insert (src, pid) (tgt, hi)) parts

def endsOf (reader : ClusterReader) (tgt : String) : Except DrillError (ExtTreeMap Int Int) :=
  match reader.endOffsets tgt with
  | .error e => .error (.kafka e)
  | .ok ends => .ok (ExtTreeMap.ofList ends)

def allParts (reader : ClusterReader) (facts : BackupSetFacts) (selection : ReplaySelection)
    (mapping : ExtTreeMap String String) : Except DrillError Parts :=
  mapping.toList.foldlM (fun parts (src, tgt) => do
    let ends ← endsOf reader tgt
    return partsOf facts selection src tgt ends parts) ∅

/-- The manifest entry `run` reads for a partition: the first entry of the first
topic entry of that name. -/
def manifestEntry (facts : BackupSetFacts) (src : String) (pid : Int) : Option PartitionFacts :=
  (facts.topics.find? fun t => t.name == src).bind fun t =>
    t.partitions.find? fun p => p.partitionId == pid

structure RunState where
  verdicts : List SelectionVerdict := []
  partitions : List PartitionVerification := []
  archive : ArchiveIntegrity := ⟨0, 0, [], [], 0, 0⟩
  replayTotal : ReplayComparison := {}
  gaps : List OffsetRange := []
  pruned : List OffsetRange := []
  stoppedAt : Option String := none
  notCompared : Nat := 0
  budgetUsed : Nat := 0
  capped : Nat := 0
  scans : Scans := ∅

def segmentsEvidence (side : ArchiveSide) : Evidence :=
  if side.failed = [] ∧ side.unverified = [] ∧ side.verified = side.segments then
    .verified side.verified
  else if side.failed ≠ [] then
    let keys := String.intercalate ", " side.failed
    .failed s!"{side.failed.length} of {side.segments} archived segments failed their check: {keys}"
  else
    let keys := String.intercalate ", " side.unverified
    .unverified (s!"{side.unverified.length} of {side.segments} archived segments could not be " ++
      s!"verified: {keys}")

def recordsEvidence (r : ReplayComparison) : Evidence :=
  if r.isExact then .verified r.expected
  else
    .failed (s!"the restored partition is not the expected output: {r.expected} expected, " ++
      s!"{r.restored} restored, {r.missing} missing, {r.unexpected} unexpected, {r.duplicates} " ++
      s!"duplicates, {r.outOfOrder} out of order, {r.mismatched} different from the archive")

/-- A partition past the record bound: nothing of it is read. -/
def pastBound (st : RunState) (src : String) (pid : Int) (tgt : String) (hi : Int)
    (keys : List String) (maxRecords : Option Nat) (findings : Findings) : RunState :=
  let id := s!"{src}/{pid}"
  let bound := maxRecords.getD 0
  let why := (s!"not compared: the complete verification stopped at its bound of {bound} decoded " ++
    "records (sample.complete_max_records) before this partition")
  let findings := findings.push why
  let replay : ReplayComparison := { restored := hi.toNat }
  { st with
    stoppedAt := some (st.stoppedAt.getD id)
    notCompared := st.notCompared + 1
    archive :=
      { st.archive with
        segments := st.archive.segments + keys.length
        segmentsUnverified := st.archive.segmentsUnverified ++ keys }
    replayTotal := st.replayTotal.add replay
    partitions := st.partitions ++
      [{ topic := src, partition := pid, targetTopic := tgt, compared := false
         segments := keys.length, segmentsVerified := 0, recordsDecoded := 0, offsetHoles := 0
         replay, findings := findings.intoVec }]
    verdicts := st.verdicts ++
      [{ id, claimed := 0
         segments := .unverified
           s!"{keys.length} archived segments were not read, past the bound"
         records := .unverified why, recordsRestored := replay.restored, reconciled := none
         downgrade := none }] }

def compareSide (reader : ClusterReader) (tgt : String) (pid hi : Int) (side : ArchiveSide)
    (findings : Findings) (probe : Option PartitionProbe) (gaps : List (Int × Int)) :
    Except DrillError (ReplayComparison × Evidence × Bool × Findings × Option PartitionScan) :=
  match side.unknown with
  | some why =>
      let why := s!"not compared: the expected output is not known ({why})"
      .ok ({ restored := hi.toNat }, .unverified why, false, findings.push why, none)
  | none => do
      let (replay, findings, prober) ←
        replaySide sha256 reader tgt pid hi side.expected findings (probe.map fun p => p.prober)
      let scan := match probe, prober with
        | some probe, some prober => some ({ probe with prober }.finish tgt hi gaps)
        | _, _ => none
      return (replay, recordsEvidence replay, true, findings, scan)

def probesFor (probes : Option Probes) (key : String × Int) : Option (ExtTreeSet Int) :=
  probes.bind fun pr => if key.2 < 0 then none else pr[key]?

def runPartition (reader : ClusterReader) (store : Store) (facts : BackupSetFacts)
    (selection : ReplaySelection) (window : CompleteWindow) (maxRecords : Option Nat)
    (probes : Option Probes) (st : RunState) (part : (String × Int) × (String × Int)) :
    Except DrillError RunState :=
  let ((src, pid), (tgt, hi)) := part
  let id := s!"{src}/{pid}"
  -- An unselected partition expects nothing, whatever the archive holds for it.
  let chosen := selection.selectsPartition src pid
  let pf := (manifestEntry facts src pid).filter fun _ => chosen
  let rangesOf (f : PartitionFacts → List (Int × Int)) : List OffsetRange :=
    ((pf.map f).getD []).map fun (a, b) => ⟨src, pid, a, b⟩
  let st :=
    { st with
      gaps := st.gaps ++ rangesOf PartitionFacts.gaps
      pruned := st.pruned ++ rangesOf PartitionFacts.pruned }
  let findings : Findings :=
    if chosen then {}
    else
      ({} : Findings).push (s!"not selected by the plan's restore.partitions, so nothing is " ++
        s!"expected here, and the target holds {hi.toNat} record(s) in it")
  let segments := (pf.map PartitionFacts.segments).getD []
  let estimate := (segments.map fun s => s.recordCount.toNat).sum
  let pastBudget := st.stoppedAt.isSome ||
    maxRecords.any fun m => decide (m < u64SaturatingAdd st.budgetUsed estimate)
  if pastBudget then .ok (pastBound st src pid tgt hi (segments.map fun s => s.key) maxRecords findings)
  else do
    let probe := ((probesFor probes (src, pid)).filter fun _ => chosen).map PartitionProbe.new
    let (side, findings, excluded) ←
      archiveSide sha256 zstd store pf window findings (probe.map fun p => p.excluded)
    let probe := probe.map fun p => { p with excluded := excluded.getD p.excluded }
    let gaps := (pf.map fun f => f.gaps ++ f.pruned).getD []
    let (replay, records, compared, findings, scan) ←
      compareSide sha256 reader tgt pid hi side findings probe gaps
    return { st with
      budgetUsed := u64SaturatingAdd st.budgetUsed estimate
      archive :=
        { segments := st.archive.segments + side.segments
          segmentsVerified := st.archive.segmentsVerified + side.verified
          segmentsFailed := st.archive.segmentsFailed ++ side.failed
          segmentsUnverified := st.archive.segmentsUnverified ++ side.unverified
          recordsDecoded := st.archive.recordsDecoded + side.decoded
          offsetHoles := st.archive.offsetHoles + side.offsetHoles }
      capped := st.capped + side.capped
      notCompared := if compared then st.notCompared else st.notCompared + 1
      scans := match scan with
        | some scan => st.scans.insert (src, pid) scan
        | none => st.scans
      replayTotal := st.replayTotal.add replay
      verdicts := st.verdicts ++
        [{ id, claimed := replay.expected, segments := segmentsEvidence side, records
           recordsRestored := replay.restored
           reconciled := if compared then some (replay.expected, replay.matching) else none
           downgrade := side.downgrade }]
      partitions := st.partitions ++
        [{ topic := src, partition := pid, targetTopic := tgt, compared
           segments := side.segments, segmentsVerified := side.verified
           recordsDecoded := side.decoded, offsetHoles := side.offsetHoles
           replay, findings := findings.intoVec }] }

def offsetRangeLe (a b : OffsetRange) : Bool :=
  ((compare a.topic b.topic).then ((compare a.partition b.partition).then
    ((compare a.fromOffset b.fromOffset).then (compare a.toOffset b.toOffset)))) != .gt

def incompleteReason (st : RunState) (maxRecords : Option Nat) : String :=
  let listed := st.partitions.length
  let bound := maxRecords.getD 0
  let why := match st.stoppedAt with
    | some first =>
        (s!"{st.notCompared} of {listed} partitions were not compared: the verification stopped at " ++
          s!"sample.complete_max_records = {bound} decoded records, first at {first}")
    | none =>
        (s!"{st.notCompared} of {listed} partitions were not compared because their expected output " ++
          "could not be established (their findings say why)")
  if 0 < st.capped then
    (s!"{why}; {st.capped} segment(s) are past the per-segment caps ({segmentStoredCap} bytes " ++
      s!"stored, {segmentDecompressedCap} bytes decompressed) and were not read")
  else why

/-- The complete lane: one verdict a partition, in topic and partition order. -/
def run (reader : ClusterReader) (store : Store) (facts : BackupSetFacts)
    (listed : List (String × Int)) (mapping : ExtTreeMap String String) (plan : RestorePlan)
    (maxRecords : Option Nat) (probes : Option Probes) : Except DrillError CompleteOutcome := do
  let window := windowOf plan
  let selection := fromPlan plan
  let parts ← allParts reader facts selection mapping
  match listed.find? fun tp => !parts.contains tp with
  | some (t, p) =>
      .error (.operational (s!"phase 4 selected {t}/{p}, which is neither in the manifest nor on " ++
        "the target of a mapped topic; refusing a complete verification whose ledger cannot cover it"))
  | none =>
      let st ← parts.toList.foldlM
        (runPartition sha256 zstd reader store facts selection window maxRecords probes) {}
      let covered := st.notCompared == 0
      return {
        verdicts := st.verdicts
        block := {
          covered
          incompleteReason := if covered then none else some (incompleteReason st maxRecords)
          maxRecords, window
          archive :=
            { st.archive with
              segmentsFailed := (ExtTreeSet.ofList st.archive.segmentsFailed).toList
              segmentsUnverified := (ExtTreeSet.ofList st.archive.segmentsUnverified).toList }
          replay := st.replayTotal
          partitions := st.partitions }
        gaps := st.gaps.mergeSort offsetRangeLe
        pruned := st.pruned.mergeSort offsetRangeLe
        scans := st.scans }

end Lane

end Logweir.Complete
