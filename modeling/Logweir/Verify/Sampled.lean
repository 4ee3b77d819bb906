import Logweir.Library.Results
import Logweir.Verify.Complete

/-!
# Sampled verification

`drill::phase7_verify`, the sampled lane.  One verdict a selection: its archived segments are
hashed, the head of its target partition is reconciled against the archive's fingerprints by
source offset, and `rollUp` is the one place where a verification becomes a pass.
-/

set_option autoImplicit false

namespace Logweir.Sampled

open Std (ExtTreeMap)
open Logweir.Engine Logweir.Fingerprint Logweir.Text
open Logweir.Complete Logweir.Results

inductive Anchor where
  | head
  | tail
  | random
deriving DecidableEq

structure SampleSelection where
  topic : String
  partition : Int
  anchor : Anchor
  count : Nat
  window : Int × Int
deriving DecidableEq

structure RecordFingerprint where
  topic : String
  partition : Int
  offset : Int
  sha256 : String
deriving DecidableEq

def bytesLe : List UInt8 → List UInt8 → Bool
  | [], _ => true
  | _ :: _, [] => false
  | a :: l, b :: m => if a = b then bytesLe l m else decide (a < b)

def headerLe (a b : Header) : Bool :=
  if strBytes a.1 = strBytes b.1 then
    match a.2, b.2 with
    | none, _ => true
    | some _, none => false
    | some x, some y => bytesLe x y
  else bytesLe (strBytes a.1) (strBytes b.1)

section

variable (sha256 : List UInt8 → Digest)

def recordFingerprint (key value : Option (List UInt8)) (headers : List Header) (timestampMs : Int) :
    String :=
  hexEncode (recordDigestOrdered sha256 key value (headers.mergeSort headerLe) timestampMs).toList

def consumedFingerprint (c : ConsumedRecord) : String :=
  recordFingerprint sha256 c.key c.value c.headers c.timestampMs

def lineageKey (c : ConsumedRecord) : Int := (lineageOffset c.headers).getD c.offset

def byOffset (consumed : List ConsumedRecord) (offset : Int) : Option ConsumedRecord :=
  consumed.reverse.find? fun c => lineageKey c = offset

def mismatch (consumed : List ConsumedRecord) (a : RecordFingerprint) : Option String :=
  match byOffset consumed a.offset with
  | none => some s!"{a.topic}/{a.partition} offset {a.offset}: present in the archive, absent from the target"
  | some c =>
      if consumedFingerprint sha256 c = a.sha256 then none
      else some s!"{a.topic}/{a.partition} offset {a.offset}: fingerprint mismatch"

def compareSampled (archive : List RecordFingerprint) (consumed : List ConsumedRecord) :
    Nat × Nat × List String :=
  (archive.length, archive.countP fun a => (mismatch sha256 consumed a).isNone,
    archive.filterMap (mismatch sha256 consumed))

def lineageFault (st : List Int × Option Int × List String) (c : ConsumedRecord) :
    List Int × Option Int × List String :=
  match lineageOffset c.headers with
  | none => st
  | some o =>
      let (seen, maxSeen, out) := st
      if o ∈ seen then
        (seen, maxSeen, out ++ [s!"source offset {o} is restored again at target offset {c.offset}"])
      else
        let out := match maxSeen.filter fun m => o < m with
          | some m =>
              out ++ [s!"source offset {o} is restored at target offset {c.offset} after source offset {m}"]
          | none => out
        (o :: seen, some ((maxSeen.map fun m => max m o).getD o), out)

def lineageFaults (consumed : List ConsumedRecord) : List String :=
  (consumed.foldl lineageFault ([], none, [])).2.2

def dedupByOffset : List RecordFingerprint → List RecordFingerprint
  | [] => []
  | [f] => [f]
  | f :: g :: rest =>
      if g.offset = f.offset then dedupByOffset (f :: rest) else f :: dedupByOffset (g :: rest)
termination_by l => l.length

def selectSample (sorted : List RecordFingerprint) (anchor : Anchor) (count : Nat) :
    List RecordFingerprint :=
  if count = 0 then []
  else if sorted.length ≤ count then sorted
  else
    match anchor with
    | .head => sorted.take count
    | .tail => sorted.drop (sorted.length - count)
    | .random =>
        dedupByOffset ((List.range count).filterMap fun i =>
          sorted[i * (sorted.length - 1) / max (count - 1) 1]?)

inductive SelectionArchive where
  | fingerprints (fp : List RecordFingerprint)
  | unsupported (reason : String)
deriving DecidableEq

def sampledSegmentsFor (facts : BackupSetFacts) (s : SampleSelection) : List SegmentFacts :=
  (((facts.topics.filter fun t => t.name = s.topic).flatMap fun t => t.partitions).filter
    fun p => p.partitionId = s.partition).flatMap (fun p => p.segments) |>.filter
      fun seg => seg.startTimestamp ≤ s.window.2 && seg.endTimestamp ≥ s.window.1

structure SegmentCheck where
  checked : Nat := 0
  skipped : List String := []
  failed : List String := []

def checkSegment (store : Store) (st : SegmentCheck) (seg : SegmentFacts) :
    Except DrillError SegmentCheck :=
  if seg.sha256.isEmpty then .ok { st with skipped := st.skipped ++ [seg.key] }
  else
    match store.getCapped seg.key segmentStoredCap with
    | .error (.notFound key) => .error (.engine key)
    | .error (.tooLarge key) => .error (.engine key)
    | .error (.other e) => .error (.engine e)
    | .ok bytes =>
        if hexEncode (sha256 bytes).toList ≠ wantedDigest seg.sha256 then
          .ok { st with failed := st.failed ++ [seg.key] }
        else .ok { st with checked := st.checked + 1 }

def segmentConclusion (segs : List SegmentFacts) (st : SegmentCheck) : Evidence :=
  let keys (l : List String) := String.intercalate ", " l
  if segs ≠ [] ∧ st.checked = segs.length then .verified st.checked
  else if st.failed ≠ [] then
    .failed s!"segment sha256 mismatch against the manifest for {keys st.failed}"
  else if st.skipped ≠ [] then
    .unverified (s!"{st.skipped.length} of {segs.length} sampled segments carry no sha256 (written " ++
      s!"before 0.21) and could not be verified: {keys st.skipped}")
  else .unverified s!"only {st.checked} of {segs.length} sampled segments could be accounted for"

def segmentEvidence (store : Store) (segs : List SegmentFacts) : Except DrillError Evidence :=
  if segs = [] then
    .ok (.unverified ("no archive segment matches this selection in the sampled window, so the " ++
      "segment sha256 check examined nothing for it"))
  else return segmentConclusion segs (← segs.foldlM (checkSegment sha256 store) {})

def whollyInside (s : SampleSelection) (g : SegmentFacts) : Bool :=
  g.startTimestamp ≥ s.window.1 && g.endTimestamp ≤ s.window.2

def supportableClaim (s : SampleSelection) (segs : List SegmentFacts) : Nat × Nat × Nat :=
  let supported := ((segs.filter (whollyInside s)).map fun g => g.recordCount.toNat).sum
  let straddling := segs.filter fun g => !whollyInside s g
  (if segs = [] then s.count else min s.count supported, straddling.length,
    (straddling.map fun g => g.recordCount.toNat).sum)

def straggling (straddlers : Nat × Nat) : String :=
  let (count, records) := straddlers
  if count = 0 then ""
  else
    let (plural, singular) := if count = 1 then ("", "s") else ("s", "")
    s!" ({count} straddling segment{plural} hold{singular} {records} records the window may exclude)"

/-- The record lane of a fingerprinted selection, positive first. -/
def reconciledEvidence (claimed : Nat) (straddlers : Nat × Nat) (compared matching : Nat)
    (order : List String) : Evidence :=
  if 0 < compared ∧ claimed ≤ compared ∧ matching = compared ∧ order = [] then .verified matching
  else if order ≠ [] then
    let first := String.intercalate "; " (order.take 5)
    .failed (s!"{order.length} restored records repeat or reorder the archive's source offsets: " ++ first)
  else if matching < compared then
    .failed s!"{compared - matching} of {compared} sampled records did not reconcile against the archive"
  else if compared = 0 then
    .unverified ("zero archive fingerprints were available to reconcile against; a " ++
      "byte-fingerprint comparison cannot verify anything it never sampled, " ++
      "even when other selections in the same drill produced real matches")
  else
    .unverified (s!"the archive returned {compared} fingerprints where the manifest " ++
      s!"supports at least {claimed} for this selection{straggling straddlers}; a short sample is " ++
      "coverage the drill did not obtain, not a smaller successful sample")

def readBackEvidence (claimed : Nat) (straddlers : Nat × Nat) (recordsRestored : Nat) : Evidence :=
  if 0 < recordsRestored ∧ claimed ≤ recordsRestored then .verified recordsRestored
  else if recordsRestored = 0 then
    .unverified ("the target partition gave back zero records, so consume-only " ++
      "verification proved nothing about this selection")
  else
    .unverified (s!"the target partition gave back {recordsRestored} records where the " ++
      s!"manifest supports at least {claimed} for this selection{straggling straddlers}; a short " ++
      "read-back is coverage the drill did not obtain")

def recordsLane (claimed : Nat) (straddlers : Nat × Nat) (archive : SelectionArchive)
    (consumed : List ConsumedRecord) : Evidence × Option (Nat × Nat) × Option String :=
  match archive with
  | .fingerprints fp =>
      let (compared, matching, _) := compareSampled sha256 fp consumed
      (reconciledEvidence claimed straddlers compared matching (lineageFaults consumed),
        if 0 < compared then some (compared, matching) else none, none)
  | .unsupported reason => (readBackEvidence claimed straddlers consumed.length, none, some reason)

def mappedTopic (mapping : ExtTreeMap String String) (topic : String) : Except DrillError String :=
  match mapping[topic]? with
  | some mapped => .ok mapped
  | none =>
      .error (.operational ("no target-side mapping for archive topic " ++ topic ++
        "; refusing to read the wrong topic"))

def verdictForSelection (reader : ClusterReader) (store : Store) (facts : BackupSetFacts)
    (s : SampleSelection) (mapping : ExtTreeMap String String) (archive : SelectionArchive) :
    Except DrillError SelectionVerdict := do
  let mapped ← mappedTopic mapping s.topic
  let segs := sampledSegmentsFor facts s
  let (claimed, straddlers) := supportableClaim s segs
  let segments ← segmentEvidence sha256 store segs
  let consumed ← (reader.consumeRange mapped s.partition 0 s.count).mapError DrillError.kafka
  let (records, reconciled, downgrade) := recordsLane sha256 claimed straddlers archive consumed
  return { id := s!"{s.topic}/{s.partition}", claimed, segments, records,
           recordsRestored := consumed.length, reconciled, downgrade }

/-- What the engine answers for one selection: the archived records of its window in offset order,
or why their segments cannot be fingerprinted. -/
abbrev ArchiveReader := SampleSelection → Except DrillError (Except String (List RecordFingerprint))

def probeArchiveMode (archived : ArchiveReader) (s : SampleSelection) :
    Except DrillError SelectionArchive := do
  match ← archived s with
  | .ok sorted => return .fingerprints (selectSample sorted s.anchor s.count)
  | .error reason => return .unsupported reason

def verdictsOf (reader : ClusterReader) (store : Store) (facts : BackupSetFacts)
    (mapping : ExtTreeMap String String) (answered total : Nat) :
    List SampleSelection → List SelectionArchive → Except DrillError (List SelectionVerdict)
  | [], _ => .ok []
  | s :: _, [] =>
      .error (.operational (s!"probe_archive_modes answered for {answered} of {total} selections; " ++
        s!"refusing to verify a ledger that cannot cover {s.topic}/{s.partition}"))
  | s :: sel, archive :: archives => do
      let v ← verdictForSelection sha256 reader store facts s mapping archive
      return v :: (← verdictsOf reader store facts mapping answered total sel archives)

def ledgerOf (archived : ArchiveReader) (reader : ClusterReader) (store : Store)
    (facts : BackupSetFacts) (mapping : ExtTreeMap String String) (sel : List SampleSelection) :
    Except DrillError (List SelectionVerdict) := do
  refuseIf (sel = []) (.operational ("phase7_verify::run called with zero sample selections; a " ++
    "fingerprint comparison over an empty set would report a pass that means nothing"))
  let archives ← sel.mapM (probeArchiveMode archived)
  verdictsOf sha256 reader store facts mapping archives.length sel.length sel archives

end

inductive IntegrityLevel where
  | byteFingerprint
  | consumeOnly
  | notAttempted
deriving DecidableEq

inductive IntegrityResult where
  | pass
  | partial_
  | fail
deriving DecidableEq

structure Doubles where
  Double : Type
  isFinite : Double → Bool
  /-- The quotient of two counts. -/
  ratio : Nat → Nat → Double
  /-- `got + f64::EPSILON >= want`. -/
  reaches : Double → Double → Bool
  ratio_finite : ∀ m n, 0 < n → isFinite (ratio m n) = true

structure Integrity (D : Doubles) where
  level : IntegrityLevel
  result : IntegrityResult
  partialReason : Option String
  recordsSampled : Nat
  recordsSampledMatching : Nat
  mismatches : Nat
  passRateMeasured : Option D.Double

end Logweir.Sampled

namespace Logweir.Complete

def Evidence.isFailed : Evidence → Bool
  | .failed _ => true
  | _ => false

def Evidence.isUnverified : Evidence → Bool
  | .unverified _ => true
  | _ => false

def Evidence.why : Evidence → Option String
  | .verified _ => none
  | .failed why => some why
  | .unverified why => some why

namespace SelectionVerdict

variable (v : SelectionVerdict)

def failed : Bool := v.segments.isFailed || v.records.isFailed

def fullyVerified : Bool := v.segments.isVerified && v.records.isVerified

def recordsConclusive : Bool := !v.records.isUnverified

def notes : List String :=
  (v.downgrade.map fun reason => v.id ++ ": archive fingerprints unavailable (" ++ reason ++
    "); this selection makes no per-record integrity claim").toList ++
  ([v.segments.why, v.records.why].filterMap fun why => why).map fun why => v.id ++ ": " ++ why

end SelectionVerdict

end Logweir.Complete

namespace Logweir.Sampled

open Logweir.Complete

variable (D : Doubles)

def rollUpNothing (countBound : Option String) : Integrity D where
  level := .notAttempted
  result := if countBound.isSome then .fail else .partial_
  partialReason := some (String.intercalate "; "
    (("no selection produced a verdict; a verification that examined nothing can never report a pass")
      :: countBound.toList))
  recordsSampled := 0
  recordsSampledMatching := 0
  mismatches := 0
  passRateMeasured := none

def resultOf (verdicts : List SelectionVerdict) (countBound : Option String) : IntegrityResult :=
  if countBound.isSome || verdicts.any SelectionVerdict.failed then .fail
  else if !verdicts.isEmpty && verdicts.all SelectionVerdict.fullyVerified then .pass
  else .partial_

def levelOf (verdicts : List SelectionVerdict) : IntegrityLevel :=
  if verdicts.any fun v => v.downgrade.isSome then .consumeOnly else .byteFingerprint

def sampledOf (verdicts : List SelectionVerdict) : Nat :=
  ((verdicts.filterMap SelectionVerdict.reconciled).map Prod.fst).sum

def matchingOf (verdicts : List SelectionVerdict) : Nat :=
  ((verdicts.filterMap SelectionVerdict.reconciled).map Prod.snd).sum

def byteLevelNote (verdicts : List SelectionVerdict) : List String :=
  let byteLevel := (verdicts.filter fun v => v.downgrade.isNone && v.reconciled.isSome).map
    SelectionVerdict.id
  if levelOf verdicts = .consumeOnly ∧ byteLevel ≠ [] then
    ["byte-fingerprint reconciliation WAS established for " ++ String.intercalate ", " byteLevel ++
      " — one selection's unsupported archive does not erase that; `level` reports the weakest " ++
      "claim any selection could support, never the strongest"]
  else []

def notesOf (verdicts : List SelectionVerdict) (countBound : Option String) : List String :=
  countBound.toList ++ verdicts.flatMap SelectionVerdict.notes ++ byteLevelNote verdicts

/-- `roll_up`: the only place where a result is decided. -/
def rollUp (verdicts : List SelectionVerdict) (countBound : Option String) : Integrity D :=
  if verdicts = [] then rollUpNothing D countBound
  else
    let level := levelOf verdicts
    let result := resultOf verdicts countBound
    let sampled := sampledOf verdicts
    let matching := matchingOf verdicts
    let notes := notesOf verdicts countBound
    let notes :=
      if result = .partial_ ∧ notes = [] then ["at least one selection produced no positive evidence"]
      else notes
    { level
      result
      partialReason := if notes = [] then none else some (String.intercalate "; " notes)
      recordsSampled := sampled
      recordsSampledMatching := matching
      mismatches := sampled - matching
      passRateMeasured :=
        if level = .byteFingerprint ∧ verdicts.all SelectionVerdict.recordsConclusive ∧ 0 < sampled then
          some (D.ratio matching sampled)
        else none }

end Logweir.Sampled
