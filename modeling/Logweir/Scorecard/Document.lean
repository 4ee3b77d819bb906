import Logweir.Library.Fields
import Logweir.Scorecard.Parity
import Logweir.Verify.Sampled

/-!
# The scorecard and its invariants

`logweir_core::scorecard`: a document without its optional blocks, and `validateInvariants`, the
checks it passes before it is signed, in the order the readers report them.
-/

set_option autoImplicit false

namespace Logweir.Scored

open Logweir.Drill (TargetMode)
open Logweir.Text Logweir.Results
open Logweir.Sampled (Doubles Integrity IntegrityLevel IntegrityResult)

inductive Outcome where
  | pass
  | failObjective
  | failIntegrity
  | preflightFailed
deriving DecidableEq

def Outcome.wireName : Outcome → String
  | .pass => "pass"
  | .failObjective => "fail-objective"
  | .failIntegrity => "fail-integrity"
  | .preflightFailed => "preflight-failed"

inductive MatrixVerdict where
  | pass
  | passDegraded
  | fail
  | failLeverNotHonoured
  | unsupportedLeverAbsent
deriving DecidableEq

structure Measured where
  rtoSeconds : Option Nat
  rtoRequestedToVerifiedSeconds : Option Nat
  rtoRestoreOnlySeconds : Option Nat
  rtoExcludingPreflightSeconds : Option Nat
  rpoSeconds : Option Int
  rpoSourceRelativeSeconds : Option Int
  rpoSourceRelativeUnmeasuredReason : Option String
deriving DecidableEq

structure Objectives (D : Doubles) where
  rtoSeconds : Option Nat
  rpoSeconds : Option Int
  passRate : Option D.Double
  met : Option Bool

structure EvidenceInfo where
  versionId : Option String
  retainUntil : Option Int
  immutable : Bool
  createOnlyEnforced : Bool
  offsetReportKey : Option String
  offsetReportSha256 : Option String
deriving DecidableEq

structure SampleInfo where
  windowStart : Int
  windowEnd : Int
  topics : Nat
  partitions : Nat
  recordsExpected : Nat
  recordsRestored : Nat
deriving DecidableEq

structure Scorecard (D : Doubles) where
  formatVersion : String
  outcome : Outcome
  lastPhaseCompleted : Int
  matrixVerdict : MatrixVerdict
  matrixVerdictReason : Option String
  capturedByLogweir : Bool
  mode : TargetMode
  markerTopic : Option String
  measured : Measured
  objectives : Objectives D
  sample : SampleInfo
  integrity : Integrity D
  topicParity : TopicParity
  evidence : EvidenceInfo
  redactions : List String

def majorVersion (v : String) : Option Nat := ((split '.' v)[0]?).bind (parseUnsigned 64)

def minorVersion (v : String) : Option Nat := ((split '.' v)[1]?).bind (parseUnsigned 64)

def partitionSubsetsMajor : Nat := 2

def formatVersionWithPartitionSubsets : String := "2.0.0"

def definesFormat1Minor (v : String) (sinceMinor : Nat) : Bool :=
  if majorVersion v = some 1 then (minorVersion v).any fun minor => decide (sinceMinor ≤ minor)
  else decide (majorVersion v = some partitionSubsetsMajor)

def knownMajor (v : String) : Bool :=
  decide (majorVersion v = some 1 ∨ majorVersion v = some partitionSubsetsMajor)

variable {D : Doubles} (sc : Scorecard D)

def blank (text : Option String) : Bool := trim (text.getD "") = ""

def refuseUnreadableMajor : Except String Unit :=
  match majorVersion sc.formatVersion with
  | none => .error ("format_version " ++ debug sc.formatVersion ++ " is not a parseable semver")
  | some major => do
      refuseIf (partitionSubsetsMajor < major)
        ("format_version " ++ sc.formatVersion ++ " has a major version newer than this reader " ++
          "understands (this build knows " ++ formatVersionWithPartitionSubsets ++ ")")
      -- PS-1: no optional block, so no `source.selection.partitions`.
      refuseIf (major = partitionSubsetsMajor)
        ("format_version " ++ sc.formatVersion ++ " is the format of a partition-subset restore, " ++
          "and this document carries no source.selection.partitions; a reader reads major " ++
          toString partitionSubsetsMajor ++ " only for that shape")

/-- The four post-put fields, the offset report's pair and the scratch marker, of a document
whose major this build reads. -/
def evidenceArms : Except String Unit := do
  let zeroed := " but the four post-put fields are zeroed before signing"
  refuseIf sc.evidence.versionId.isSome ("evidence.version_id is set" ++ zeroed)
  refuseIf sc.evidence.retainUntil.isSome ("evidence.retain_until is set" ++ zeroed)
  refuseIf sc.evidence.immutable ("evidence.immutable is true" ++ zeroed)
  refuseIf sc.evidence.createOnlyEnforced ("evidence.create_only_enforced is true" ++ zeroed)
  refuseIf (blank sc.evidence.offsetReportKey ≠ blank sc.evidence.offsetReportSha256)
    ("evidence.offset_report_key and evidence.offset_report_sha256 are present or absent " ++
      "together; a key with no digest names bytes nothing binds, and a digest with no key binds " ++
      "bytes nobody can fetch")
  refuseIf (blank sc.markerTopic ∧ sc.mode = .scratch)
    ("target.marker_topic is absent but target.mode is scratch; the marker topic is the " ++
      "segregation proof phase 0 verified, and a scratch document that omits it claims a check " ++
      "nothing recorded")

def knownMajorArms : Except String Unit :=
  if knownMajor sc.formatVersion then evidenceArms sc else .ok ()

def finiteArms : Except String Unit := do
  refuseIf (sc.objectives.passRate.any fun rate => !D.isFinite rate)
    "objectives.pass_rate is not finite (NaN or +/-Inf)"
  refuseIf (sc.integrity.passRateMeasured.any fun rate => !D.isFinite rate)
    "integrity.pass_rate_measured is not finite (NaN or +/-Inf)"

def capturedArms : Except String Unit :=
  if sc.capturedByLogweir then do
    refuseIf (sc.lastPhaseCompleted < -1)
      "source.captured_by_logweir is true but last_phase_completed is below -1"
    refuseIf sc.measured.rpoSourceRelativeSeconds.isNone
      "source.captured_by_logweir is true but rpo_source_relative_seconds is null"
    refuseIf sc.measured.rpoSourceRelativeUnmeasuredReason.isSome
      "source.captured_by_logweir is true but an unmeasured reason is present"
  else do
    refuseIf sc.measured.rpoSourceRelativeSeconds.isSome
      "rpo_source_relative_seconds is set but the source was never contacted"
    refuseIf sc.measured.rpoSourceRelativeUnmeasuredReason.isNone
      ("source.captured_by_logweir is false but rpo_source_relative_unmeasured_reason is null")

def notNegative (name : String) (value : Option Int) : Except String Unit :=
  match value with
  | none => .ok ()
  | some v =>
      refuseIf (v < 0)
        (name ++ " is negative (" ++ toString v ++ "); a recovery-point gap of less than zero is " ++
          "not a smaller gap, it is a meaningless one")

def gapArms : Except String Unit := do
  notNegative "measured.rpo_seconds" sc.measured.rpoSeconds
  notNegative "measured.rpo_source_relative_seconds" sc.measured.rpoSourceRelativeSeconds
  notNegative "objectives.rpo_seconds" sc.objectives.rpoSeconds

def outcomeArms : Except String Unit := do
  refuseIf (sc.outcome = .pass ∧ sc.integrity.result ≠ .pass)
    "outcome is 'pass' but integrity.result is not 'pass'"
  refuseIf (sc.outcome = .pass ∧ blank sc.integrity.partialReason = false)
    "outcome is 'pass' but integrity.partial_reason is present"
  refuseIf (sc.outcome = .pass ∧ sc.objectives.met = some false)
    "outcome is 'pass' but objectives.met is false"
  refuseIf (sc.outcome = .pass ∧
      sc.integrity.recordsSampledMatching ≠ sc.integrity.recordsSampled)
    ("outcome is 'pass' but only " ++ toString sc.integrity.recordsSampledMatching ++ " of " ++
      toString sc.integrity.recordsSampled ++ " sampled records matched")
  refuseIf (sc.sample.recordsExpected < sc.integrity.recordsSampled)
    ("records_sampled (" ++ toString sc.integrity.recordsSampled ++
      ") exceeds sample.records_expected (" ++ toString sc.sample.recordsExpected ++ ")")

def matrixArms : Except String Unit := do
  refuseIf (sc.matrixVerdict = .pass ∧
      ¬ (sc.outcome = .pass ∧ sc.integrity.level = .byteFingerprint))
    "engine.matrix_verdict is 'pass' but the drill did not pass at byte-fingerprint level"
  refuseIf (sc.matrixVerdict = .fail ∧ sc.matrixVerdictReason.isNone)
    "engine.matrix_verdict is 'fail' but matrix_verdict_reason is null"
  refuseIf (sc.integrity.level ≠ .byteFingerprint ∧ sc.integrity.passRateMeasured.isSome)
    "integrity.pass_rate_measured is set but the level is not byte-fingerprint"
  refuseIf (¬ (-1 ≤ sc.lastPhaseCompleted ∧ sc.lastPhaseCompleted ≤ 9))
    "last_phase_completed outside -1..=9"

def restoreDecidedSettings : List String :=
  ["cleanup.policy", "partition_count", "replication_factor", "retention.ms"]

def afterSeparator : List Char → Option (List Char)
  | ':' :: ' ' :: rest => some ((afterSeparator (' ' :: rest)).getD rest)
  | _ :: rest => afterSeparator rest
  | [] => none

def parityKey (entry : String) : String :=
  ((afterSeparator entry.toList).map String.ofList).getD entry

def notReconstructedSinceMinor : Nat := 2

/-- NR-1 to NR-5, of a document that carries the list. -/
def parityArms : Except String Unit :=
  match sc.topicParity.notReconstructed with
  | none => .ok ()
  | some notReconstructed => do
      refuseIf (definesFormat1Minor sc.formatVersion notReconstructedSinceMinor = false)
        ("topic_parity.not_reconstructed is present but format_version " ++ debug sc.formatVersion ++
          " predates it: the field is defined from 1." ++ toString notReconstructedSinceMinor ++ ".0")
      refuseIf (notReconstructed.any fun e => decide (e ∉ sc.topicParity.unexpectedDivergence))
        ("topic_parity.not_reconstructed names a deviation that unexpected_divergence does not; a " ++
          "source setting the restore did not reconstruct is also an unexpected divergence, so a " ++
          "reader that predates not_reconstructed never reads it as parity")
      refuseIf (notReconstructed.any fun e => decide (e ∈ sc.topicParity.intentionallyDeviated))
        ("topic_parity.not_reconstructed names a deviation that intentionally_deviated also names; " ++
          "a source setting the restore did not reconstruct is never an intended deviation")
      refuseIf (sc.mode = .newTopic ∧ sc.topicParity.intentionallyDeviated ≠ [])
        ("topic_parity.intentionally_deviated is not empty in a newTopic document that carries " ++
          "not_reconstructed; a newTopic restore's deviations are source settings it did not " ++
          "reconstruct, never intended ones")
      refuseIf (sc.mode = .newTopic ∧ sc.topicParity.unexpectedDivergence.any fun e =>
          decide (parityKey e ∈ restoreDecidedSettings) && decide (e ∉ notReconstructed))
        ("topic_parity.unexpected_divergence names a setting the restore decides (cleanup.policy, " ++
          "retention.ms, partition_count or replication_factor) that not_reconstructed does not, " ++
          "in a newTopic document; such a deviation is a source setting the restore did not " ++
          "reconstruct")

/-- `Scorecard::validate_invariants`. -/
def validateInvariants : Except String Unit := do
  refuseUnreadableMajor sc
  knownMajorArms sc
  refuseIf (sc.integrity.result = .partial_ ∧ blank sc.integrity.partialReason)
    "integrity.result is 'partial' but partial_reason is null"
  finiteArms sc
  capturedArms sc
  refuseIf (sc.integrity.level ≠ .byteFingerprint ∧ sc.objectives.passRate.isSome ∧
      sc.objectives.met = some true)
    "objectives.met must be null when pass_rate is not measurable"
  gapArms sc
  refuseIf (sc.integrity.recordsSampled < sc.integrity.recordsSampledMatching)
    "records_sampled_matching exceeds records_sampled"
  outcomeArms sc
  matrixArms sc
  parityArms sc
  refuseIf (sc.redactions ≠ [])
    ("redactions is non-empty but format_version " ++ sc.formatVersion ++
      " has no way to produce one; --redact is a v0.1.1 feature")

end Logweir.Scored
