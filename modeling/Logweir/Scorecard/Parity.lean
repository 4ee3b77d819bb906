import Logweir.Drill.Reconcile
import Logweir.Verify.Complete
import Mathlib.Data.List.Sort

/-!
# Topic parity

`classify_parity` and `classify_parity_all` of `drill::phase7_verify`, and the key
`logweir_core::scorecard` reads off an entry.  The target's mode decides whether a deviation is
intended or a source setting the restore did not reconstruct.
-/

set_option autoImplicit false

namespace Logweir.Scored

open Std (ExtTreeMap)
open Logweir.Drill (TargetMode)
open Logweir.Complete (DrillError)

def decidedByTheRestore : List String := ["cleanup.policy", "retention.ms"]

def partitionCount : String := "partition_count"

def replicationFactor : String := "replication_factor"

structure ParityClasses where
  intended : List String
  unexpected : List String
  notReconstructed : List String
  notAssessed : List String
deriving DecidableEq

def differing (source target : ExtTreeMap String String) : List String :=
  (source.toList.filter fun entry => target[entry.1]? ≠ some entry.2).map Prod.fst

def recorded (n : Option Int) : Option Int := n.filter fun n => decide (1 ≤ n)

def sorted (l : List String) : List String := l.insertionSort (· ≤ ·)

def byConstruction (source target : ExtTreeMap String String) (srcPartitions : Option Int)
    (tgtPartitions : Int) (srcRf : Option Int) (tgtRf : Int) : List String :=
  sorted ((differing source target).filter (fun k => decide (k ∈ decidedByTheRestore)) ++
    (if (recorded srcPartitions).any fun n => n ≠ tgtPartitions then [partitionCount] else []) ++
    (if (recorded srcRf).any fun n => n ≠ tgtRf then [replicationFactor] else []))

/-- `classify_parity`. -/
def classifyParity (mode : TargetMode) (source target : ExtTreeMap String String)
    (srcPartitions : Option Int) (tgtPartitions : Int) (srcRf : Option Int) (tgtRf : Int) :
    ParityClasses :=
  let decided := byConstruction source target srcPartitions tgtPartitions srcRf tgtRf
  let unexpected := (differing source target).filter fun k => decide (k ∉ decidedByTheRestore)
  let notAssessed :=
    (if (recorded srcPartitions).isNone then [partitionCount] else []) ++
      (if (recorded srcRf).isNone then [replicationFactor] else [])
  match mode with
  | .scratch => ⟨decided, sorted unexpected, [], notAssessed⟩
  -- Moved, never dropped: an older reader sees the same deviation as unexpected.
  | .newTopic => ⟨[], sorted (unexpected ++ decided), decided, notAssessed⟩

inductive ConfigCoverage where
  | captured
  | notCaptured
  | captureDenied
  | unknown
deriving DecidableEq

def ConfigCoverage.wireName : ConfigCoverage → String
  | .captured => "captured"
  | .notCaptured => "notCaptured"
  | .captureDenied => "captureDenied"
  | .unknown => "unknown"

structure SourceConfigCoverage where
  of : String → ConfigCoverage
  replicationFactor : String → Option Int

structure ArchivedTopic where
  name : String
  configurations : ExtTreeMap String String
  originalPartitionCount : Option Int
  sourceReplicationFactor : Option Int

inductive KafkaError where
  | notAuthorized (what : String)
  | other (message : String)
deriving DecidableEq

def KafkaError.text : KafkaError → String
  | .notAuthorized what => "not authorized: " ++ what
  | .other message => message

structure ParityReader where
  topicConfigs : String → Except KafkaError (ExtTreeMap String String)
  endOffsets : String → Except KafkaError (List (Int × Int))
  replicationFactors : List String → Except KafkaError (ExtTreeMap String Nat)

structure TopicParity where
  intentionallyDeviated : List String
  unexpectedDivergence : List String
  notAssessed : Option (List String)
  notReconstructed : Option (List String)
deriving DecidableEq

def notAssessedTargetReadDenied : String := "targetReadDenied"

def notAssessedNotRecorded : String := "notRecorded"

def configuration : String := "configuration"

def notAssessedEntry (topic what why : String) : String := topic ++ ": " ++ (what ++ " (" ++ why ++ ")")

def notAssessedTwin (topic what why : String) : String :=
  topic ++ ": " ++ (what ++ " not assessed (" ++ why ++ ")")

def targetConfigs (reader : ParityReader) (tgt : String) :
    Except DrillError (Option (ExtTreeMap String String)) :=
  match reader.topicConfigs tgt with
  | .ok cfg => .ok (some cfg)
  | .error (.notAuthorized _) => .ok none
  | .error e => .error (.kafka e.text)

def unassessed (coverage : ConfigCoverage) (targetRead : Bool) : Option String :=
  if coverage = .captured then if targetRead then none else some notAssessedTargetReadDenied
  else some coverage.wireName

/-- `i16::try_from`. -/
def asI16 (n : Int) : Option Int := if -32768 ≤ n ∧ n < 32768 then some n else none

structure MappedTopic where
  target : String
  /-- Why its configuration is not assessed, where it is not. -/
  why : Option String
  sourceCfg : ExtTreeMap String String
  targetCfg : ExtTreeMap String String
  srcPartitions : Option Int
  tgtPartitions : Int
  srcRf : Option Int
  tgtRf : Int

namespace MappedTopic

variable (m : MappedTopic)

def classes (mode : TargetMode) : ParityClasses :=
  classifyParity mode m.sourceCfg m.targetCfg m.srcPartitions m.tgtPartitions m.srcRf m.tgtRf

def entry (key : String) : String := m.target ++ ": " ++ key

def parity (mode : TargetMode) : TopicParity :=
  let classes := m.classes mode
  { intentionallyDeviated := classes.intended.map m.entry
    unexpectedDivergence :=
      (m.why.map fun why => notAssessedTwin m.target configuration why).toList ++
        classes.unexpected.map m.entry ++
        classes.notAssessed.map fun key => notAssessedTwin m.target key notAssessedNotRecorded
    notAssessed := some
      ((m.why.map fun why => notAssessedEntry m.target configuration why).toList ++
        classes.notAssessed.map fun key => notAssessedEntry m.target key notAssessedNotRecorded)
    notReconstructed := some (classes.notReconstructed.map m.entry) }

end MappedTopic

section

variable (facts : List ArchivedTopic) (reader : ParityReader) (defaultRf : Int)
  (coverage : SourceConfigCoverage)

def readMapped (pair : String × String) : Except DrillError MappedTopic := do
  let (src, tgt) := pair
  match facts.find? fun t => t.name = src with
  | none => .error (.operational
      ("topic parity check: no archive facts for mapped source topic `" ++ src ++ "`"))
  | some t =>
      let targetCfg ← targetConfigs reader tgt
      let offsets ← (reader.endOffsets tgt).mapError fun e => DrillError.kafka e.text
      let factors ← (reader.replicationFactors [tgt]).mapError fun e => DrillError.kafka e.text
      return {
        target := tgt
        why := unassessed (coverage.of src) targetCfg.isSome
        -- Nothing to compare the archive's record against where the read was refused.
        sourceCfg := if targetCfg.isSome then t.configurations else ∅
        targetCfg := targetCfg.getD ∅
        srcPartitions := t.originalPartitionCount
        tgtPartitions := offsets.length
        srcRf := t.sourceReplicationFactor.or ((coverage.replicationFactor src).bind asI16)
        tgtRf := ((factors[tgt]?).bind fun f => asI16 f).getD defaultRf }

def readMappedTopics (mapping : ExtTreeMap String String) : Except DrillError (List MappedTopic) :=
  if mapping.toList = [] then
    .error (.operational ("topic parity check ran with zero mapped topics; refusing to report " ++
      "agreement over an empty set"))
  else mapping.toList.mapM (readMapped facts reader defaultRf coverage)

def joinParity (each : List TopicParity) : TopicParity where
  intentionallyDeviated := sorted (each.flatMap fun p => p.intentionallyDeviated)
  unexpectedDivergence := sorted (each.flatMap fun p => p.unexpectedDivergence)
  notAssessed := some (sorted (each.flatMap fun p => p.notAssessed.getD []))
  notReconstructed := some (sorted (each.flatMap fun p => p.notReconstructed.getD []))

/-- `classify_parity_all`. -/
def classifyParityAll (mapping : ExtTreeMap String String) (mode : TargetMode) :
    Except DrillError TopicParity := do
  let topics ← readMappedTopics facts reader defaultRf coverage mapping
  return joinParity (topics.map fun m => m.parity mode)

end

end Logweir.Scored
