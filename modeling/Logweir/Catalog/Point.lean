import Logweir.Library.Text
import Logweir.Receipt.Document

/-!
# The catalog point record

`logweir::catalog::record` and `catalog::writer`.  A record is a projection of one
signed receipt: every fact is copied, a block the receipt does not carry stays absent,
and the identity is the digest of the receipt's exact bytes.
-/

set_option autoImplicit false

namespace Logweir.Catalog

open Std (ExtTreeMap)
open Logweir.Receipt

structure RecordReceipt where
  key : String
  sha256 : String
  sidecarKey : String
  payloadType : String
deriving DecidableEq

structure RecordArchive where
  locationId : String
  manifestKey : String
  manifestSha256 : String
  manifestVersionId : Option String
  pathPrefix : String
deriving DecidableEq

structure RecordCovered where
  fromMs : Int
  toMs : Int
deriving DecidableEq

structure RecordCapture where
  startedAt : Int
  finishedAt : Int
deriving DecidableEq

structure RecordTopic where
  name : String
  partitions : Option Nat
  records : Nat
  configCoverage : Option TopicConfigCoverage
  configuration : Option TopicConfiguration
  schemaDependency : Option TopicSchemaDependency
  identity : Option TopicIdentity
deriving DecidableEq

structure RecordSource where
  clusterId : String
  bootstrapServers : List String
  authMode : String
deriving DecidableEq

structure RecordSchedule where
  name : Option String
  uid : Option String
  slot : Option String
deriving DecidableEq

structure RecordExecution where
  kind : Option String
  namespace_ : Option String
  name : Option String
  uid : Option String
  executionId : Option String
  inputsSha256 : Option String
  schedule : Option RecordSchedule
  triggeredBy : Option String
deriving DecidableEq

def RecordExecution.empty : RecordExecution :=
  { kind := none, namespace_ := none, name := none, uid := none, executionId := none
    inputsSha256 := none, schedule := none, triggeredBy := none }

structure RecordSigning where
  keyId : String
  algorithm : String
deriving DecidableEq

structure RecordInstallation where
  keyId : String
deriving DecidableEq

structure RecordGroup where
  groupId : String
  outcome : String
  reason : Option String
  groupType : Option String
  active : Option Bool
  positions : Option PositionCounts
deriving DecidableEq

structure RecordConsumerPositions where
  sha256 : String
  observedFrom : Int
  observedTo : Int
  listing : String
  groups : List RecordGroup
deriving DecidableEq

structure CatalogPoint where
  formatVersion : String
  pointId : String
  recordedAt : Int
  receipt : RecordReceipt
  backupId : String
  runId : String
  archive : RecordArchive
  covered : RecordCovered
  capture : RecordCapture
  topics : List RecordTopic
  ownerDetection : Option (List String)
  source : RecordSource
  execution : Option RecordExecution
  signing : RecordSigning
  installation : Option RecordInstallation
  consumerPositions : Option RecordConsumerPositions
  schemaRegistry : Option PointSchemaRegistry
deriving DecidableEq

structure Crates where
  sha256Hex : List UInt8 → String
  /-- `ConsumerPositions::digest`, over the block's deterministic JSON. -/
  positionsDigest : ConsumerPositions → Except String String
  rfc3339 : Int → String

variable (crates : Crates)

def sha256Prefixed (bytes : List UInt8) : String := "sha256:" ++ crates.sha256Hex bytes

def pointIdPrefix : String := "lwp1-"

def pointId (receiptBytes : List UInt8) : String :=
  pointIdPrefix ++ String.ofList ((crates.sha256Hex receiptBytes).toList.take 32)

def RecordGroup.of (id : String) (g : GroupSnapshot) : RecordGroup :=
  { groupId := id
    outcome := g.outcome
    reason := g.reason
    groupType := g.groupType
    active := g.active
    positions := g.counts }

def RecordConsumerPositions.of (block : ConsumerPositions) :
    Except String RecordConsumerPositions := do
  let sha256 ← crates.positionsDigest block
  return {
    sha256
    observedFrom := block.observedFrom
    observedTo := block.observedTo
    listing := block.listing
    groups := block.groups.toList.map fun e => RecordGroup.of e.1 e.2 }

structure RecordInputs where
  receiptKey : String
  sidecarKey : String
  locationId : String
  recordedAt : Int
  signing : RecordSigning
  installation : Option RecordInstallation
  execution : Option RecordExecution

def payloadTypeBackupReceipt : String := 
  "application/vnd.logweir.backup-receipt+json;version=1.0.0"

def prod013AuthModes : List String := ["scramSha256", "plain", "mtls"]

def executionBlock (receipt : BackupReceipt) (inputs : RecordInputs) : Option RecordExecution :=
  let block := inputs.execution.getD .empty
  let block :=
    if block.triggeredBy.isNone ∧ ¬ (Text.trim receipt.triggeredBy).isEmpty then
      { block with triggeredBy := some receipt.triggeredBy }
    else block
  if block = .empty then none else some block

def projectTopic (receipt : BackupReceipt) (name : String) (records : Nat) : RecordTopic :=
  let configuration := receipt.topicConfiguration.bind fun block => block[name]?
  { name
    partitions := configuration.bind fun c => c.partitions
    records
    configCoverage := receipt.configCoverage.bind fun block => block[name]?
    configuration
    schemaDependency := receipt.schemaDependency.bind fun block => block[name]?
    identity := receipt.generations.bind fun block => block[name]? }

def recordFormatVersion (receipt : BackupReceipt) : String :=
  if receipt.schemaRegistry.isSome then "1.8.0"
  else if receipt.consumerPositions.isSome then "1.7.0"
  else if receipt.generations.isSome then "1.6.0"
  else if receipt.schemaDependency.isSome then "1.5.0"
  else if prod013AuthModes.contains receipt.source.auth.mode then "1.4.0"
  else if receipt.topicConfiguration.isSome then "1.3.0"
  else if receipt.archive.manifestVersionId.isSome then "1.2.0"
  else "1.1.0"

def recordPositions (receipt : BackupReceipt) :
    Except String (Option RecordConsumerPositions) :=
  match receipt.consumerPositions with
  | none => .ok none
  | some block => (RecordConsumerPositions.of crates block).map some

/-- Every field copied, nothing decided. -/
def record (receipt : BackupReceipt) (receiptBytes : List UInt8) (inputs : RecordInputs)
    (consumerPositions : Option RecordConsumerPositions) : CatalogPoint :=
  { formatVersion := recordFormatVersion receipt
    pointId := pointId crates receiptBytes
    recordedAt := inputs.recordedAt
    receipt :=
      { key := inputs.receiptKey
        sha256 := sha256Prefixed crates receiptBytes
        sidecarKey := inputs.sidecarKey
        payloadType := payloadTypeBackupReceipt }
    backupId := receipt.backupId
    runId := receipt.runId
    archive :=
      { locationId := inputs.locationId
        manifestKey := receipt.archive.manifestKey
        manifestSha256 := receipt.archive.manifestSha256
        manifestVersionId := receipt.archive.manifestVersionId
        pathPrefix := receipt.archive.pathPrefix }
    covered := { fromMs := receipt.covered.fromMs, toMs := receipt.covered.toMs }
    capture := { startedAt := receipt.startedAt, finishedAt := receipt.finishedAt }
    topics := receipt.records.toList.map fun e => projectTopic receipt e.1 e.2
    ownerDetection := receipt.ownerDetection
    source :=
      { clusterId := receipt.source.clusterId
        bootstrapServers := receipt.source.bootstrapServers
        authMode := receipt.source.auth.mode }
    execution := executionBlock receipt inputs
    signing := inputs.signing
    installation := inputs.installation
    consumerPositions
    schemaRegistry := receipt.schemaRegistry.map PointSchemaRegistry.of }

/-- `writer::project`. -/
def project (receipt : BackupReceipt) (receiptBytes : List UInt8) (inputs : RecordInputs) :
    Except String CatalogPoint :=
  (recordPositions crates receipt).map (record crates receipt receiptBytes inputs)

end Logweir.Catalog
