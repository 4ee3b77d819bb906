import Std.Data.ExtTreeMap

/-!
# The backup receipt

`logweir_core::backup_receipt::BackupReceipt` and the blocks it holds: the document a
backup is known by.  Instants are nanoseconds since the epoch.
-/

set_option autoImplicit false

namespace Logweir.Receipt

open Std (ExtTreeMap)

structure TopicIdentity where
  topicId : Option String
  topicIdAfter : Option String
  topicIdSource : Option String
  topicIdReason : Option String
  topicIdAfterReason : Option String
deriving DecidableEq

structure SideFraming where
  dependent : Bool
  framed : Nat
  unframed : Nat
  nulls : Nat
  schemaIds : List Nat
  schemaIdCount : Nat
deriving DecidableEq

structure TopicSchemaDependency where
  verdict : String
  reason : Option String
  basis : Option String
  key : Option SideFraming
  value : Option SideFraming
deriving DecidableEq

structure EffectiveConfigValue where
  value : String
  source : String
deriving DecidableEq

structure TopicConfigCoverage where
  coverage : String
  reason : Option String
  timestampType : Option EffectiveConfigValue
deriving DecidableEq

structure ConfigEntry where
  value : Option String
  source : String
  portability : String
deriving DecidableEq

structure TopicOwner where
  kind : String
  basis : String
  reference : String
deriving DecidableEq

structure TopicConfiguration where
  partitions : Option Nat
  replicationFactor : Option Nat
  entries : Option (ExtTreeMap String ConfigEntry)
  owner : Option TopicOwner
deriving DecidableEq

structure PositionCounts where
  related : Nat
  notRelated : Nat
  neverCommitted : Nat
  beyondEnd : Nat
  failed : Nat
  notObserved : Nat
deriving DecidableEq

structure DocumentRef where
  key : String
  sha256 : String
  bytes : Nat
deriving DecidableEq

structure GroupSnapshot where
  outcome : String
  reason : Option String
  groupType : Option String
  state : Option String
  listedState : Option String
  members : Option Nat
  active : Option Bool
  counts : Option PositionCounts
deriving DecidableEq

structure ConsumerPositions where
  observedFrom : Int
  observedTo : Int
  listing : String
  document : DocumentRef
  groups : ExtTreeMap String GroupSnapshot
deriving DecidableEq

structure ReceiptSchemaRegistry where
  captured : Bool
  reason : Option String
  snapshotKey : Option String
  snapshotSha256 : Option String
  subjects : Nat
  versions : Nat
  unresolvedReferences : List String
  idsNotInSnapshot : List Nat
deriving DecidableEq

def ReceiptSchemaRegistry.incompleteReason (block : ReceiptSchemaRegistry) : Option String :=
  match block.reason with
  | some reason => some reason
  | none =>
    if !block.unresolvedReferences.isEmpty then some "unresolvedReferences"
    else if !block.idsNotInSnapshot.isEmpty then some "idsNotInSnapshot"
    else none

structure PointSchemaRegistry where
  captured : Bool
  subjects : Nat
  versions : Nat
  incompleteReason : Option String
deriving DecidableEq, Repr

def PointSchemaRegistry.of (block : ReceiptSchemaRegistry) : PointSchemaRegistry :=
  { captured := block.captured
    subjects := block.subjects
    versions := block.versions
    incompleteReason := block.incompleteReason }

structure ReceiptAuth where
  mode : String
  username : Option String
deriving DecidableEq

structure ReceiptSource where
  clusterId : String
  bootstrapServers : List String
  auth : ReceiptAuth
  topics : List String
deriving DecidableEq

structure ReceiptEngine where
  id : String
  version : String
  digest : String
deriving DecidableEq

structure ReceiptArchive where
  manifestKey : String
  manifestSha256 : String
  manifestVersionId : Option String
  pathPrefix : String
deriving DecidableEq

structure ReceiptCovered where
  fromMs : Int
  toMs : Int
deriving DecidableEq

structure BackupReceipt where
  formatVersion : String
  runId : String
  backupId : String
  requestedAt : Int
  startedAt : Int
  finishedAt : Int
  exitCode : Int
  triggeredBy : String
  source : ReceiptSource
  engine : ReceiptEngine
  archive : ReceiptArchive
  records : ExtTreeMap String Nat
  covered : ReceiptCovered
  configCoverage : Option (ExtTreeMap String TopicConfigCoverage)
  topicConfiguration : Option (ExtTreeMap String TopicConfiguration)
  ownerDetection : Option (List String)
  schemaDependency : Option (ExtTreeMap String TopicSchemaDependency)
  generations : Option (ExtTreeMap String TopicIdentity)
  consumerPositions : Option ConsumerPositions
  sourceWatermarks : Option (ExtTreeMap String (List (Nat × Nat)))
  schemaRegistry : Option ReceiptSchemaRegistry
deriving DecidableEq

end Logweir.Receipt
