import Std.Data.ExtTreeSet
import Mathlib.Data.List.ReduceOption
import Logweir.Library.Ordered
import Logweir.Library.PartialFacts
import Logweir.Catalog.Point

/-!
# A record against its receipt, and against another record

`logweir::catalog::reader`.  A record's receipt-derived facts are compared with the
verified receipt, the optional ones one way: a record may carry less than its receipt.
Two records of one point are compared with each other on the same facts.
-/

set_option autoImplicit false

namespace Logweir.Catalog

open Std (ExtTreeMap ExtTreeSet)
open Logweir.Receipt
open Logweir.PartialFacts

variable (crates : Crates)

structure ReceiptFacts where
  backupId : String
  runId : String
  coveredFromMs : Int
  coveredToMs : Int
  captureStartedAt : String
  captureFinishedAt : String
  manifestKey : String
  manifestSha256 : String
deriving DecidableEq

def ReceiptFacts.ofRecord (p : CatalogPoint) : ReceiptFacts :=
  { backupId := p.backupId
    runId := p.runId
    coveredFromMs := p.covered.fromMs
    coveredToMs := p.covered.toMs
    captureStartedAt := crates.rfc3339 p.capture.startedAt
    captureFinishedAt := crates.rfc3339 p.capture.finishedAt
    manifestKey := p.archive.manifestKey
    manifestSha256 := p.archive.manifestSha256 }

def ReceiptFacts.ofReceipt (r : BackupReceipt) : ReceiptFacts :=
  { backupId := r.backupId
    runId := r.runId
    coveredFromMs := r.covered.fromMs
    coveredToMs := r.covered.toMs
    captureStartedAt := crates.rfc3339 r.startedAt
    captureFinishedAt := crates.rfc3339 r.finishedAt
    manifestKey := r.archive.manifestKey
    manifestSha256 := r.archive.manifestSha256 }

def cmp (field a b : String) : Option String :=
  if a ≠ b then some (field ++ ": " ++ Text.debug a ++ " vs " ++ Text.debug b) else none

def ReceiptFacts.disagreements (self other : ReceiptFacts) : List String :=
  List.reduceOption
    [ cmp "backup_id" self.backupId other.backupId
    , cmp "run_id" self.runId other.runId
    , cmp "covered.from_ms" (toString self.coveredFromMs) (toString other.coveredFromMs)
    , cmp "covered.to_ms" (toString self.coveredToMs) (toString other.coveredToMs)
    , cmp "capture.started_at" self.captureStartedAt other.captureStartedAt
    , cmp "capture.finished_at" self.captureFinishedAt other.captureFinishedAt
    , cmp "archive.manifest_key" self.manifestKey other.manifestKey
    , cmp "archive.manifest_sha256" self.manifestSha256 other.manifestSha256 ]

def debugNat? : Option Nat → String
  | none => "None"
  | some n => "Some(" ++ toString n ++ ")"

def debugText? : Option String → String
  | none => "None"
  | some s => "Some(" ++ Text.debug s ++ ")"

def debugVec (items : List String) : String := "[" ++ ", ".intercalate items ++ "]"

/-- `topics[…].field: …`. -/
def topicLine (topic field left right : String) : String :=
  "topics[" ++ Text.debug topic ++ "]." ++ field ++ ": " ++ left ++ " vs " ++ right

def orNone {α : Type} (summary : α → String) : Option α → String
  | none => "none in the receipt"
  | some b => summary b

def schemaIdsListed : Nat := 16

/-- `schema_dependency::dependent_ids`: the ids the dependent sides list, merged, and whether
any was left out. -/
def dependentIds (entry : TopicSchemaDependency) : List Nat × Bool :=
  let sides := ([entry.key, entry.value].reduceOption).filter fun side => side.dependent
  let ids := (ExtTreeSet.ofList (sides.flatMap fun side => side.schemaIds)).toList
  (ids.take schemaIdsListed,
    sides.any (fun side => decide (side.schemaIds.length < side.schemaIdCount)) ||
      decide (schemaIdsListed < ids.length))

def dependencySummary (e : TopicSchemaDependency) : String :=
  Text.debug e.verdict ++ " ids " ++ debugVec ((dependentIds e).1.map toString)

def identitySide (id reason : Option String) : String :=
  match id, reason with
  | some id, _ => id
  | none, some reason => "null (" ++ reason ++ ")"
  | none, none => "null"

def identitySummary (i : TopicIdentity) : String :=
  identitySide i.topicId i.topicIdReason ++ " before, " ++
    identitySide i.topicIdAfter i.topicIdAfterReason ++ " after"

def configurationSummary (c : Option TopicConfiguration) : String :=
  match c with
  | none => "none"
  | some c =>
      "partitions " ++ debugNat? c.partitions ++ ", replication factor " ++
        debugNat? c.replicationFactor ++ ", " ++
        (match c.entries with
          | none => "no"
          | some e => toString e.size) ++
        " entries, owner " ++ debugText? (c.owner.map fun o => o.kind)

def coverageSummary (c : TopicConfigCoverage) : String := Text.debug c.coverage

def ownersSummary (d : List String) : String := debugVec (d.map Text.debug)

def entryOf {α : Type} (block : Option (ExtTreeMap String α)) (name : String) : Option α :=
  block.bind fun entries => entries[name]?

def unbackedCoverage (point : CatalogPoint) (receipt : BackupReceipt) : List String :=
  point.topics.filterMap fun t =>
    let backed := entryOf receipt.configCoverage t.name
    unbacked t.configCoverage backed fun claimed =>
      topicLine t.name "config_coverage" (coverageSummary claimed) (orNone coverageSummary backed)

def unbackedConfiguration (point : CatalogPoint) (receipt : BackupReceipt) : List String :=
  point.topics.flatMap fun t =>
    let backed := entryOf receipt.topicConfiguration t.name
    let attested := backed.bind fun b => b.partitions
    List.reduceOption
      [ unbacked t.configuration backed fun claimed =>
          topicLine t.name "configuration" (configurationSummary (some claimed))
            (orNone (fun b => configurationSummary (some b)) backed)
      , unbacked t.partitions attested fun count =>
          topicLine t.name "partitions" (toString count) (orNone toString attested) ]

def unbackedOwnerDetection (point : CatalogPoint) (receipt : BackupReceipt) : Option String :=
  unbacked point.ownerDetection receipt.ownerDetection fun claimed =>
    "owner_detection: " ++ ownersSummary claimed ++ " vs " ++
      orNone ownersSummary receipt.ownerDetection

def unbackedConsumerPositions (point : CatalogPoint) (receipt : BackupReceipt) : Option String :=
  match point.consumerPositions with
  | none => none
  | some claimed =>
    match receipt.consumerPositions.map (RecordConsumerPositions.of crates) with
    | none => some ("consumer_positions: " ++ claimed.sha256 ++ " vs none in the receipt")
    | some (.error e) => some ("consumer_positions: " ++ claimed.sha256 ++ " vs " ++ e)
    | some (.ok b) =>
      if b.sha256 ≠ claimed.sha256 then
        some ("consumer_positions.sha256: " ++ claimed.sha256 ++ " vs " ++ b.sha256)
      else if b ≠ claimed then
        some ("consumer_positions: the summary of " ++ claimed.sha256 ++
          " is not the receipt block's")
      else none

def unbackedSchemaRegistry (point : CatalogPoint) (receipt : BackupReceipt) : Option String :=
  unbacked point.schemaRegistry (receipt.schemaRegistry.map PointSchemaRegistry.of) fun _ =>
    "schema_registry: the summary is not the receipt block's"

def unbackedSchemaDependency (point : CatalogPoint) (receipt : BackupReceipt) : List String :=
  point.topics.filterMap fun t =>
    let backed := entryOf receipt.schemaDependency t.name
    unbacked t.schemaDependency backed fun claimed =>
      topicLine t.name "schema_dependency" (dependencySummary claimed)
        (orNone dependencySummary backed)

def unbackedIdentity (point : CatalogPoint) (receipt : BackupReceipt) : List String :=
  point.topics.filterMap fun t =>
    let backed := entryOf receipt.generations t.name
    unbacked t.identity backed fun claimed =>
      topicLine t.name "identity" (identitySummary claimed) (orNone identitySummary backed)

def unbackedPin (point : CatalogPoint) (receipt : BackupReceipt) : Option String :=
  unbacked point.archive.manifestVersionId receipt.archive.manifestVersionId fun recorded =>
    "archive.manifest_version_id: " ++ Text.debug recorded ++ " vs " ++
      Text.debug (receipt.archive.manifestVersionId.getD "")

inductive CrossCheck where
  | agrees
  | recordMismatch (disagreements : List String)
  | wrongReceipt (claimed actual : String)
deriving DecidableEq

def relabelled (point : CatalogPoint) (receiptBytes : List UInt8) : Option String :=
  let derived := pointId crates receiptBytes
  if derived ≠ point.pointId then
    some ("point_id: " ++ Text.debug point.pointId ++ " vs " ++ Text.debug derived ++
      " derived from the receipt")
  else none

def mismatches (point : CatalogPoint) (receipt : BackupReceipt) (receiptBytes : List UInt8) :
    List String :=
  (ReceiptFacts.ofRecord crates point).disagreements (.ofReceipt crates receipt) ++
  (relabelled crates point receiptBytes).toList ++
  (unbackedPin point receipt).toList ++
  unbackedCoverage point receipt ++
  unbackedConfiguration point receipt ++
  (unbackedOwnerDetection point receipt).toList ++
  (unbackedConsumerPositions crates point receipt).toList ++
  (unbackedSchemaRegistry point receipt).toList ++
  unbackedSchemaDependency point receipt ++
  unbackedIdentity point receipt

def crossCheck (point : CatalogPoint) (receipt : BackupReceipt) (receiptBytes : List UInt8) :
    CrossCheck :=
  let actual := sha256Prefixed crates receiptBytes
  if point.receipt.sha256 ≠ actual then .wrongReceipt point.receipt.sha256 actual
  else
    let disagreements := mismatches crates point receipt receiptBytes
    if disagreements = [] then .agrees else .recordMismatch disagreements

def sameTopic (b : CatalogPoint) (ta : RecordTopic) : Option RecordTopic :=
  firstRow RecordTopic.name b.topics ta.name

/-- The lines of one per-topic fact, which `coverage_conflicts`, `schema_dependency_conflicts`
and `identity_conflicts` each write of their own. -/
def topicConflicts {α : Type} [DecidableEq α] (field : String) (fact : RecordTopic → Option α)
    (summary : α → String) (a b : CatalogPoint) : List String :=
  a.topics.filterMap fun ta =>
    disagreeing (fact ta) ((sameTopic b ta).bind fact) fun x y =>
      topicLine ta.name field (summary x) (summary y)

def coverageConflicts (a b : CatalogPoint) : List String :=
  topicConflicts "config_coverage" RecordTopic.configCoverage coverageSummary a b

def schemaDependencyConflicts (a b : CatalogPoint) : List String :=
  topicConflicts "schema_dependency" RecordTopic.schemaDependency dependencySummary a b

def identityConflicts (a b : CatalogPoint) : List String :=
  topicConflicts "identity" RecordTopic.identity identitySummary a b

def configurationConflicts (a b : CatalogPoint) : List String :=
  (a.topics.flatMap fun ta =>
    match sameTopic b ta with
    | none => []
    | some tb => List.reduceOption
        [ disagreeing ta.configuration tb.configuration fun ca cb =>
            topicLine ta.name "configuration" (configurationSummary (some ca))
              (configurationSummary (some cb))
        , disagreeing ta.partitions tb.partitions fun pa pb =>
            topicLine ta.name "partitions" (toString pa) (toString pb) ]) ++
  (disagreeing a.ownerDetection b.ownerDetection fun da db =>
    "owner_detection: " ++ ownersSummary da ++ " vs " ++ ownersSummary db).toList

def consumerPositionsConflicts (a b : CatalogPoint) : Option String :=
  disagreeing a.consumerPositions b.consumerPositions fun ca cb =>
    "consumer_positions: " ++ ca.sha256 ++ " vs " ++ cb.sha256

inductive Duplicate where
  | sameIdentity (locations : List String)
  | conflict (disagreements : List String)
  | differentPoints
deriving DecidableEq

def conflicts (a b : CatalogPoint) : List String :=
  (ReceiptFacts.ofRecord crates a).disagreements (.ofRecord crates b) ++
  coverageConflicts a b ++
  configurationConflicts a b ++
  (consumerPositionsConflicts a b).toList ++
  schemaDependencyConflicts a b ++
  identityConflicts a b

def reconcile (a b : CatalogPoint) : Duplicate :=
  if a.pointId ≠ b.pointId then .differentPoints
  else
    let disagreements := conflicts crates a b
    if disagreements ≠ [] then .conflict disagreements
    else if a.receipt.sha256 ≠ b.receipt.sha256 then
      .conflict ["receipt.sha256: " ++ Text.debug a.receipt.sha256 ++ " vs " ++
        Text.debug b.receipt.sha256]
    else .sameIdentity (Ordered.sortDedup [a.archive.locationId, b.archive.locationId])

end Logweir.Catalog
