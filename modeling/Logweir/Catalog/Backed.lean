import Std.Data.String.ToInt
import Logweir.Catalog.CrossCheck

/-!
# Copies of one receipt

What the two comparisons decide.  A record agrees with a receipt when every fact it
states of those compared is the receipt's; the writer's records do, and records that
agree with one receipt are one point.  Two records of one point conflict where they
disagree about a fact both carry.
-/

set_option autoImplicit false

namespace Logweir.Catalog

open Std (ExtTreeMap)
open Logweir.Receipt
open Logweir.PartialFacts

variable (crates : Crates)

def backedPositions (receipt : BackupReceipt) : Option RecordConsumerPositions :=
  receipt.consumerPositions.bind fun block => (RecordConsumerPositions.of crates block).toOption

def attestedPartitions (receipt : BackupReceipt) (name : String) : Option Nat :=
  (entryOf receipt.topicConfiguration name).bind fun b => b.partitions

/-- Every compared fact a record states is its receipt's. -/
structure BackedBy (point : CatalogPoint) (receipt : BackupReceipt) (bytes : List UInt8) :
    Prop where
  digest : point.receipt.sha256 = sha256Prefixed crates bytes
  identity : point.pointId = pointId crates bytes
  backupId : point.backupId = receipt.backupId
  runId : point.runId = receipt.runId
  coveredFrom : point.covered.fromMs = receipt.covered.fromMs
  coveredTo : point.covered.toMs = receipt.covered.toMs
  startedAt : point.capture.startedAt = receipt.startedAt
  finishedAt : point.capture.finishedAt = receipt.finishedAt
  manifestKey : point.archive.manifestKey = receipt.archive.manifestKey
  manifestSha256 : point.archive.manifestSha256 = receipt.archive.manifestSha256
  pin : Backed point.archive.manifestVersionId receipt.archive.manifestVersionId
  coverage : ∀ t ∈ point.topics, Backed t.configCoverage (entryOf receipt.configCoverage t.name)
  configuration : ∀ t ∈ point.topics,
    Backed t.configuration (entryOf receipt.topicConfiguration t.name)
  partitions : ∀ t ∈ point.topics, Backed t.partitions (attestedPartitions receipt t.name)
  ownerDetection : Backed point.ownerDetection receipt.ownerDetection
  consumerPositions : Backed point.consumerPositions (backedPositions crates receipt)
  schemaRegistry : Backed point.schemaRegistry
    (receipt.schemaRegistry.map PointSchemaRegistry.of)
  schemaDependency : ∀ t ∈ point.topics,
    Backed t.schemaDependency (entryOf receipt.schemaDependency t.name)
  topicIdentity : ∀ t ∈ point.topics, Backed t.identity (entryOf receipt.generations t.name)

/-- Two records disagree about no receipt-derived fact that both carry. -/
structure Consistent (a b : CatalogPoint) : Prop where
  digest : a.receipt.sha256 = b.receipt.sha256
  backupId : a.backupId = b.backupId
  runId : a.runId = b.runId
  covered : a.covered = b.covered
  capture : a.capture = b.capture
  manifestKey : a.archive.manifestKey = b.archive.manifestKey
  manifestSha256 : a.archive.manifestSha256 = b.archive.manifestSha256
  pin : ¬ Disagree a.archive.manifestVersionId b.archive.manifestVersionId
  coverage : ¬ RowsDisagree RecordTopic.name RecordTopic.configCoverage a.topics b.topics
  configuration : ¬ RowsDisagree RecordTopic.name RecordTopic.configuration a.topics b.topics
  partitions : ¬ RowsDisagree RecordTopic.name RecordTopic.partitions a.topics b.topics
  ownerDetection : ¬ Disagree a.ownerDetection b.ownerDetection
  consumerPositions : ¬ Disagree a.consumerPositions b.consumerPositions
  schemaRegistry : ¬ Disagree a.schemaRegistry b.schemaRegistry
  schemaDependency : ¬ RowsDisagree RecordTopic.name RecordTopic.schemaDependency a.topics b.topics
  topicIdentity : ¬ RowsDisagree RecordTopic.name RecordTopic.identity a.topics b.topics

theorem Consistent.symm {a b : CatalogPoint} (same : Consistent a b) : Consistent b a where
  digest := same.digest.symm
  backupId := same.backupId.symm
  runId := same.runId.symm
  covered := same.covered.symm
  capture := same.capture.symm
  manifestKey := same.manifestKey.symm
  manifestSha256 := same.manifestSha256.symm
  pin differ := same.pin differ.symm
  coverage differ := same.coverage (differ.symm _ _)
  configuration differ := same.configuration (differ.symm _ _)
  partitions differ := same.partitions (differ.symm _ _)
  ownerDetection differ := same.ownerDetection differ.symm
  consumerPositions differ := same.consumerPositions differ.symm
  schemaRegistry differ := same.schemaRegistry differ.symm
  schemaDependency differ := same.schemaDependency (differ.symm _ _)
  topicIdentity differ := same.topicIdentity (differ.symm _ _)

@[simp] theorem cmp_eq_none {field a b : String} : cmp field a b = none ↔ a = b := by
  simp [cmp]

@[simp] theorem reduceOption_cons_eq_nil {α : Type} {o : Option α} {l : List (Option α)} :
    List.reduceOption (o :: l) = [] ↔ o = none ∧ List.reduceOption l = [] := by
  cases o with
  | none => simp [List.reduceOption_cons_of_none]
  | some x => simp [List.reduceOption_cons_of_some]

@[simp] theorem reduceOption_nil_eq {α : Type} : List.reduceOption ([] : List (Option α)) = [] :=
  rfl

theorem disagreements_eq_nil {self other : ReceiptFacts} :
    self.disagreements other = [] ↔ self = other := by
  cases self
  cases other
  simp [ReceiptFacts.disagreements, Int.repr_inj]

theorem ofRecord_eq_ofReceipt (apart : Function.Injective crates.rfc3339) {p : CatalogPoint}
    {r : BackupReceipt} :
    ReceiptFacts.ofRecord crates p = ReceiptFacts.ofReceipt crates r ↔
      p.backupId = r.backupId ∧ p.runId = r.runId ∧ p.covered.fromMs = r.covered.fromMs ∧
      p.covered.toMs = r.covered.toMs ∧ p.capture.startedAt = r.startedAt ∧
      p.capture.finishedAt = r.finishedAt ∧ p.archive.manifestKey = r.archive.manifestKey ∧
      p.archive.manifestSha256 = r.archive.manifestSha256 := by
  simp [ReceiptFacts.ofRecord, ReceiptFacts.ofReceipt, apart.eq_iff]

theorem ofRecord_eq_ofRecord (apart : Function.Injective crates.rfc3339) {a b : CatalogPoint} :
    ReceiptFacts.ofRecord crates a = ReceiptFacts.ofRecord crates b ↔
      a.backupId = b.backupId ∧ a.runId = b.runId ∧ a.covered = b.covered ∧
      a.capture = b.capture ∧ a.archive.manifestKey = b.archive.manifestKey ∧
      a.archive.manifestSha256 = b.archive.manifestSha256 := by
  cases a with | mk _ _ _ _ _ _ archive covered capture =>
  cases b with | mk _ _ _ _ _ _ archive' covered' capture' =>
  cases covered
  cases covered'
  cases capture
  cases capture'
  simp [ReceiptFacts.ofRecord, apart.eq_iff, and_assoc]

theorem unbackedCoverage_eq_nil {point : CatalogPoint} {receipt : BackupReceipt} :
    unbackedCoverage point receipt = [] ↔
      ∀ t ∈ point.topics, Backed t.configCoverage (entryOf receipt.configCoverage t.name) := by
  simp [unbackedCoverage, List.filterMap_eq_nil_iff]

theorem unbackedConfiguration_eq_nil {point : CatalogPoint} {receipt : BackupReceipt} :
    unbackedConfiguration point receipt = [] ↔
      ∀ t ∈ point.topics, Backed t.configuration (entryOf receipt.topicConfiguration t.name) ∧
        Backed t.partitions (attestedPartitions receipt t.name) := by
  simp [unbackedConfiguration, attestedPartitions]

theorem unbackedSchemaDependency_eq_nil {point : CatalogPoint} {receipt : BackupReceipt} :
    unbackedSchemaDependency point receipt = [] ↔
      ∀ t ∈ point.topics,
        Backed t.schemaDependency (entryOf receipt.schemaDependency t.name) := by
  simp [unbackedSchemaDependency, List.filterMap_eq_nil_iff]

theorem unbackedIdentity_eq_nil {point : CatalogPoint} {receipt : BackupReceipt} :
    unbackedIdentity point receipt = [] ↔
      ∀ t ∈ point.topics, Backed t.identity (entryOf receipt.generations t.name) := by
  simp [unbackedIdentity, List.filterMap_eq_nil_iff]

theorem unbackedConsumerPositions_eq_none {point : CatalogPoint} {receipt : BackupReceipt} :
    unbackedConsumerPositions crates point receipt = none ↔
      Backed point.consumerPositions (backedPositions crates receipt) := by
  unfold unbackedConsumerPositions backedPositions Backed
  cases point.consumerPositions with
  | none => simp
  | some claimed =>
      cases receipt.consumerPositions with
      | none => simp
      | some block =>
          cases made : RecordConsumerPositions.of crates block with
          | error e => simp [made, Except.toOption]
          | ok b =>
              simp only [Option.map_some, made, Option.bind_some, Except.toOption,
                Option.some.injEq]
              by_cases same : b = claimed
              · simp [same]
              · by_cases digests : b.sha256 = claimed.sha256
                · simp [same, digests]
                · simp [same, digests]

@[simp] theorem relabelled_eq_none {point : CatalogPoint} {bytes : List UInt8} :
    relabelled crates point bytes = none ↔ point.pointId = pointId crates bytes := by
  rw [eq_comm (a := point.pointId)]
  simp [relabelled]

theorem mismatches_eq_nil (apart : Function.Injective crates.rfc3339) {point : CatalogPoint}
    {receipt : BackupReceipt} {bytes : List UInt8}
    (digest : point.receipt.sha256 = sha256Prefixed crates bytes) :
    mismatches crates point receipt bytes = [] ↔ BackedBy crates point receipt bytes := by
  have pin : unbackedPin point receipt = none ↔ _ := unbacked_eq_none
  have owners : unbackedOwnerDetection point receipt = none ↔ _ := unbacked_eq_none
  have registry : unbackedSchemaRegistry point receipt = none ↔ _ := unbacked_eq_none
  simp only [mismatches, List.append_eq_nil_iff, Option.toList_eq_nil_iff, disagreements_eq_nil,
    ofRecord_eq_ofReceipt crates apart, relabelled_eq_none, pin, owners, registry,
    unbackedCoverage_eq_nil, unbackedConfiguration_eq_nil, unbackedConsumerPositions_eq_none,
    unbackedSchemaDependency_eq_nil, unbackedIdentity_eq_nil]
  constructor
  · rintro ⟨⟨⟨⟨⟨⟨⟨⟨⟨facts, identity⟩, pin⟩, coverage⟩, configured⟩, owners⟩, positions⟩, registry⟩,
      dependency⟩, topicIdentity⟩
    obtain ⟨backupId, runId, fromMs, toMs, started, finished, key, sha256⟩ := facts
    exact {
      digest := digest
      identity := identity
      backupId := backupId
      runId := runId
      coveredFrom := fromMs
      coveredTo := toMs
      startedAt := started
      finishedAt := finished
      manifestKey := key
      manifestSha256 := sha256
      pin := pin
      coverage := coverage
      configuration := fun t mem => (configured t mem).1
      partitions := fun t mem => (configured t mem).2
      ownerDetection := owners
      consumerPositions := positions
      schemaRegistry := registry
      schemaDependency := dependency
      topicIdentity := topicIdentity }
  · intro backed
    have facts := And.intro backed.backupId <| And.intro backed.runId <|
      And.intro backed.coveredFrom <| And.intro backed.coveredTo <|
      And.intro backed.startedAt <| And.intro backed.finishedAt <|
      And.intro backed.manifestKey backed.manifestSha256
    have configured := fun t mem => And.intro (backed.configuration t mem)
      (backed.partitions t mem)
    exact ⟨⟨⟨⟨⟨⟨⟨⟨⟨facts, backed.identity⟩, backed.pin⟩, backed.coverage⟩, configured⟩,
      backed.ownerDetection⟩, backed.consumerPositions⟩, backed.schemaRegistry⟩,
      backed.schemaDependency⟩, backed.topicIdentity⟩

theorem crossCheck_agrees_iff (apart : Function.Injective crates.rfc3339) {point : CatalogPoint}
    {receipt : BackupReceipt} {bytes : List UInt8} :
    crossCheck crates point receipt bytes = .agrees ↔ BackedBy crates point receipt bytes := by
  by_cases digest : point.receipt.sha256 = sha256Prefixed crates bytes
  · rw [← mismatches_eq_nil crates apart digest]
    unfold crossCheck
    simp only [digest, ne_eq, not_true_eq_false, if_false]
    split
    · rename_i silent
      exact ⟨fun _ => silent, fun _ => rfl⟩
    · rename_i lines
      exact ⟨fun agrees => (by cases agrees), fun silent => absurd silent lines⟩
  · constructor
    · intro agrees
      unfold crossCheck at agrees
      rw [if_pos digest] at agrees
      cases agrees
    · exact fun backed => absurd backed.digest digest

theorem project_eq_ok {receipt : BackupReceipt} {bytes : List UInt8} {inputs : RecordInputs}
    {point : CatalogPoint} : project crates receipt bytes inputs = .ok point ↔
      ∃ summary, recordPositions crates receipt = .ok summary ∧
        record crates receipt bytes inputs summary = point := by
  unfold project
  cases recordPositions crates receipt with
  | error e => simp [Except.map]
  | ok summary => simp [Except.map]

theorem recordPositions_backed {receipt : BackupReceipt} {summary : Option RecordConsumerPositions}
    (made : recordPositions crates receipt = .ok summary) :
    summary = backedPositions crates receipt := by
  unfold recordPositions at made
  unfold backedPositions
  cases positions : receipt.consumerPositions with
  | none =>
      rw [positions] at made
      cases made
      rfl
  | some block =>
      rw [positions] at made
      rw [Option.bind_some]
      cases summed : RecordConsumerPositions.of crates block with
      | error e =>
          simp only [summed] at made
          cases made
      | ok b =>
          simp only [summed] at made
          cases made
          rfl

theorem record_topic {receipt : BackupReceipt} {bytes : List UInt8} {inputs : RecordInputs}
    {summary : Option RecordConsumerPositions} {t : RecordTopic}
    (mem : t ∈ (record crates receipt bytes inputs summary).topics) :
    t = projectTopic receipt t.name t.records := by
  obtain ⟨e, _, rfl⟩ := List.mem_map.mp mem
  rfl

theorem project_backed {receipt : BackupReceipt} {bytes : List UInt8} {inputs : RecordInputs}
    {point : CatalogPoint} (made : project crates receipt bytes inputs = .ok point) :
    BackedBy crates point receipt bytes := by
  obtain ⟨summary, positions, rfl⟩ := (project_eq_ok crates).mp made
  have row : ∀ t ∈ (record crates receipt bytes inputs summary).topics,
      t = projectTopic receipt t.name t.records := fun t mem => record_topic crates mem
  exact {
    digest := rfl
    identity := rfl
    backupId := rfl
    runId := rfl
    coveredFrom := rfl
    coveredTo := rfl
    startedAt := rfl
    finishedAt := rfl
    manifestKey := rfl
    manifestSha256 := rfl
    pin := .refl _
    coverage := fun t mem => by
      rw [row t mem]
      exact .refl _
    configuration := fun t mem => by
      rw [row t mem]
      exact .refl _
    partitions := fun t mem => by
      rw [row t mem]
      exact .refl _
    ownerDetection := .refl _
    consumerPositions := by
      rw [← recordPositions_backed crates positions]
      exact .refl _
    schemaRegistry := .refl _
    schemaDependency := fun t mem => by
      rw [row t mem]
      exact .refl _
    topicIdentity := fun t mem => by
      rw [row t mem]
      exact .refl _ }

/-- The facts that `reconcile` compares, each row with the first of its name. -/
structure Reconciled (a b : CatalogPoint) : Prop where
  facts : ReceiptFacts.ofRecord crates a = ReceiptFacts.ofRecord crates b
  coverage : FirstRowsAgree RecordTopic.name RecordTopic.configCoverage a.topics b.topics
  configuration : FirstRowsAgree RecordTopic.name RecordTopic.configuration a.topics b.topics
  partitions : FirstRowsAgree RecordTopic.name RecordTopic.partitions a.topics b.topics
  ownerDetection : ¬ Disagree a.ownerDetection b.ownerDetection
  consumerPositions : ¬ Disagree a.consumerPositions b.consumerPositions
  schemaDependency : FirstRowsAgree RecordTopic.name RecordTopic.schemaDependency
    a.topics b.topics
  topicIdentity : FirstRowsAgree RecordTopic.name RecordTopic.identity a.topics b.topics

theorem topicConflicts_eq_nil {α : Type} [DecidableEq α] {field : String}
    {fact : RecordTopic → Option α} {summary : α → String} {a b : CatalogPoint} :
    topicConflicts field fact summary a b = [] ↔
      FirstRowsAgree RecordTopic.name fact a.topics b.topics := by
  simp [topicConflicts, sameTopic, FirstRowsAgree, List.filterMap_eq_nil_iff]

theorem configurationConflicts_eq_nil {a b : CatalogPoint} :
    configurationConflicts a b = [] ↔
      (FirstRowsAgree RecordTopic.name RecordTopic.configuration a.topics b.topics ∧
        FirstRowsAgree RecordTopic.name RecordTopic.partitions a.topics b.topics) ∧
      ¬ Disagree a.ownerDetection b.ownerDetection := by
  unfold FirstRowsAgree
  simp only [configurationConflicts, List.append_eq_nil_iff, Option.toList_eq_nil_iff,
    disagreeing_eq_none, List.flatMap_eq_nil_iff, ← forall_and]
  refine and_congr (forall_congr' fun ta => ?_) Iff.rfl
  refine imp_congr_right fun _ => ?_
  unfold sameTopic
  cases firstRow RecordTopic.name b.topics ta.name with
  | none => simp [not_disagree_none]
  | some tb => simp

theorem conflicts_eq_nil {a b : CatalogPoint} :
    conflicts crates a b = [] ↔ Reconciled crates a b := by
  have positions : consumerPositionsConflicts a b = none ↔ _ := disagreeing_eq_none
  simp only [conflicts, List.append_eq_nil_iff, Option.toList_eq_nil_iff, disagreements_eq_nil,
    coverageConflicts, schemaDependencyConflicts, identityConflicts, topicConflicts_eq_nil,
    configurationConflicts_eq_nil, positions]
  constructor
  · rintro ⟨⟨⟨⟨⟨facts, coverage⟩, ⟨configuration, partitions⟩, owners⟩, positions⟩, dependency⟩,
      identity⟩
    exact ⟨facts, coverage, configuration, partitions, owners, positions, dependency, identity⟩
  · intro same
    exact ⟨⟨⟨⟨⟨same.facts, same.coverage⟩, ⟨same.configuration, same.partitions⟩,
      same.ownerDetection⟩, same.consumerPositions⟩, same.schemaDependency⟩, same.topicIdentity⟩

theorem reconcile_eq {a b : CatalogPoint} (one : a.pointId = b.pointId) :
    (Reconciled crates a b ∧ a.receipt.sha256 = b.receipt.sha256 ∧
      reconcile crates a b =
        .sameIdentity (Ordered.sortDedup [a.archive.locationId, b.archive.locationId])) ∨
    (¬ (Reconciled crates a b ∧ a.receipt.sha256 = b.receipt.sha256) ∧
      ∃ lines, reconcile crates a b = .conflict lines) := by
  unfold reconcile
  rw [if_neg (not_not_intro one), ← conflicts_eq_nil]
  by_cases silent : conflicts crates a b = []
  · simp only [silent, ne_eq, not_true_eq_false, if_false, true_and]
    by_cases digest : a.receipt.sha256 = b.receipt.sha256
    · exact .inl ⟨digest, if_neg (not_not_intro digest)⟩
    · exact .inr ⟨digest, _, if_pos digest⟩
  · exact .inr ⟨fun both => silent both.1, _, if_pos silent⟩

def ListsOnce (p : CatalogPoint) : Prop := (p.topics.map RecordTopic.name).Nodup

/-- Where topics are listed once and the registry's summary and the pin are not in dispute,
what `reconcile` compares is all there is. -/
theorem reconciled_iff (apart : Function.Injective crates.rfc3339) {a b : CatalogPoint}
    (once : ListsOnce b) (registry : ¬ Disagree a.schemaRegistry b.schemaRegistry)
    (pin : ¬ Disagree a.archive.manifestVersionId b.archive.manifestVersionId) :
    Reconciled crates a b ∧ a.receipt.sha256 = b.receipt.sha256 ↔ Consistent a b := by
  have rows : ∀ {α : Type} (fact : RecordTopic → Option α),
      FirstRowsAgree RecordTopic.name fact a.topics b.topics ↔
        ¬ RowsDisagree RecordTopic.name fact a.topics b.topics :=
    fun fact => firstRowsAgree_iff RecordTopic.name fact once
  constructor
  · rintro ⟨same, digest⟩
    obtain ⟨backupId, runId, covered, capture, key, sha256⟩ :=
      (ofRecord_eq_ofRecord crates apart).mp same.facts
    exact {
      digest := digest
      backupId := backupId
      runId := runId
      covered := covered
      capture := capture
      manifestKey := key
      manifestSha256 := sha256
      pin := pin
      coverage := (rows _).mp same.coverage
      configuration := (rows _).mp same.configuration
      partitions := (rows _).mp same.partitions
      ownerDetection := same.ownerDetection
      consumerPositions := same.consumerPositions
      schemaRegistry := registry
      schemaDependency := (rows _).mp same.schemaDependency
      topicIdentity := (rows _).mp same.topicIdentity }
  · intro same
    exact ⟨{
      facts := (ofRecord_eq_ofRecord crates apart).mpr ⟨same.backupId, same.runId, same.covered,
        same.capture, same.manifestKey, same.manifestSha256⟩
      coverage := (rows _).mpr same.coverage
      configuration := (rows _).mpr same.configuration
      partitions := (rows _).mpr same.partitions
      ownerDetection := same.ownerDetection
      consumerPositions := same.consumerPositions
      schemaDependency := (rows _).mpr same.schemaDependency
      topicIdentity := (rows _).mpr same.topicIdentity }, same.digest⟩

theorem reconciled_of_backed (apart : Function.Injective crates.rfc3339) {a b : CatalogPoint}
    {receipt : BackupReceipt} {bytes : List UInt8} (left : BackedBy crates a receipt bytes)
    (right : BackedBy crates b receipt bytes) : Reconciled crates a b where
  facts := by
    have one := (ofRecord_eq_ofReceipt crates apart).mpr ⟨left.backupId, left.runId,
      left.coveredFrom, left.coveredTo, left.startedAt, left.finishedAt, left.manifestKey,
      left.manifestSha256⟩
    have other := (ofRecord_eq_ofReceipt crates apart).mpr ⟨right.backupId, right.runId,
      right.coveredFrom, right.coveredTo, right.startedAt, right.finishedAt, right.manifestKey,
      right.manifestSha256⟩
    exact one.trans other.symm
  coverage := firstRowsAgree_of_not_rowsDisagree _ _
    (not_rowsDisagree_of_backed _ _ left.coverage right.coverage)
  configuration := firstRowsAgree_of_not_rowsDisagree _ _
    (not_rowsDisagree_of_backed _ _ left.configuration right.configuration)
  partitions := firstRowsAgree_of_not_rowsDisagree _ _
    (not_rowsDisagree_of_backed _ _ left.partitions right.partitions)
  ownerDetection := not_disagree_of_backed left.ownerDetection right.ownerDetection
  consumerPositions := not_disagree_of_backed left.consumerPositions right.consumerPositions
  schemaDependency := firstRowsAgree_of_not_rowsDisagree _ _
    (not_rowsDisagree_of_backed _ _ left.schemaDependency right.schemaDependency)
  topicIdentity := firstRowsAgree_of_not_rowsDisagree _ _
    (not_rowsDisagree_of_backed _ _ left.topicIdentity right.topicIdentity)

theorem reconcile_of_backed (apart : Function.Injective crates.rfc3339) {a b : CatalogPoint}
    {receipt : BackupReceipt} {bytes : List UInt8} (left : BackedBy crates a receipt bytes)
    (right : BackedBy crates b receipt bytes) :
    reconcile crates a b =
      .sameIdentity (Ordered.sortDedup [a.archive.locationId, b.archive.locationId]) := by
  have one : a.pointId = b.pointId := left.identity.trans right.identity.symm
  have digest : a.receipt.sha256 = b.receipt.sha256 := left.digest.trans right.digest.symm
  have same := reconciled_of_backed crates apart left right
  rcases reconcile_eq crates one with ⟨_, _, answer⟩ | ⟨conflicting, _⟩
  · exact answer
  · exact absurd ⟨same, digest⟩ conflicting

def Duplicate.kind : Duplicate → Duplicate
  | .sameIdentity locations => .sameIdentity locations
  | .conflict _ => .conflict []
  | .differentPoints => .differentPoints

theorem reconcile_kind (apart : Function.Injective crates.rfc3339) {a b : CatalogPoint}
    (one : a.pointId = b.pointId) (once : ListsOnce b)
    (registry : ¬ Disagree a.schemaRegistry b.schemaRegistry)
    (pin : ¬ Disagree a.archive.manifestVersionId b.archive.manifestVersionId) :
    (Consistent a b ∧ (reconcile crates a b).kind =
      .sameIdentity (Ordered.sortDedup [a.archive.locationId, b.archive.locationId])) ∨
    (¬ Consistent a b ∧ (reconcile crates a b).kind = .conflict []) := by
  rw [← reconciled_iff crates apart once registry pin]
  rcases reconcile_eq crates one with ⟨same, digest, answer⟩ | ⟨conflicting, lines, answer⟩
  · exact .inl ⟨⟨same, digest⟩, by rw [answer]; rfl⟩
  · exact .inr ⟨conflicting, by rw [answer]; rfl⟩

/-- The writer's record agrees with its receipt; agreement is that each compared fact is the
receipt's; records that agree with one receipt are one point; and two records of one point
conflict, either way round, when they disagree about a compared fact that both carry. -/
theorem copies_of_receipt (apart : Function.Injective crates.rfc3339) :
    (∀ receipt bytes inputs point, project crates receipt bytes inputs = .ok point →
      crossCheck crates point receipt bytes = .agrees) ∧
    (∀ point receipt bytes, crossCheck crates point receipt bytes = .agrees ↔
      BackedBy crates point receipt bytes) ∧
    (∀ a b receipt bytes, crossCheck crates a receipt bytes = .agrees →
      crossCheck crates b receipt bytes = .agrees →
      reconcile crates a b =
        .sameIdentity (Ordered.sortDedup [a.archive.locationId, b.archive.locationId])) ∧
    (∀ a b : CatalogPoint, a.pointId = b.pointId → ListsOnce a → ListsOnce b →
      ¬ Disagree a.schemaRegistry b.schemaRegistry →
      ¬ Disagree a.archive.manifestVersionId b.archive.manifestVersionId →
      ((∃ lines, reconcile crates a b = .conflict lines) ↔ ¬ Consistent a b) ∧
      (reconcile crates b a).kind = (reconcile crates a b).kind) := by
  refine ⟨fun receipt bytes inputs point made => ?_, fun point receipt bytes => ?_,
    fun a b receipt bytes left right => ?_, fun a b one onceA onceB registry pin => ?_⟩
  · exact (crossCheck_agrees_iff crates apart).mpr (project_backed crates made)
  · exact crossCheck_agrees_iff crates apart
  · exact reconcile_of_backed crates apart ((crossCheck_agrees_iff crates apart).mp left)
      ((crossCheck_agrees_iff crates apart).mp right)
  · constructor
    · rw [← reconciled_iff crates apart onceB registry pin]
      rcases reconcile_eq crates one with ⟨same, digest, answer⟩ | ⟨conflicting, lines, answer⟩
      · rw [answer]
        refine ⟨fun conflict => ?_, fun conflicting => absurd ⟨same, digest⟩ conflicting⟩
        obtain ⟨lines, impossible⟩ := conflict
        cases impossible
      · exact ⟨fun _ => conflicting, fun _ => ⟨lines, answer⟩⟩
    · have registry' : ¬ Disagree b.schemaRegistry a.schemaRegistry :=
        fun differ => registry differ.symm
      have pin' : ¬ Disagree b.archive.manifestVersionId a.archive.manifestVersionId :=
        fun differ => pin differ.symm
      have swapped : Ordered.sortDedup [b.archive.locationId, a.archive.locationId] =
          Ordered.sortDedup [a.archive.locationId, b.archive.locationId] :=
        Ordered.sortDedup_congr fun x => by simp [or_comm]
      rcases reconcile_kind crates apart one onceB registry pin with
        ⟨same, answer⟩ | ⟨apartAB, answer⟩
      · rcases reconcile_kind crates apart one.symm onceA registry' pin' with
          ⟨_, answer'⟩ | ⟨apartBA, _⟩
        · rw [answer, answer', swapped]
        · exact absurd same.symm apartBA
      · rcases reconcile_kind crates apart one.symm onceA registry' pin' with
          ⟨same, _⟩ | ⟨_, answer'⟩
        · exact absurd same.symm apartAB
        · rw [answer, answer']

def exampleCrates : Crates :=
  { sha256Hex := fun _ => "e3b0c44298fc1c149afbf4c8996fb92427ae41e4649b934ca495991b7852b855"
    positionsDigest := fun _ => .error "no block"
    rfc3339 := fun t => if t = 0 then "1970-01-01T00:00:00+00:00" else "+" ++ toString t }

def exampleReceipt : BackupReceipt :=
  { formatVersion := "1.0.0", runId := "run-1", backupId := "orders"
    requestedAt := 0, startedAt := 0, finishedAt := 0, exitCode := 0, triggeredBy := "manual"
    source := { clusterId := "c1", bootstrapServers := ["b:9092"]
                auth := { mode := "none", username := none }, topics := ["orders"] }
    engine := { id := "kafka-backup", version := "0.1.0", digest := "sha256:0" }
    archive := { manifestKey := "a/manifest.json", manifestSha256 := "sha256:1"
                 manifestVersionId := none, pathPrefix := "a" }
    records := (∅ : ExtTreeMap String Nat).insert "orders" 3
    covered := { fromMs := 0, toMs := 9 }
    configCoverage := none, topicConfiguration := none, ownerDetection := none
    schemaDependency := none, generations := none, consumerPositions := none
    sourceWatermarks := none, schemaRegistry := none }

def exampleInputs : RecordInputs :=
  { receiptKey := "a/receipt.json", sidecarKey := "a/receipt.sig", locationId := "loc"
    recordedAt := 0, signing := { keyId := "k", algorithm := "ed25519" }
    installation := none, execution := none }

def exampleRecord : CatalogPoint := record exampleCrates exampleReceipt [] exampleInputs none

def movedRecord : CatalogPoint :=
  { exampleRecord with
    archive := { exampleRecord.archive with pathPrefix := "b" }
    topics := exampleRecord.topics.map fun t => { t with records := t.records + 1 } }

/-- The prefix and the counts are informational: a record that states others agrees, and
is not in conflict with one that states the receipt's. -/
theorem moved_record_agrees :
    crossCheck exampleCrates movedRecord exampleReceipt [] = .agrees ∧
    movedRecord.archive.pathPrefix ≠ exampleReceipt.archive.pathPrefix ∧
    (movedRecord.topics.map fun t => (t.name, t.records)) ≠ exampleReceipt.records.toList ∧
    reconcile exampleCrates movedRecord exampleRecord =
      .sameIdentity (Ordered.sortDedup ["loc", "loc"]) := by
  refine ⟨by decide +kernel, by decide, by decide +kernel, ?_⟩
  have silent : conflicts exampleCrates movedRecord exampleRecord = [] := by decide +kernel
  unfold reconcile
  rw [silent]
  rfl

theorem exampleCrates_apart : Function.Injective exampleCrates.rfc3339 := by
  have epoch : ∀ t : Int, "+" ++ toString t ≠ "1970-01-01T00:00:00+00:00" := fun t same => by
    have chars := congrArg String.toList same
    simp at chars
  intro s t same
  simp only [exampleCrates] at same
  by_cases first : s = 0
  · by_cases second : t = 0
    · rw [first, second]
    · rw [if_pos first, if_neg second] at same
      exact absurd same.symm (epoch t)
  · by_cases second : t = 0
    · rw [if_neg first, if_pos second] at same
      exact absurd same (epoch s)
    · rw [if_neg first, if_neg second] at same
      have chars := congrArg String.toList same
      simp only [String.toList_append, List.append_cancel_left_eq] at chars
      exact Int.repr_inj.mp (String.toList_inj.mp chars)

/-- The writer's record of the example agrees with its receipt. -/
theorem copies_of_example :
    Function.Injective exampleCrates.rfc3339 ∧
    crossCheck exampleCrates exampleRecord exampleReceipt [] = .agrees :=
  ⟨exampleCrates_apart,
    (copies_of_receipt exampleCrates exampleCrates_apart).1 exampleReceipt [] exampleInputs
      exampleRecord rfl⟩

end Logweir.Catalog
