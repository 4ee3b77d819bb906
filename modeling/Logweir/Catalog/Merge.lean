import Std.Data.ExtTreeSet
import Mathlib.Data.String.Basic
import Logweir.Library.Grouping
import Logweir.Catalog.Verification
import Logweir.Receipt.Document

/-!
# Merging what was observed of a point

`weirkeeper::catalog_view::merge_entries`.  The runner's entries of one point id
become one row: the best availability any location reached, the worst signature with
its key, and `Conflict` where two records of the identity disagree about a fact their
receipt decides.  The first entry is the one the others are merged into.
-/

set_option autoImplicit false

namespace Logweir.Catalog

open Std (ExtTreeMap ExtTreeSet)
open Logweir.Grouping
open Logweir.Receipt (PointSchemaRegistry)

structure EntrySchemaDependency where
  verdict : String
  basis : Option String
  reason : Option String
  sides : List String
  schemaIds : List Nat
  schemaIdsOmitted : Bool
deriving DecidableEq, Repr

structure EntryTopic where
  name : String
  partitions : Option Nat
  replicationFactor : Option Nat
  configCoverage : Option String
  owner : Option String
  schemaDependency : Option EntrySchemaDependency
deriving DecidableEq, Repr

structure EntryPositionCounts where
  related : Nat
  notRelated : Nat
  neverCommitted : Nat
  beyondEnd : Nat
  failed : Nat
  notObserved : Nat
deriving DecidableEq, Repr

structure EntryGroup where
  groupId : String
  outcome : String
  reason : Option String
  groupType : Option String
  active : Option Bool
  positions : Option EntryPositionCounts
deriving DecidableEq, Repr

structure EntryConsumerPositions where
  observedFromMs : Int
  observedToMs : Int
  listing : String
  groups : List EntryGroup
  groupsOmitted : Option Nat
deriving DecidableEq, Repr

structure EntryLocation where
  locationId : String
  availability : Option Availability
deriving DecidableEq, Repr

def EntryLocation.availabilityOr (l : EntryLocation) (fallback : Availability) : Availability :=
  l.availability.getD fallback

structure RunnerEntry where
  pointId : String
  backupId : String
  runId : String
  recoveryPointAtMs : Int
  coveredFromMs : Int
  coveredToMs : Int
  locations : List EntryLocation
  receiptKey : String
  receiptSha256 : String
  manifestKey : Option String
  manifestSha256 : Option String
  recordedAt : Option Int
  formatVersion : Option String
  availability : Availability
  signature : SignatureVerdict
  signerKeyId : Option String
  remedy : Option String
  topics : List EntryTopic
  topicsOmitted : Option Nat
  ownerDetection : Option (List String)
  consumerPositions : Option EntryConsumerPositions
  schemaRegistry : Option PointSchemaRegistry
deriving DecidableEq, Repr

structure Facts where
  recoveryPointAtMs : Int
  coveredFromMs : Int
  coveredToMs : Int
  backupId : String
  runId : String
  receiptSha256 : String
  manifestKey : Option String
  manifestSha256 : Option String
deriving DecidableEq, Repr

def RunnerEntry.facts (e : RunnerEntry) : Facts :=
  { recoveryPointAtMs := e.recoveryPointAtMs
    coveredFromMs := e.coveredFromMs
    coveredToMs := e.coveredToMs
    backupId := e.backupId
    runId := e.runId
    receiptSha256 := e.receiptSha256
    manifestKey := e.manifestKey
    manifestSha256 := e.manifestSha256 }

def availabilityRank : Availability → Nat
  | .conflict => 0
  | .missing => 1
  | .partly => 2
  | .unreadable => 3
  | .unsupportedFormat => 4
  | .deleted => 5
  | .available => 6

def worse (candidate kept : Availability) : Bool :=
  availabilityRank candidate < availabilityRank kept

def signatureRank : SignatureVerdict → Nat
  | .invalid => 0
  | .noEvidence => 1
  | .notAttempted => 2
  | .verified => 3

def worseSignature (candidate kept : SignatureVerdict) : Bool :=
  signatureRank candidate < signatureRank kept

def RunnerEntry.resolved (e : RunnerEntry) : RunnerEntry :=
  { e with
    locations := e.locations.map fun l =>
      { l with availability := some (l.availabilityOr e.availability) } }

def mergeLocation (keptAt entryAt : Availability) :
    List EntryLocation → EntryLocation → List EntryLocation
  | [], location => [location]
  | existing :: rest, location =>
    if existing.locationId = location.locationId then
      let a := existing.availabilityOr keptAt
      let b := location.availabilityOr entryAt
      (if worse b a then { existing with availability := some b } else existing) :: rest
    else existing :: mergeLocation keptAt entryAt rest location

def ByLocationId (a b : EntryLocation) : Prop := a.locationId ≤ b.locationId

instance : DecidableRel ByLocationId := fun a b =>
  inferInstanceAs (Decidable (a.locationId ≤ b.locationId))

def mergeLocations (kept entry : RunnerEntry) : List EntryLocation :=
  (entry.locations.foldl (mergeLocation kept.availability entry.availability)
    kept.locations).insertionSort ByLocationId

def mergeSignature (kept entry : RunnerEntry) : RunnerEntry :=
  if worseSignature entry.signature kept.signature then
    { kept with signature := entry.signature, signerKeyId := entry.signerKeyId }
  else kept

def mergeTopics (kept entry : RunnerEntry) : RunnerEntry :=
  if kept.topics.isEmpty ∧ ¬ entry.topics.isEmpty then
    { kept with
      topics := entry.topics
      topicsOmitted := entry.topicsOmitted
      ownerDetection := entry.ownerDetection }
  else if kept.topics.isEmpty ∧ kept.topicsOmitted.isNone then
    { kept with topicsOmitted := entry.topicsOmitted }
  else kept

def mergePositions (kept entry : Option EntryConsumerPositions) : Option EntryConsumerPositions :=
  match kept, entry with
  | none, some e => some e
  | some k, some e => if k.groups.isEmpty ∧ ¬ e.groups.isEmpty then some e else some k
  | kept, none => kept

def RunnerEntry.merge (kept entry : RunnerEntry) : RunnerEntry :=
  let located := { kept with locations := mergeLocations kept entry }
  let listed := mergeTopics (mergeSignature located entry) entry
  { listed with
    consumerPositions := mergePositions kept.consumerPositions entry.consumerPositions
    schemaRegistry := kept.schemaRegistry.or entry.schemaRegistry }

structure Merging where
  byId : ExtTreeMap String RunnerEntry
  conflicted : ExtTreeSet String

def Merging.add (m : Merging) (entry : RunnerEntry) : Merging :=
  let entry := entry.resolved
  match m.byId[entry.pointId]? with
  | none => { m with byId := m.byId.insert entry.pointId entry }
  | some kept =>
    { byId := m.byId.insert entry.pointId (kept.merge entry)
      conflicted :=
        if kept.facts ≠ entry.facts then m.conflicted.insert entry.pointId else m.conflicted }

def nameDegradedLocations (entry : RunnerEntry) : Option String :=
  let degraded := entry.locations.filter fun l =>
    l.availabilityOr entry.availability ≠ .available
  if degraded.isEmpty then entry.remedy
  else
    let names := degraded.map fun l =>
      l.locationId ++ " is " ++ (l.availabilityOr entry.availability).word
    let note := "this point is readable, and " ++ toString degraded.length ++ " of its " ++
      toString entry.locations.length ++ " location(s) is not: " ++ "; ".intercalate names
    match entry.remedy with
    | some existing =>
      if (Text.trim existing).isEmpty then some note else some (existing ++ ". " ++ note)
    | none => some note

def bestAvailability (entry : RunnerEntry) : Availability :=
  (best availabilityRank (entry.locations.map fun l => l.availabilityOr entry.availability)).getD
    entry.availability

def finish (conflicted : Bool) (entry : RunnerEntry) : RunnerEntry :=
  let entry := { entry with availability := bestAvailability entry }
  let entry := { entry with remedy := nameDegradedLocations entry }
  if conflicted then { entry with availability := .conflict } else entry

/-- Newest recovery point first, then by point id. -/
def NewestFirst (a b : RunnerEntry) : Prop :=
  b.recoveryPointAtMs < a.recoveryPointAtMs ∨
    (a.recoveryPointAtMs = b.recoveryPointAtMs ∧ a.pointId ≤ b.pointId)

instance : DecidableRel NewestFirst := fun a b =>
  inferInstanceAs (Decidable (b.recoveryPointAtMs < a.recoveryPointAtMs ∨
    (a.recoveryPointAtMs = b.recoveryPointAtMs ∧ a.pointId ≤ b.pointId)))

def mergeEntries (entries : List RunnerEntry) : List RunnerEntry :=
  let merged := entries.foldl Merging.add { byId := ∅, conflicted := ∅ }
  let rows := merged.byId.toList.map fun e =>
    finish (merged.conflicted.contains e.2.pointId) e.2
  rows.insertionSort NewestFirst

def timestampMillis (ms : Int) : Option Int :=
  if -8334601228800000 ≤ ms ∧ ms ≤ 8210266876799999 then some (ms * 1000000) else none

def RunnerEntry.signedAt (entry : RunnerEntry) : Option Int :=
  entry.recordedAt.or (timestampMillis entry.recoveryPointAtMs)

structure ResolvedLocation where
  locationId : String
  availability : Availability
deriving DecidableEq, Repr

structure ViewEntry where
  pointId : String
  backupId : String
  runId : String
  recoveryPointAtMs : Int
  coveredFromMs : Int
  coveredToMs : Int
  locations : List ResolvedLocation
  receiptKey : String
  receiptSha256 : String
  manifestKey : Option String
  manifestSha256 : Option String
  formatVersion : Option String
  availability : Availability
  verification : Verification
  signerKeyId : Option String
  selectable : Bool
  remedy : Option String
  topics : List EntryTopic
  topicsOmitted : Option Nat
  ownerDetection : Option (List String)
  consumerPositions : Option EntryConsumerPositions
  schemaRegistry : Option PointSchemaRegistry
deriving DecidableEq, Repr

/-- One runner entry, classified against the trust source. -/
def viewEntry (entry : RunnerEntry) (trust : TrustView) (now : Int) : ViewEntry :=
  let verification :=
    classifyVerification entry.signature entry.signerKeyId entry.signedAt trust now
  { pointId := entry.pointId
    backupId := entry.backupId
    runId := entry.runId
    recoveryPointAtMs := entry.recoveryPointAtMs
    coveredFromMs := entry.coveredFromMs
    coveredToMs := entry.coveredToMs
    locations := entry.locations.map fun l =>
      { locationId := l.locationId, availability := l.availabilityOr entry.availability }
    receiptKey := entry.receiptKey
    receiptSha256 := entry.receiptSha256
    manifestKey := entry.manifestKey
    manifestSha256 := entry.manifestSha256
    formatVersion := entry.formatVersion
    availability := entry.availability
    verification
    signerKeyId := entry.signerKeyId
    selectable := Catalog.selectable entry.availability verification
    remedy := entry.remedy
    topics := entry.topics
    topicsOmitted := entry.topicsOmitted
    ownerDetection := entry.ownerDetection
    consumerPositions := entry.consumerPositions
    schemaRegistry := entry.schemaRegistry }

end Logweir.Catalog
