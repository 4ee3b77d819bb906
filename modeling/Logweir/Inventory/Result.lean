import Logweir.Inventory.Chunks
import Logweir.Schedule.Status

/-!
# The result of a discovery

`weirkeeper::controllers::topic_discovery`: the runner's result document, the cut
to what may be stored, and the status a committed observation is published as.
-/

set_option autoImplicit false

namespace Logweir.Inventory

open Logweir.Text Logweir.CheckContract
open Logweir.Schedule (Condition Instant)

def MAX_TOPICS_CEILING : Nat := 50000

def MAX_STATUS_CHUNKS : Nat := 64

inductive TruncationReason where
  | maxTopics
  | relayLimit
  deriving DecidableEq

def truncationReasonStr : TruncationReason → String
  | .maxTopics => "MaxTopics"
  | .relayLimit => "RelayLimit"

structure InventoryCounts where
  listed : UInt32
  returned : UInt32
  internalExcluded : UInt32
  errored : UInt32
  deriving DecidableEq

structure ExpectedSummary where
  requested : UInt32
  visible : UInt32
  notAuthorized : UInt32
  notFound : UInt32
  unknown : UInt32
  deriving DecidableEq

structure InventoryResult where
  clusterId : Option String
  brokerCount : Option UInt32
  counts : InventoryCounts
  truncated : Bool
  truncationReason : Option TruncationReason
  topicAuthorizationErrorInListing : Bool
  expected : ExpectedSummary
  topicsSha256 : String
  deriving DecidableEq

structure DiscoveryVisibility where
  state : String
  basis : Option (List String)
  attestation : Option String
  deriving DecidableEq

structure DiscoveryCounts where
  listed : Int
  returned : Int
  internalExcluded : Int
  errored : Int
  deriving DecidableEq

structure ExpectedTopicOutcome where
  requested : Int
  visible : Int
  notAuthorized : Int
  notFound : Int
  unknown : Int
  deriving DecidableEq

structure TopicInventoryResult where
  format : String
  clusterId : Option String
  brokerCount : Option Int
  counts : DiscoveryCounts
  truncated : Bool
  truncationReason : Option String
  visibility : DiscoveryVisibility
  expected : Option ExpectedTopicOutcome
  topicsSha256 : Option String
  chunks : Option (List InventoryChunk)
  deriving DecidableEq

structure TopicDiscoveryStatus where
  phase : Option String := none
  reason : Option String := none
  message : Option String := none
  policyDigest : Option String := none
  startedAt : Option Instant := none
  observedAt : Option Instant := none
  freshUntil : Option Instant := none
  result : Option TopicInventoryResult := none
  conditions : Option (List Condition) := none
  deriving DecidableEq

def TopicInventoryResult.merge (stored patch : TopicInventoryResult) : TopicInventoryResult :=
  { patch with
    clusterId := patch.clusterId.or stored.clusterId
    brokerCount := patch.brokerCount.or stored.brokerCount
    truncationReason := patch.truncationReason.or stored.truncationReason
    visibility :=
      { patch.visibility with
        basis := patch.visibility.basis.or stored.visibility.basis
        attestation := patch.visibility.attestation.or stored.visibility.attestation }
    expected := patch.expected.or stored.expected
    topicsSha256 := patch.topicsSha256.or stored.topicsSha256
    chunks := patch.chunks.or stored.chunks }

def TopicDiscoveryStatus.merge (stored patch : TopicDiscoveryStatus) : TopicDiscoveryStatus where
  phase := patch.phase.or stored.phase
  reason := patch.reason.or stored.reason
  message := patch.message.or stored.message
  policyDigest := patch.policyDigest.or stored.policyDigest
  startedAt := patch.startedAt.or stored.startedAt
  observedAt := patch.observedAt.or stored.observedAt
  freshUntil := patch.freshUntil.or stored.freshUntil
  result :=
    match stored.result, patch.result with
    | some old, some new => some (old.merge new)
    | old, new => new.or old
  conditions := patch.conditions.or stored.conditions

/-- `u32::try_from(n).unwrap_or(u32::MAX)`. -/
def u32OfLength (n : Nat) : UInt32 := if n < 2 ^ 32 then UInt32.ofNat n else UInt32.ofNat (2 ^ 32 - 1)

def effectiveMaxTopics (requested : Int) (hardMax : Nat) : Nat :=
  min (max requested 1).toNat (max hardMax 1)

def storableEntryCeiling (maxTopics : Nat) : Nat := min maxTopics (MAX_STATUS_CHUNKS * MAX_CHUNK_LINES)

section

variable (sha256 : List UInt8 → List UInt8)

def topicTsvSha256 (entries : List TopicEntry) : String := sha256Prefixed sha256 (topicTsv entries)

def clampToStorable (inventory : InventoryResult) (entries : List TopicEntry) (ceiling : Nat) :
    InventoryResult × List TopicEntry :=
  if entries.length ≤ ceiling then (inventory, entries)
  else
    let stored := entries.take ceiling
    ({ inventory with
        counts := { inventory.counts with returned := u32OfLength stored.length }
        truncated := true
        truncationReason := some (inventory.truncationReason.getD .maxTopics)
        topicsSha256 := topicTsvSha256 sha256 stored }, stored)

abbrev ResultRefusal := String

def checkResultAgainstFrames (inventory : InventoryResult) (entries : List TopicEntry) :
    Except ResultRefusal Unit :=
  let framed := u32OfLength entries.length
  if inventory.counts.returned ≠ framed then
    .error ("the runner's result document claims " ++ toString inventory.counts.returned.toNat ++
      " returned entries and " ++ toString framed.toNat ++ " topic frames were relayed; the " ++
      "frames are the measured half and the document is not adopted")
  else if inventory.topicsSha256 ≠ topicTsvSha256 sha256 entries then
    .error ("the runner's result document carries a topicsSha256 that is not the digest of the " ++
      "topic frames it relayed; the status publishes only a digest it computed itself")
  else .ok ()

/-- The whole `status.result` block. -/
def inventoryStatus (inventory : InventoryResult) (entries : List TopicEntry)
    (visibility : DiscoveryVisibility) (index : List InventoryChunk) : TopicInventoryResult where
  format := TOPIC_INVENTORY_FORMAT
  clusterId := inventory.clusterId
  brokerCount := inventory.brokerCount.map fun n => n.toNat
  counts :=
    { listed := inventory.counts.listed.toNat, returned := inventory.counts.returned.toNat
      internalExcluded := inventory.counts.internalExcluded.toNat
      errored := inventory.counts.errored.toNat }
  truncated := inventory.truncated
  truncationReason := inventory.truncationReason.map truncationReasonStr
  visibility
  expected :=
    if 0 < inventory.expected.requested.toNat then
      some { requested := inventory.expected.requested.toNat
             visible := inventory.expected.visible.toNat
             notAuthorized := inventory.expected.notAuthorized.toNat
             notFound := inventory.expected.notFound.toNat
             unknown := inventory.expected.unknown.toNat }
    else none
  topicsSha256 := some (topicTsvSha256 sha256 entries)
  chunks := some index

theorem clampToStorable_spec {inventory : InventoryResult} {entries : List TopicEntry}
    (agrees : checkResultAgainstFrames sha256 inventory entries = .ok ()) {ceiling : Nat}
    (most : ceiling < 2 ^ 32) :
    (clampToStorable sha256 inventory entries ceiling).2 = entries.take ceiling ∧
      (clampToStorable sha256 inventory entries ceiling).1.counts.returned.toNat =
        (entries.take ceiling).length := by
  have count {n : Nat} (fits : n < 2 ^ 32) : (u32OfLength n).toNat = n := by
    rw [u32OfLength, if_pos fits, UInt32.toNat_ofNat_of_lt' fits]
  unfold clampToStorable
  split
  · rename_i within
    refine ⟨(List.take_of_length_le within).symm, ?_⟩
    have framed : inventory.counts.returned = u32OfLength entries.length := by
      unfold checkResultAgainstFrames at agrees
      simp only at agrees
      split at agrees
      · cases agrees
      · rename_i equal
        exact Decidable.not_not.mp equal
    rw [framed, List.take_of_length_le within, count (Nat.lt_of_le_of_lt within most)]
  · refine ⟨rfl, ?_⟩
    have fits : (entries.take ceiling).length < 2 ^ 32 :=
      Nat.lt_of_le_of_lt (List.length_take_le _ _) most
    exact count fits

end

end Logweir.Inventory
