import Logweir.Library.Ordered
import Logweir.Library.Text

/-!
# What a listing may claim

`check_contract::visibility`, and the attestation that a discovery hands it
(`topic_discovery::attestation_candidate`).  A listing is attested complete only when nothing in it
was refused and an attestation that has not expired names its namespace, cluster, principal and
cluster id, none of them blank.
-/

set_option autoImplicit false

namespace Logweir.Discovery

open Logweir.Text (trim)

abbrev Instant := Int

structure ExpectedSummary where
  requested : Nat
  visible : Nat
  notAuthorized : Nat
  notFound : Nat
  unknown : Nat

inductive TruncationReason where
  | maxTopics
  | relayLimit

structure InventoryCounts where
  returned : Nat

structure InventoryResult where
  clusterId : Option String
  counts : InventoryCounts
  truncated : Bool
  truncationReason : Option TruncationReason
  topicAuthorizationErrorInListing : Bool
  expected : ExpectedSummary
  topicsSha256 : String

structure Attestation where
  id : String
  namespace_ : String
  kafkaCluster : String
  clusterId : String
  principal : String
  attestedBy : String
  attestedAt : Instant
  expiresAt : Instant
  statement : String

structure AttestationRef where
  id : String
  attestedBy : String
  attestedAt : Instant
  expiresAt : Instant

structure VisibilitySignals where
  namespace_ : String
  kafkaCluster : String
  clusterId : String
  principal : String
  topicAuthorizationErrorInListing : Bool
  expected : ExpectedSummary
  truncated : Bool

inductive VisibilityState where
  | unknown
  | limited
  | attestedComplete
  deriving DecidableEq

def VisibilityState.asStr : VisibilityState → String
  | .unknown => "unknown"
  | .limited => "limited"
  | .attestedComplete => "attestedComplete"

inductive VisibilityBasis where
  | listingOnly
  | topicAuthorizationErrorInListing
  | expectedTopicNotAuthorized
  | expectedTopicsAllVisible
  | truncated
  | administratorAttestation
  | attestationExpired
  | attestationPrincipalMismatch
  | attestationClusterIdMismatch
  deriving DecidableEq

def VisibilityBasis.rank : VisibilityBasis → Nat
  | .listingOnly => 0
  | .topicAuthorizationErrorInListing => 1
  | .expectedTopicNotAuthorized => 2
  | .expectedTopicsAllVisible => 3
  | .truncated => 4
  | .administratorAttestation => 5
  | .attestationExpired => 6
  | .attestationPrincipalMismatch => 7
  | .attestationClusterIdMismatch => 8

theorem rank_injective : Function.Injective VisibilityBasis.rank := by
  intro a b same
  cases a <;> cases b <;> first
    | rfl
    | cases same

instance : LinearOrder VisibilityBasis := LinearOrder.lift' VisibilityBasis.rank rank_injective

structure Visibility where
  state : VisibilityState
  basis : List VisibilityBasis
  attestation : Option AttestationRef

def VisibilitySignals.limited (signals : VisibilitySignals) : Bool :=
  signals.topicAuthorizationErrorInListing || decide (0 < signals.expected.notAuthorized)

def VisibilitySignals.basis (signals : VisibilitySignals) : List VisibilityBasis :=
  (if signals.topicAuthorizationErrorInListing then [.topicAuthorizationErrorInListing] else []) ++
    (if 0 < signals.expected.notAuthorized then [.expectedTopicNotAuthorized] else []) ++
    (if 0 < signals.expected.requested ∧ signals.expected.notAuthorized = 0 ∧
        signals.expected.visible = signals.expected.requested then
      [.expectedTopicsAllVisible] else []) ++
    (if signals.truncated then [.truncated] else [])

def Attestation.refusals (a : Attestation) (signals : VisibilitySignals) (now : Instant) :
    List VisibilityBasis :=
  (if a.principal ≠ signals.principal then [.attestationPrincipalMismatch] else []) ++
    (if a.clusterId ≠ signals.clusterId then [.attestationClusterIdMismatch] else []) ++
    (if a.expiresAt ≤ now then [.attestationExpired] else [])

def Attestation.ref (a : Attestation) : AttestationRef := ⟨a.id, a.attestedBy, a.attestedAt, a.expiresAt⟩

def judged (signals : VisibilitySignals) (now : Instant) :
    Option Attestation → List VisibilityBasis × Option AttestationRef
  | none => ([], none)
  | some a =>
      if a.refusals signals now = [] ∧ ¬ signals.limited ∧ ¬ signals.truncated then
        ([.administratorAttestation], some a.ref)
      else (a.refusals signals now, none)

def visibility (signals : VisibilitySignals) (attestation : Option Attestation) (now : Instant) :
    Visibility :=
  let candidate := attestation.filter fun a =>
    decide (a.namespace_ = signals.namespace_ ∧ a.kafkaCluster = signals.kafkaCluster)
  let (why, attested) := judged signals now candidate
  let basis := signals.basis ++ why
  { state :=
      if signals.limited then .limited
      else if attested.isSome then .attestedComplete
      else .unknown
    basis := Ordered.sortDedup (if basis = [] then [.listingOnly] else basis)
    attestation := attested }

def attestationFor (attestations : List Attestation) (namespace_ clusterName : String) :
    Option Attestation :=
  attestations.find? fun a => decide (a.namespace_ = namespace_ ∧ a.kafkaCluster = clusterName)

def blank (v : String) : Bool := trim v = ""

def attestationCandidate (attestations : List Attestation)
    (namespace_ clusterName principal clusterId : String) : Option Attestation :=
  if blank namespace_ || blank clusterName || blank principal || blank clusterId then none
  else
    match attestationFor attestations namespace_ clusterName with
    | none => none
    | some a =>
        if blank a.namespace_ || blank a.kafkaCluster || blank a.principal || blank a.clusterId then
          none
        else some a

def visibilitySignals (inventory : InventoryResult) (namespace_ clusterName principal : String) :
    VisibilitySignals where
  namespace_ := namespace_
  kafkaCluster := clusterName
  clusterId := inventory.clusterId.getD ""
  principal := principal
  topicAuthorizationErrorInListing := inventory.topicAuthorizationErrorInListing
  expected := inventory.expected
  truncated := inventory.truncated

def runTimeVisibility (attestations : List Attestation) (inventory : InventoryResult)
    (namespace_ clusterName principal : String) (now : Instant) : Visibility :=
  let signals := visibilitySignals inventory namespace_ clusterName principal
  visibility signals
    (attestationCandidate attestations namespace_ clusterName principal signals.clusterId) now

/-- An attestation that has not expired at `now` and names the observation in all four. -/
structure Attestation.Covers (a : Attestation) (namespace_ clusterName principal clusterId : String)
    (now : Instant) : Prop where
  namespace_eq : a.namespace_ = namespace_
  cluster_eq : a.kafkaCluster = clusterName
  principal_eq : a.principal = principal
  clusterId_eq : a.clusterId = clusterId
  unexpired : now < a.expiresAt

section

variable {signals : VisibilitySignals} {now : Instant} {a : Attestation}

theorem refusals_eq_nil : a.refusals signals now = [] ↔
    a.principal = signals.principal ∧ a.clusterId = signals.clusterId ∧ now < a.expiresAt := by
  unfold Attestation.refusals
  rw [List.append_eq_nil_iff, List.append_eq_nil_iff, ite_eq_right_iff, ite_eq_right_iff,
    ite_eq_right_iff]
  simp only [List.cons_ne_nil, imp_false, ne_eq, not_not, not_le, and_assoc]

theorem limited_eq_false : signals.limited = false ↔
    signals.topicAuthorizationErrorInListing = false ∧ signals.expected.notAuthorized = 0 := by
  unfold VisibilitySignals.limited
  rw [Bool.or_eq_false_iff, decide_eq_false_iff_not, Nat.not_lt, Nat.le_zero]

theorem judged_isSome {candidate : Option Attestation} :
    (judged signals now candidate).2.isSome = true ↔ ∃ a, candidate = some a ∧
      a.refusals signals now = [] ∧ signals.limited = false ∧ signals.truncated = false := by
  cases candidate with
  | none =>
      refine ⟨fun some_ => ?_, fun ⟨a, some_, _⟩ => ?_⟩
      · cases some_
      · cases some_
  | some a =>
      have eq : judged signals now (some a) = if a.refusals signals now = [] ∧ ¬ signals.limited ∧
          ¬ signals.truncated then ([.administratorAttestation], some a.ref)
        else (a.refusals signals now, none) := rfl
      rw [eq]
      constructor
      · intro some_
        split at some_
        · rename_i applies
          obtain ⟨refused, limited, truncated⟩ := applies
          exact ⟨a, rfl, refused, Bool.eq_false_iff.mpr limited, Bool.eq_false_iff.mpr truncated⟩
        · cases some_
      · intro applies
        obtain ⟨_, same, refused, limited, truncated⟩ := applies
        cases same
        rw [if_pos ⟨refused, Bool.eq_false_iff.mp limited, Bool.eq_false_iff.mp truncated⟩]
        rfl

theorem attestedComplete_iff {attestation : Option Attestation} :
    (visibility signals attestation now).state = .attestedComplete ↔
      signals.topicAuthorizationErrorInListing = false ∧ signals.expected.notAuthorized = 0 ∧
        signals.truncated = false ∧ ∃ a, attestation = some a ∧ a.Covers signals.namespace_
          signals.kafkaCluster signals.principal signals.clusterId now := by
  have state : (visibility signals attestation now).state = .attestedComplete ↔
      signals.limited = false ∧ (judged signals now (attestation.filter fun a =>
        decide (a.namespace_ = signals.namespace_ ∧
          a.kafkaCluster = signals.kafkaCluster))).2.isSome = true := by
    unfold visibility
    dsimp only
    split
    · rename_i limited
      exact ⟨fun same => VisibilityState.noConfusion same,
        fun free => absurd (limited.symm.trans free.1) (by decide)⟩
    · rename_i free
      split
      · rename_i some_
        exact ⟨fun _ => ⟨Bool.eq_false_iff.mpr free, some_⟩, fun _ => rfl⟩
      · rename_i none_
        exact ⟨fun same => VisibilityState.noConfusion same, fun some_ => absurd some_.2 none_⟩
  rw [state, judged_isSome, limited_eq_false]
  constructor
  · intro applies
    obtain ⟨⟨listing, expected⟩, a, kept, refused, -, truncated⟩ := applies
    obtain ⟨given, about⟩ := Option.filter_eq_some_iff.mp kept
    obtain ⟨namespace_, cluster⟩ := of_decide_eq_true about
    obtain ⟨principal, clusterId, unexpired⟩ := refusals_eq_nil.mp refused
    exact ⟨listing, expected, truncated, a, given, namespace_, cluster, principal, clusterId,
      unexpired⟩
  · intro covered
    obtain ⟨listing, expected, truncated, a, given, covers⟩ := covered
    exact ⟨⟨listing, expected⟩, a, Option.filter_eq_some_iff.mpr ⟨given,
      decide_eq_true ⟨covers.namespace_eq, covers.cluster_eq⟩⟩,
      refusals_eq_nil.mpr ⟨covers.principal_eq, covers.clusterId_eq, covers.unexpired⟩,
      ⟨listing, expected⟩, truncated⟩

end

theorem attestationCandidate_eq_some {attestations : List Attestation} {a : Attestation}
    {namespace_ clusterName principal clusterId : String}
    (candidate : attestationCandidate attestations namespace_ clusterName principal clusterId =
      some a) : a ∈ attestations ∧ blank namespace_ = false ∧ blank clusterName = false ∧
        blank principal = false ∧ blank clusterId = false := by
  unfold attestationCandidate at candidate
  split at candidate
  · cases candidate
  rename_i named
  split at candidate
  · cases candidate
  rename_i found here
  split at candidate
  · cases candidate
  cases candidate
  simp only [Bool.or_eq_true, not_or, Bool.not_eq_true] at named
  obtain ⟨⟨⟨namespace_, cluster⟩, principal⟩, clusterId⟩ := named
  exact ⟨List.mem_of_find?_eq_some here, namespace_, cluster, principal, clusterId⟩

theorem covered_of_attestedComplete {attestations : List Attestation} {inventory : InventoryResult}
    {namespace_ clusterName principal : String} {now : Instant}
    (attested : (runTimeVisibility attestations inventory namespace_ clusterName principal
      now).state = .attestedComplete) :
    inventory.topicAuthorizationErrorInListing = false ∧ inventory.expected.notAuthorized = 0 ∧
      ∃ a ∈ attestations, ∃ clusterId, inventory.clusterId = some clusterId ∧
        a.Covers namespace_ clusterName principal clusterId now ∧ blank namespace_ = false ∧
          blank clusterName = false ∧ blank principal = false ∧ blank clusterId = false := by
  obtain ⟨listing, expected, -, a, candidate, covers⟩ := attestedComplete_iff.mp attested
  obtain ⟨known, namespaces, clusters, principals, ids⟩ := attestationCandidate_eq_some candidate
  refine ⟨listing, expected, a, known, ?_⟩
  unfold visibilitySignals at covers ids
  dsimp only at covers ids
  cases clusterId : inventory.clusterId with
  | none =>
      rw [clusterId] at ids
      exact absurd ids (by decide)
  | some id =>
      rw [clusterId] at covers ids
      exact ⟨id, rfl, covers, namespaces, clusters, principals, ids⟩

end Logweir.Discovery
