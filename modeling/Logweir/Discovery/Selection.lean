import Mathlib.Algebra.Ring.Nat
import Logweir.Discovery.Visibility

/-!
# The selection a discovery freezes

`backup_selection::classify` and `resolved_selection`, and what `resolve_inputs` refuses of a topic
list.  A relayed listing is split by what may be backed up; what is left is frozen when the listing
is whole and a broker could hold every name, within the bounds of one plan, under the coverage its
visibility allows.
-/

set_option autoImplicit false

namespace Logweir.Discovery

open Logweir.Ordered (sortDedup)

inductive IncompleteDiscovery where
  | refuse
  | backUpVisibleTopics
  deriving DecidableEq

structure TopicExclusions where
  topics : Option (List String)
  prefixes : Option (List String)

structure AllUserTopics where
  exclude : Option TopicExclusions
  incompleteDiscovery : IncompleteDiscovery

structure Exclusions where
  topics : List String
  prefixes : List String
  deriving DecidableEq

/-- `Exclusions::from_policy`. -/
def Exclusions.fromPolicy (policy : AllUserTopics) : Exclusions :=
  let canonical (v : Option (List String)) := sortDedup (v.getD [])
  ⟨canonical (policy.exclude.bind TopicExclusions.topics),
    canonical (policy.exclude.bind TopicExclusions.prefixes)⟩

/-- `str::starts_with`. -/
def startsWith (name front : String) : Bool := front.toList.isPrefixOf name.toList

def Exclusions.excludes (exclusions : Exclusions) (name : String) : Bool :=
  exclusions.topics.any (fun t => t = name) ||
    exclusions.prefixes.any fun p => decide (p ≠ "") && startsWith name p

def Exclusions.inputs (exclusions : Exclusions) : Option Exclusions :=
  if exclusions.topics = [] ∧ exclusions.prefixes = [] then none else some exclusions

inductive CheckCode where
  | topicAuthorizationFailed
  | other (code : String)
  deriving DecidableEq

structure TopicEntry where
  name : String
  partitions : Nat
  internal : Bool
  expected : Bool
  error : Option CheckCode

def nameIsInternal (name : String) : Bool := startsWith name "__"

structure Classification where
  resolved : List String
  internal : List String
  excluded : List String
  limited : List String
  visible : Nat

def Classification.push (exclusions : Exclusions) (out : Classification) (entry : TopicEntry) :
    Classification :=
  if entry.internal || nameIsInternal entry.name then
    { out with internal := out.internal ++ [entry.name] }
  else if entry.error.isSome then { out with limited := out.limited ++ [entry.name] }
  else if exclusions.excludes entry.name then { out with excluded := out.excluded ++ [entry.name] }
  else { out with resolved := out.resolved ++ [entry.name] }

def classify (entries : List TopicEntry) (exclusions : Exclusions) : Classification :=
  let out := entries.foldl (Classification.push exclusions) ⟨[], [], [], [], entries.length⟩
  { resolved := sortDedup out.resolved
    internal := sortDedup out.internal
    excluded := sortDedup out.excluded
    limited := sortDedup out.limited
    visible := out.visible }

def maxInternalNames : Nat := 50
def maxExcludedNames : Nat := 200
def maxProvenanceNameBytes : Nat := 16 * 1024

def i64Max : Nat := 9223372036854775807

/-- `i64::try_from(n).unwrap_or(i64::MAX)`. -/
def i64OfUsize (n : Nat) : Int := if n ≤ i64Max then n else i64Max

structure DiscoveryNames where
  count : Int
  names : List String
  truncated : Bool

def keepWithin : Nat → List String → List String × Nat
  | budget, [] => ([], budget)
  | budget, name :: names =>
      if budget < name.utf8ByteSize then ([], budget)
      else
        let (kept, left) := keepWithin (budget - name.utf8ByteSize) names
        (name :: kept, left)

def bounded (names : List String) (cap budget : Nat) : DiscoveryNames × Nat :=
  let (kept, left) := keepWithin budget (names.take cap)
  (⟨i64OfUsize names.length, kept, decide (kept.length < names.length)⟩, left)

def maxTopicNameChars : Nat := 249

def topicNameIsKafkaLegal (name : String) : Bool :=
  decide (name ≠ "") && decide (name.utf8ByteSize ≤ maxTopicNameChars) && decide (name ≠ ".") &&
    decide (name ≠ "..") &&
      name.toList.all fun c => c.isAlphanum || c == '.' || c == '_' || c == '-'

def rejectNonKafkaTopicNames (entries : List String) : Except String Unit :=
  match entries.find? fun entry => !topicNameIsKafkaLegal entry with
  | some entry => .error entry
  | none => .ok ()

def globMetacharacters : List Char := ['*', '?', '[', ']', '{', '}']

def rejectGlobMetacharacters (entries : List String) : Except String Unit :=
  match entries.find? fun entry => entry.toList.any fun c => globMetacharacters.contains c with
  | some entry => .error entry
  | none => .ok ()

inductive Coverage where
  | namedTopics
  | allUserTopicsAttested
  | visibleUserTopicsOnly
  deriving DecidableEq

inductive SelectionMode where
  | selectedTopics
  | allUserTopics

def coverageFor (state : VisibilityState) (policy : IncompleteDiscovery) : Option Coverage :=
  match state with
  | .attestedComplete => some .allUserTopicsAttested
  | .unknown | .limited =>
      match policy with
      | .backUpVisibleTopics => some .visibleUserTopicsOnly
      | .refuse => none

structure DiscoveryInputs where
  observedAt : String
  clusterId : String
  visibility : String
  basis : String
  resultSha256 : String
  visibleTopicCount : Int
  internalExcluded : DiscoveryNames
  excludedByRule : DiscoveryNames
  limitedTopicCount : Int
  discoveryJob : String

structure SelectionInputs where
  mode : SelectionMode
  coverage : Coverage
  resolvedTopicCount : Int
  resolvedTopicBytes : Int
  exclude : Option Exclusions
  incompleteDiscovery : Option IncompleteDiscovery
  discovery : Option DiscoveryInputs

structure ResolvedSelection where
  topics : List String
  selection : SelectionInputs

structure Observed where
  inventory : InventoryResult
  classification : Classification
  visibility : VisibilityState
  observedAt : Instant
  jobName : String

/-- The texts taken from elsewhere: an instant in RFC 3339 to the second, and an entry redacted and
shortened for a status. -/
structure Texts where
  rfc3339 : Instant → String
  shown : String → String

def discoveryBasis : String := "metadata-list"
def maxBackupTopics : Nat := 1000
def maxResolvedTopics : Nat := maxBackupTopics
def maxResolvedTopicBytes : Nat := 256 * 1024
def selectionTooLarge : String := "BackupSelectionTooLarge"
def receiptTopicBudgetBytes : Nat := 5000
def maxReceiptBytes : Nat := 128 * 1024 + maxBackupTopics * receiptTopicBudgetBytes

abbrev Refusal := String × String

def truncatedText (inventory : InventoryResult) (backupName : String) : String :=
  "the discovery for " ++ backupName ++ " was truncated after " ++ toString inventory.counts.returned ++
    " of the cluster's topics (" ++ (match inventory.truncationReason with
      | none => "unspecified"
      | some .maxTopics => "the plan's maxTopics"
      | some .relayLimit => "the relay budget") ++
    "), so the names it returned are a PREFIX of what the principal can see; a dynamic run may not " ++
    "freeze a prefix and call it every user topic. Name the topics explicitly, or split the " ++
    "cluster across schedules"

def unreadableText (P : Texts) (backupName entry : String) : String :=
  "the discovery for " ++ backupName ++ " relayed `" ++ P.shown entry ++ "`, which is not a name a " ++
    "Kafka broker accepts (`^[a-zA-Z0-9._-]\x7b1,249\x7d$`); a listing carrying a name the cluster " ++
    "could not hold is not a listing this run selects from"

def incompleteText (observed : Observed) (backupName : String) : String :=
  "the discovery for " ++ backupName ++ " could not establish that it saw every user topic " ++
    "(visibility `" ++ observed.visibility.asStr ++ "`, " ++
    toString observed.classification.limited.length ++ " topic(s) the broker refused to describe) " ++
    "and spec.allUserTopics.incompleteDiscovery is `Refuse`. Kafka omits topics a principal cannot " ++
    "describe, so a successful listing alone is never proof; grant the principal Describe on the " ++
    "cluster, record an administrator attestation, or choose `BackUpVisibleTopics` and accept the " ++
    "`VisibleUserTopicsOnly` label"

def emptyText (c : Classification) (backupName : String) : String :=
  "the discovery for " ++ backupName ++ " resolved no topics at all: " ++ toString c.visible ++
    " visible, " ++ toString c.internal.length ++ " internal, " ++ toString c.excluded.length ++
    " removed by spec.allUserTopics.exclude, " ++ toString c.limited.length ++ " the broker refused " ++
    "to describe. A mandatory allowlist whose absence means `all topics` is not an allowlist " ++
    "(guard G-GLOB), so no runner Job is created and this run is not retried"

def tooLargeText (backupName : String) (topics bytes : Nat) : String :=
  selectionTooLarge ++ ": the discovery for " ++ backupName ++ " resolved " ++ toString topics ++
    " topics taking " ++ toString bytes ++ " bytes of names, over the " ++
    toString maxResolvedTopics ++ " topics / " ++ toString maxResolvedTopicBytes ++
    " bytes one backup may name. A backup signs a receipt of up to " ++
    toString receiptTopicBudgetBytes ++ " bytes a topic, and one over " ++ toString maxReceiptBytes ++
    " bytes could not be listed by the recovery catalog or verified by the controller; no topic is " ++
    "left out to make the selection fit. Exclude more, or split the cluster across schedules"

def nameBytes (names : List String) : Nat := (names.map String.utf8ByteSize).sum

def discoveryInputs (P : Texts) (observed : Observed) : DiscoveryInputs :=
  let c := observed.classification
  let (internalNames, left) := bounded c.internal maxInternalNames maxProvenanceNameBytes
  let (excludedNames, _) := bounded c.excluded maxExcludedNames left
  { observedAt := P.rfc3339 observed.observedAt
    clusterId := observed.inventory.clusterId.getD ""
    visibility := observed.visibility.asStr
    basis := discoveryBasis
    resultSha256 := observed.inventory.topicsSha256
    visibleTopicCount := i64OfUsize c.visible
    internalExcluded := internalNames
    excludedByRule := excludedNames
    limitedTopicCount := i64OfUsize c.limited.length
    discoveryJob := observed.jobName }

def resolvedSelection (P : Texts) (observed : Observed) (exclusions : Exclusions)
    (policy : IncompleteDiscovery) (backupName : String) : Except Refusal ResolvedSelection :=
  if observed.inventory.truncated then
    .error ("SelectionTooLarge", truncatedText observed.inventory backupName)
  else
    match rejectNonKafkaTopicNames observed.classification.resolved with
    | .error entry => .error ("DiscoveryResultUnreadable", unreadableText P backupName entry)
    | .ok () =>
    match coverageFor observed.visibility policy with
    | none => .error ("DiscoveryIncomplete", incompleteText observed backupName)
    | some coverage =>
    let topics := observed.classification.resolved
    if topics = [] then .error ("SelectionEmpty", emptyText observed.classification backupName)
    else if maxResolvedTopics < topics.length ∨ maxResolvedTopicBytes < nameBytes topics then
      .error ("SelectionTooLarge", tooLargeText backupName topics.length (nameBytes topics))
    else
      .ok {
        topics := topics
        selection := {
          mode := .allUserTopics
          coverage := coverage
          resolvedTopicCount := i64OfUsize topics.length
          resolvedTopicBytes := i64OfUsize (nameBytes topics)
          exclude := exclusions.inputs
          incompleteDiscovery := some policy
          discovery := some (discoveryInputs P observed) } }

def topicRefusal (topics : List String) : Option String :=
  if topics = [] then some "SelectionEmpty"
  else
    match rejectGlobMetacharacters topics, rejectNonKafkaTopicNames topics with
    | .error _, _ => some "InvalidTopicSelection"
    | .ok (), .error _ => some "InvalidTopicSelection"
    | .ok (), .ok () => if maxBackupTopics < topics.length then some "SelectionTooLarge" else none

def TopicEntry.isInternal (e : TopicEntry) : Bool := e.internal || nameIsInternal e.name

def TopicEntry.isLimited (e : TopicEntry) : Bool := !e.isInternal && e.error.isSome

def TopicEntry.isExcluded (exclusions : Exclusions) (e : TopicEntry) : Bool :=
  !e.isInternal && e.error.isNone && exclusions.excludes e.name

def TopicEntry.isUser (exclusions : Exclusions) (e : TopicEntry) : Bool :=
  !e.isInternal && e.error.isNone && !exclusions.excludes e.name

def bucket (kept : TopicEntry → Bool) (entries : List TopicEntry) : List String :=
  sortDedup ((entries.filter kept).map TopicEntry.name)

section

variable {exclusions : Exclusions} {entries entries' : List TopicEntry} {kept : TopicEntry → Bool}

theorem foldl_push (entries : List TopicEntry) (out : Classification) :
    entries.foldl (Classification.push exclusions) out =
      { resolved := out.resolved ++ (entries.filter (TopicEntry.isUser exclusions)).map TopicEntry.name
        internal := out.internal ++ (entries.filter TopicEntry.isInternal).map TopicEntry.name
        excluded := out.excluded ++
          (entries.filter (TopicEntry.isExcluded exclusions)).map TopicEntry.name
        limited := out.limited ++ (entries.filter TopicEntry.isLimited).map TopicEntry.name
        visible := out.visible } := by
  induction entries generalizing out with
  | nil => simp only [List.foldl_nil, List.filter_nil, List.map_nil, List.append_nil]
  | cons e entries ih =>
      rw [List.foldl_cons, ih]
      unfold Classification.push
      by_cases internal : e.isInternal = true
      · have here : (e.internal || nameIsInternal e.name) = true := internal
        rw [if_pos here]
        simp [TopicEntry.isUser, TopicEntry.isExcluded, TopicEntry.isLimited, internal]
      · have here : ¬ (e.internal || nameIsInternal e.name) = true := internal
        rw [if_neg here]
        by_cases limited : e.error.isSome = true
        · simp [TopicEntry.isUser, TopicEntry.isExcluded, TopicEntry.isLimited, internal, limited,
            Option.isNone_iff_eq_none, Option.isSome_iff_ne_none.mp limited]
        · have clean : e.error = none := Option.not_isSome_iff_eq_none.mp limited
          by_cases excluded : exclusions.excludes e.name = true
          · simp [TopicEntry.isUser, TopicEntry.isExcluded, TopicEntry.isLimited, internal, clean,
              excluded]
          · simp [TopicEntry.isUser, TopicEntry.isExcluded, TopicEntry.isLimited, internal, clean,
              excluded]

theorem classify_eq (entries : List TopicEntry) (exclusions : Exclusions) :
    classify entries exclusions =
      { resolved := bucket (TopicEntry.isUser exclusions) entries
        internal := bucket TopicEntry.isInternal entries
        excluded := bucket (TopicEntry.isExcluded exclusions) entries
        limited := bucket TopicEntry.isLimited entries
        visible := entries.length } := by
  unfold classify bucket
  rw [foldl_push]
  rfl

theorem mem_bucket {name : String} :
    name ∈ bucket kept entries ↔ ∃ e ∈ entries, kept e = true ∧ e.name = name := by
  unfold bucket
  rw [Ordered.mem_sortDedup, List.mem_map]
  simp only [List.mem_filter, and_assoc]

theorem bucket_perm (same : entries.Perm entries') : bucket kept entries' = bucket kept entries :=
  Ordered.sortDedup_congr fun _ => (((same.filter kept).map TopicEntry.name).mem_iff).symm

theorem classify_perm (same : entries.Perm entries') :
    classify entries' exclusions = classify entries exclusions := by
  rw [classify_eq, classify_eq, bucket_perm same, bucket_perm same, bucket_perm same,
    bucket_perm same, same.length_eq]

theorem length_bucket (distinct : (entries.map TopicEntry.name).Nodup) :
    (bucket kept entries).length = entries.countP kept := by
  have names : ((entries.filter kept).map TopicEntry.name).Nodup :=
    distinct.sublist (List.filter_sublist.map TopicEntry.name)
  have perm : (bucket kept entries).Perm ((entries.filter kept).map TopicEntry.name) :=
    (List.perm_ext_iff_of_nodup ((Ordered.ascending_sortDedup _).imp ne_of_lt) names).mpr
      fun _ => Ordered.mem_sortDedup
  rw [perm.length_eq, List.length_map, List.countP_eq_length_filter]

theorem countP_buckets (exclusions : Exclusions) (entries : List TopicEntry) :
    entries.length = entries.countP (TopicEntry.isUser exclusions) +
      entries.countP TopicEntry.isInternal + entries.countP (TopicEntry.isExcluded exclusions) +
        entries.countP TopicEntry.isLimited := by
  induction entries with
  | nil => rfl
  | cons e entries ih =>
      have one : (if e.isUser exclusions = true then 1 else 0) +
          (if e.isInternal = true then 1 else 0) + (if e.isExcluded exclusions = true then 1 else 0) +
            (if e.isLimited = true then 1 else 0) = 1 := by
        unfold TopicEntry.isUser TopicEntry.isExcluded TopicEntry.isLimited
        generalize e.isInternal = internal
        generalize exclusions.excludes e.name = excluded
        cases internal <;> cases e.error <;> cases excluded <;> rfl
      simp only [List.countP_cons, List.length_cons]
      omega

end

end Logweir.Discovery
