import Logweir.Discovery.Selection

/-!
# What a frozen selection is

A discovery's selection is frozen exactly when the listing is whole and its user topics are legal,
some, and within bounds, and the coverage is attested or may be partial; what is frozen is these
topics, with every entry counted once and samples of what was left out.
-/

set_option autoImplicit false

namespace Logweir.Discovery

open Logweir.Ordered (sortDedup)

/-- A name the policy leaves out: by itself, or by a literal front. -/
def AllUserTopics.Excludes (policy : AllUserTopics) (name : String) : Prop :=
  name ∈ (policy.exclude.bind TopicExclusions.topics).getD [] ∨
    ∃ front ∈ (policy.exclude.bind TopicExclusions.prefixes).getD [],
      front ≠ "" ∧ front.toList <+: name.toList

structure TopicEntry.User (policy : AllUserTopics) (e : TopicEntry) : Prop where
  unflagged : e.internal = false
  unreserved : ¬ "__".toList <+: e.name.toList
  described : e.error = none
  wanted : ¬ policy.Excludes e.name

structure Listing where
  inventory : InventoryResult
  entries : List TopicEntry
  distinct : (entries.map TopicEntry.name).Nodup
  sized : entries.length ≤ i64Max

/-- The document says it when an entry of the listing was not authorized. -/
def Listing.Reports (l : Listing) : Prop := ∀ e ∈ l.entries,
  e.error = some .topicAuthorizationFailed → l.inventory.topicAuthorizationErrorInListing = true

/-- A sample of `names`: their first ones, said to be cut exactly when it is. -/
structure Sample (cap : Nat) (names : List String) (sample : DiscoveryNames) : Prop where
  first : sample.names <+: names
  capped : sample.names.length ≤ cap
  count : sample.count = names.length
  cut : sample.truncated = true ↔ sample.names ≠ names

/-- The provenance of a frozen selection: each entry is counted once, by what it is. -/
structure Accounted (exclusions : Exclusions) (entries : List TopicEntry) (s : SelectionInputs)
    (d : DiscoveryInputs) : Prop where
  recorded : s.discovery = some d
  visible : d.visibleTopicCount = entries.length
  resolved : s.resolvedTopicCount = entries.countP (TopicEntry.isUser exclusions)
  internal : d.internalExcluded.count = entries.countP TopicEntry.isInternal
  excluded : d.excludedByRule.count = entries.countP (TopicEntry.isExcluded exclusions)
  limited : d.limitedTopicCount = entries.countP TopicEntry.isLimited
  once : d.visibleTopicCount = s.resolvedTopicCount + d.internalExcluded.count +
    d.excludedByRule.count + d.limitedTopicCount
  internalSample : Sample maxInternalNames (bucket TopicEntry.isInternal entries) d.internalExcluded
  excludedSample : Sample maxExcludedNames (bucket (TopicEntry.isExcluded exclusions) entries)
    d.excludedByRule
  budget : nameBytes d.internalExcluded.names + nameBytes d.excludedByRule.names ≤
    maxProvenanceNameBytes

theorem startsWith_iff {name front : String} :
    startsWith name front = true ↔ front.toList <+: name.toList := List.isPrefixOf_iff_prefix

theorem excludes_iff {policy : AllUserTopics} {name : String} :
    (Exclusions.fromPolicy policy).excludes name = true ↔ policy.Excludes name := by
  unfold Exclusions.excludes Exclusions.fromPolicy AllUserTopics.Excludes
  simp only [Bool.or_eq_true, List.any_eq_true, Ordered.mem_sortDedup, decide_eq_true_eq,
    Bool.and_eq_true, startsWith_iff, exists_eq_right]

theorem isUser_iff {policy : AllUserTopics} {e : TopicEntry} :
    e.isUser (Exclusions.fromPolicy policy) = true ↔ e.User policy := by
  unfold TopicEntry.isUser TopicEntry.isInternal nameIsInternal
  rw [Bool.and_eq_true, Bool.and_eq_true, Bool.not_eq_true', Bool.not_eq_true',
    Bool.or_eq_false_iff, ← Bool.not_eq_true, ← Bool.not_eq_true, ← Bool.not_eq_true, excludes_iff,
    startsWith_iff, Option.isNone_iff_eq_none, Bool.not_eq_true]
  exact ⟨fun user => ⟨user.1.1.1, user.1.1.2, user.1.2, user.2⟩,
    fun user => ⟨⟨⟨user.unflagged, user.unreserved⟩, user.described⟩, user.wanted⟩⟩

theorem keepWithin_cons (budget : Nat) (name : String) (names : List String) :
    keepWithin budget (name :: names) = if budget < name.utf8ByteSize then ([], budget)
      else (name :: (keepWithin (budget - name.utf8ByteSize) names).1,
        (keepWithin (budget - name.utf8ByteSize) names).2) := rfl

theorem keepWithin_spec (budget : Nat) (names : List String) :
    (keepWithin budget names).1 <+: names ∧
      nameBytes (keepWithin budget names).1 + (keepWithin budget names).2 = budget := by
  induction names generalizing budget with
  | nil => exact ⟨List.prefix_refl _, Nat.zero_add budget⟩
  | cons name names ih =>
      rw [keepWithin_cons]
      split
      · exact ⟨List.nil_prefix, Nat.zero_add budget⟩
      · rename_i fits
        obtain ⟨front, spent⟩ := ih (budget - name.utf8ByteSize)
        refine ⟨List.cons_prefix_cons.mpr ⟨rfl, front⟩, ?_⟩
        unfold nameBytes at spent ⊢
        rw [List.map_cons, List.sum_cons]
        omega

theorem i64OfUsize_eq {n : Nat} (small : n ≤ i64Max) : i64OfUsize n = n := if_pos small

theorem bounded_spec {names : List String} (cap budget : Nat) (small : names.length ≤ i64Max) :
    Sample cap names (bounded names cap budget).1 ∧
      nameBytes (bounded names cap budget).1.names + (bounded names cap budget).2 = budget := by
  obtain ⟨front, spent⟩ := keepWithin_spec budget (names.take cap)
  have first : (keepWithin budget (names.take cap)).1 <+: names :=
    front.trans (List.take_prefix cap names)
  refine ⟨⟨first, Nat.le_trans front.length_le (List.length_take_le cap names),
    i64OfUsize_eq small, ?_⟩, spent⟩
  have cut : (bounded names cap budget).1.truncated = true ↔
      (keepWithin budget (names.take cap)).1.length < names.length := decide_eq_true_iff
  rw [cut]
  constructor
  · intro shorter same
    have : (keepWithin budget (names.take cap)).1 = names := same
    rw [this] at shorter
    exact Nat.lt_irrefl _ shorter
  · intro differ
    exact Nat.lt_of_le_of_ne first.length_le fun long => differ (first.eq_of_length long)

theorem rejectNonKafkaTopicNames_eq_ok {topics : List String} :
    rejectNonKafkaTopicNames topics = .ok () ↔ ∀ name ∈ topics, topicNameIsKafkaLegal name = true := by
  unfold rejectNonKafkaTopicNames
  constructor
  · intro accepted name member
    split at accepted
    · cases accepted
    · rename_i none_
      simpa using List.find?_eq_none.mp none_ name member
  · intro legal
    have none_ : topics.find? (fun entry => !topicNameIsKafkaLegal entry) = none :=
      List.find?_eq_none.mpr fun name member => by rw [legal name member]; decide
    rw [none_]

theorem rejectGlobMetacharacters_of_legal {topics : List String}
    (legal : ∀ name ∈ topics, topicNameIsKafkaLegal name = true) :
    rejectGlobMetacharacters topics = .ok () := by
  unfold rejectGlobMetacharacters
  have none_ : topics.find? (fun entry => entry.toList.any fun c => globMetacharacters.contains c) =
      none := by
    refine List.find?_eq_none.mpr fun name member pattern => ?_
    obtain ⟨c, inside, glob⟩ := List.any_eq_true.mp pattern
    have allowed := legal name member
    unfold topicNameIsKafkaLegal at allowed
    rw [Bool.and_eq_true, List.all_eq_true] at allowed
    have one := allowed.2 c inside
    have none_ : globMetacharacters.all (fun g =>
        !(g.isAlphanum || g == '.' || g == '_' || g == '-')) = true := by decide
    have free := List.all_eq_true.mp none_ c (List.contains_iff_mem.mp glob)
    rw [one] at free
    cases free
  rw [none_]

theorem topicRefusal_eq_none {topics : List String}
    (legal : ∀ name ∈ topics, topicNameIsKafkaLegal name = true) (some_ : topics ≠ [])
    (few : topics.length ≤ maxBackupTopics) : topicRefusal topics = none := by
  unfold topicRefusal
  rw [if_neg some_, rejectGlobMetacharacters_of_legal legal,
    rejectNonKafkaTopicNames_eq_ok.mpr legal]
  exact if_neg (Nat.not_lt.mpr few)

theorem coverageFor_isSome {state : VisibilityState} {policy : IncompleteDiscovery} :
    (∃ coverage, coverageFor state policy = some coverage) ↔
      state = .attestedComplete ∨ policy = .backUpVisibleTopics := by
  cases state <;> cases policy <;> simp [coverageFor]

theorem attestedComplete_of_coverage {state : VisibilityState} {policy : IncompleteDiscovery}
    (attested : coverageFor state policy = some .allUserTopicsAttested) :
    state = .attestedComplete := by
  cases state with
  | attestedComplete => rfl
  | unknown => cases policy <;> cases attested
  | limited => cases policy <;> cases attested

section

variable {P : Texts} {observed : Observed} {exclusions : Exclusions} {policy : IncompleteDiscovery}
  {backupName : String} {s : ResolvedSelection}

/-- When a selection is frozen, and with what coverage. -/
structure Freezable (observed : Observed) (policy : IncompleteDiscovery) (coverage : Coverage) :
    Prop where
  whole : observed.inventory.truncated = false
  legal : ∀ name ∈ observed.classification.resolved, topicNameIsKafkaLegal name = true
  covered : coverageFor observed.visibility policy = some coverage
  some_ : observed.classification.resolved ≠ []
  few : observed.classification.resolved.length ≤ maxResolvedTopics
  small : nameBytes observed.classification.resolved ≤ maxResolvedTopicBytes

def frozenSelection (P : Texts) (observed : Observed) (exclusions : Exclusions)
    (policy : IncompleteDiscovery) (coverage : Coverage) : ResolvedSelection where
  topics := observed.classification.resolved
  selection := {
    mode := .allUserTopics
    coverage := coverage
    resolvedTopicCount := i64OfUsize observed.classification.resolved.length
    resolvedTopicBytes := i64OfUsize (nameBytes observed.classification.resolved)
    exclude := exclusions.inputs
    incompleteDiscovery := some policy
    discovery := some (discoveryInputs P observed) }

theorem resolvedSelection_eq_ok : resolvedSelection P observed exclusions policy backupName = .ok s ↔
    ∃ coverage, Freezable observed policy coverage ∧
      s = frozenSelection P observed exclusions policy coverage := by
  unfold resolvedSelection
  constructor
  · intro frozen
    split at frozen
    · cases frozen
    rename_i whole
    split at frozen
    · cases frozen
    rename_i legal
    split at frozen
    · cases frozen
    rename_i coverage covered
    dsimp only at frozen
    split at frozen
    · cases frozen
    rename_i some_
    split at frozen
    · cases frozen
    rename_i within
    obtain ⟨few, small⟩ := not_or.mp within
    cases frozen
    exact ⟨coverage, ⟨Bool.eq_false_iff.mpr whole, rejectNonKafkaTopicNames_eq_ok.mp legal, covered,
      some_, Nat.le_of_not_lt few, Nat.le_of_not_lt small⟩, rfl⟩
  · intro held
    obtain ⟨coverage, f, same⟩ := held
    subst same
    rw [if_neg (Bool.eq_false_iff.mp f.whole), rejectNonKafkaTopicNames_eq_ok.mpr f.legal, f.covered]
    dsimp only
    rw [if_neg f.some_, if_neg (not_or.mpr ⟨Nat.not_lt.mpr f.few, Nat.not_lt.mpr f.small⟩)]
    rfl

end

section

variable {P : Texts} {exclusions : Exclusions} {policy : AllUserTopics} {l : Listing}
  {state : VisibilityState} {observedAt : Instant} {jobName : String} {coverage : Coverage}

def Listing.observed (l : Listing) (exclusions : Exclusions) (state : VisibilityState)
    (observedAt : Instant) (jobName : String) : Observed :=
  ⟨l.inventory, classify l.entries exclusions, state, observedAt, jobName⟩

theorem length_bucket_le (l : Listing) (kept : TopicEntry → Bool) :
    (bucket kept l.entries).length ≤ i64Max := by
  rw [length_bucket l.distinct]
  exact Nat.le_trans List.countP_le_length l.sized

theorem accounted (P : Texts) (l : Listing) (exclusions : Exclusions) (state : VisibilityState)
    (observedAt : Instant) (jobName : String) (policy : IncompleteDiscovery) (coverage : Coverage) :
    Accounted exclusions l.entries
      (frozenSelection P (l.observed exclusions state observedAt jobName) exclusions policy
        coverage).selection (discoveryInputs P (l.observed exclusions state observedAt jobName)) := by
  have whole := classify_eq l.entries exclusions
  have resolved : i64OfUsize (classify l.entries exclusions).resolved.length =
      l.entries.countP (TopicEntry.isUser exclusions) := by
    rw [whole, i64OfUsize_eq (length_bucket_le l _), length_bucket l.distinct]
  have limited : i64OfUsize (classify l.entries exclusions).limited.length =
      l.entries.countP TopicEntry.isLimited := by
    rw [whole, i64OfUsize_eq (length_bucket_le l _), length_bucket l.distinct]
  have visible : i64OfUsize (classify l.entries exclusions).visible = l.entries.length := by
    rw [whole, i64OfUsize_eq l.sized]
  have internalNames : (discoveryInputs P (l.observed exclusions state observedAt
      jobName)).internalExcluded = (bounded (bucket TopicEntry.isInternal l.entries)
        maxInternalNames maxProvenanceNameBytes).1 :=
    congrArg (fun c : Classification => (bounded c.internal maxInternalNames maxProvenanceNameBytes).1) whole
  have excludedNames : (discoveryInputs P (l.observed exclusions state observedAt
      jobName)).excludedByRule = (bounded (bucket (TopicEntry.isExcluded exclusions) l.entries)
        maxExcludedNames (bounded (bucket TopicEntry.isInternal l.entries) maxInternalNames
          maxProvenanceNameBytes).2).1 :=
    congrArg (fun c : Classification => (bounded c.excluded maxExcludedNames
      (bounded c.internal maxInternalNames maxProvenanceNameBytes).2).1) whole
  obtain ⟨internalSample, spent⟩ := bounded_spec maxInternalNames maxProvenanceNameBytes
    (length_bucket_le l TopicEntry.isInternal)
  obtain ⟨excludedSample, spent'⟩ := bounded_spec maxExcludedNames
    (bounded (bucket TopicEntry.isInternal l.entries) maxInternalNames maxProvenanceNameBytes).2
    (length_bucket_le l (TopicEntry.isExcluded exclusions))
  rw [← internalNames] at internalSample spent
  rw [← excludedNames] at excludedSample spent'
  have internal := internalSample.count
  have excluded := excludedSample.count
  rw [length_bucket l.distinct] at internal excluded
  refine ⟨rfl, visible, resolved, internal, excluded, limited, ?_, internalSample, excludedSample,
    by omega⟩
  have parts := countP_buckets exclusions l.entries
  rw [internal, excluded]
  have counted := congrArg (fun n : Nat => (n : Int)) parts
  push_cast at counted
  refine visible.trans (counted.trans ?_)
  rw [← resolved, ← limited]
  rfl

end

/-- A dynamic selection freezes exactly the user topics of the listing.  It is made exactly when the
listing is whole, its user topics are legal, some and within both bounds, and the coverage is
attested or the policy takes what is visible; it does not depend on the entries' order; the freeze
refuses none of its names; it accounts for every entry; and it is called attested only where no
authorization error was observed and an unexpired attestation covers the observation. -/
theorem selection_freezes_the_user_topics (P : Texts) (l : Listing) (policy : AllUserTopics)
    (attestations : List Attestation) (namespace_ clusterName principal jobName backupName : String)
    (now observedAt : Instant) :
    let exclusions := Exclusions.fromPolicy policy
    let verdict := runTimeVisibility attestations l.inventory namespace_ clusterName principal now
    let outcome (entries : List TopicEntry) := resolvedSelection P
      ⟨l.inventory, classify entries exclusions, verdict.state, observedAt, jobName⟩ exclusions
      policy.incompleteDiscovery backupName
    ∃ topics : List String, topics.Pairwise (· < ·) ∧
      (∀ name, name ∈ topics ↔ ∃ e ∈ l.entries, e.User policy ∧ e.name = name) ∧
      ((∃ s, outcome l.entries = .ok s) ↔ l.inventory.truncated = false ∧
        (∀ name ∈ topics, topicNameIsKafkaLegal name = true) ∧ topics ≠ [] ∧
        topics.length ≤ maxResolvedTopics ∧ nameBytes topics ≤ maxResolvedTopicBytes ∧
        (verdict.state = .attestedComplete ∨
          policy.incompleteDiscovery = .backUpVisibleTopics)) ∧
      (∀ entries, l.entries.Perm entries → outcome entries = outcome l.entries) ∧
      ∀ s, outcome l.entries = .ok s → s.topics = topics ∧ topicRefusal s.topics = none ∧
        (∃ d, Accounted exclusions l.entries s.selection d) ∧
        (s.selection.coverage = .allUserTopicsAttested →
          l.inventory.topicAuthorizationErrorInListing = false ∧
          l.inventory.expected.notAuthorized = 0 ∧
          (l.Reports → ∀ e ∈ l.entries, e.error ≠ some .topicAuthorizationFailed) ∧
          ∃ a ∈ attestations, ∃ clusterId, l.inventory.clusterId = some clusterId ∧
            a.Covers namespace_ clusterName principal clusterId now ∧ blank namespace_ = false ∧
              blank clusterName = false ∧ blank principal = false ∧ blank clusterId = false) := by
  intro exclusions verdict outcome
  have resolved : (classify l.entries exclusions).resolved =
      bucket (TopicEntry.isUser exclusions) l.entries := by rw [classify_eq]
  refine ⟨bucket (TopicEntry.isUser exclusions) l.entries, Ordered.ascending_sortDedup _, ?_, ?_,
    ?_, ?_⟩
  · intro name
    rw [mem_bucket]
    exact exists_congr fun e => and_congr_right fun _ => and_congr_left fun _ => isUser_iff
  · rw [← resolved]
    constructor
    · intro made
      obtain ⟨s, made⟩ := made
      obtain ⟨coverage, f, -⟩ := resolvedSelection_eq_ok.mp made
      exact ⟨f.whole, f.legal, f.some_, f.few, f.small, coverageFor_isSome.mp ⟨coverage, f.covered⟩⟩
    · intro held
      obtain ⟨whole, legal, some_, few, small, allowed⟩ := held
      obtain ⟨coverage, covered⟩ := coverageFor_isSome.mpr allowed
      exact ⟨_, resolvedSelection_eq_ok.mpr
        ⟨coverage, ⟨whole, legal, covered, some_, few, small⟩, rfl⟩⟩
  · intro entries same
    have classified : classify entries exclusions = classify l.entries exclusions :=
      classify_perm same
    show resolvedSelection P ⟨_, classify entries exclusions, _, _, _⟩ _ _ _ = _
    rw [classified]
  · intro s made
    obtain ⟨coverage, f, same⟩ := resolvedSelection_eq_ok.mp made
    subst same
    refine ⟨resolved, topicRefusal_eq_none f.legal f.some_ f.few,
      ⟨_, accounted P l exclusions verdict.state observedAt jobName _ coverage⟩, fun attested => ?_⟩
    have all : coverage = .allUserTopicsAttested := attested
    subst all
    obtain ⟨listing, expected, covered⟩ :=
      covered_of_attestedComplete (attestedComplete_of_coverage f.covered)
    refine ⟨listing, expected, fun reports e member refused => ?_, covered⟩
    exact absurd ((reports e member refused).symm.trans listing) (by decide)

end Logweir.Discovery
