import Logweir.Core.EngineRuns
import Logweir.Core.RestoredCount

/-!
# Resolving a selection

`ReplaySelection::resolve` against an archive's facts: when it is refused, what it selects, and
that its two record counts hold what the window selects between them.
-/

set_option autoImplicit false

namespace Logweir.ReplaySelection

open Std (ExtTreeMap ExtTreeSet)
open Logweir.Engine Logweir.RecordTimes Logweir.RestoredCount

section Partition

variable (startMs endMs : Int)

def Reads (seg : SegmentFacts) : Prop :=
  segmentOverlaps startMs endMs seg.startTimestamp seg.endTimestamp = true

def Holds (seg : SegmentFacts) : Prop := startMs ≤ seg.startTimestamp ∧ seg.endTimestamp ≤ endMs

instance (seg : SegmentFacts) : Decidable (Reads startMs endMs seg) :=
  inferInstanceAs (Decidable (_ = true))

instance (seg : SegmentFacts) : Decidable (Holds startMs endMs seg) :=
  inferInstanceAs (Decidable (_ ∧ _))

def lowerOf (seg : SegmentFacts) : Nat :=
  if Reads startMs endMs seg ∧ Holds startMs endMs seg then seg.recordCount.toNat else 0

def upperOf (seg : SegmentFacts) : Nat :=
  if Reads startMs endMs seg then seg.recordCount.toNat else 0

/-- The selected partition, its segments taken one by one. -/
theorem selectedPartition_eq (topic : String) (p : PartitionFacts) :
    selectedPartition topic startMs endMs p =
      { topic, partition := p.partitionId
        segmentKeys := (p.segments.filter (Reads startMs endMs)).map SegmentFacts.key
        recordsLower := (p.segments.map (lowerOf startMs endMs)).sum
        recordsUpper := (p.segments.map (upperOf startMs endMs)).sum } := by
  have fold : ∀ (segments : List SegmentFacts) (keys : List String) (lower upper : Nat),
      segments.foldl (fun sp seg =>
        if segmentOverlaps startMs endMs seg.startTimestamp seg.endTimestamp then
          let n := seg.recordCount.toNat
          { sp with
            segmentKeys := sp.segmentKeys ++ [seg.key]
            recordsLower :=
              if startMs ≤ seg.startTimestamp ∧ seg.endTimestamp ≤ endMs
              then sp.recordsLower + n else sp.recordsLower
            recordsUpper := sp.recordsUpper + n }
        else sp) (⟨topic, p.partitionId, keys, lower, upper⟩ : SelectedPartition) =
      ⟨topic, p.partitionId, keys ++ (segments.filter (Reads startMs endMs)).map SegmentFacts.key,
        lower + (segments.map (lowerOf startMs endMs)).sum,
        upper + (segments.map (upperOf startMs endMs)).sum⟩ := by
    intro segments
    induction segments with
    | nil => intro keys lower upper; simp
    | cons seg segments ih =>
        intro keys lower upper
        rw [List.foldl_cons, List.map_cons, List.map_cons, List.sum_cons, List.sum_cons]
        by_cases reads : Reads startMs endMs seg
        · have overlaps : segmentOverlaps startMs endMs seg.startTimestamp seg.endTimestamp = true :=
            reads
          have kept : (seg :: segments).filter (Reads startMs endMs) =
              seg :: segments.filter (Reads startMs endMs) :=
            List.filter_cons_of_pos (decide_eq_true reads)
          rw [if_pos overlaps, kept, List.map_cons, upperOf, if_pos reads, lowerOf]
          by_cases holds : Holds startMs endMs seg
          · have inside : startMs ≤ seg.startTimestamp ∧ seg.endTimestamp ≤ endMs := holds
            dsimp only
            rw [if_pos inside, if_pos ⟨reads, holds⟩, ih]
            simp only [List.append_assoc, List.singleton_append, Nat.add_assoc]
          · have outside : ¬ (startMs ≤ seg.startTimestamp ∧ seg.endTimestamp ≤ endMs) := holds
            dsimp only
            rw [if_neg outside, if_neg fun both => holds both.2, ih]
            simp only [List.append_assoc, List.singleton_append, Nat.add_assoc, Nat.zero_add]
        · have apart : ¬ segmentOverlaps startMs endMs seg.startTimestamp seg.endTimestamp = true :=
            reads
          have skipped : (seg :: segments).filter (Reads startMs endMs) =
              segments.filter (Reads startMs endMs) :=
            List.filter_cons_of_neg fun kept => reads (of_decide_eq_true kept)
          rw [if_neg apart, skipped, upperOf, if_neg reads, lowerOf, if_neg fun both => reads both.1,
            ih, Nat.zero_add, Nat.zero_add]
  unfold selectedPartition
  rw [fold, List.nil_append, Nat.zero_add, Nat.zero_add]

end Partition

def ReplaySelection.named (sel : ReplaySelection) (topics : List TopicFacts) : List TopicFacts :=
  topics.filter fun t => sel.topics.contains t.name

def ReplaySelection.chosen (sel : ReplaySelection) (startMs : Int) (topics : List TopicFacts) :
    List SelectedPartition :=
  (sel.named topics).flatMap fun t =>
    (t.partitions.filter fun p => sel.selectsPartition t.name p.partitionId).map
      (selectedPartition t.name startMs sel.windowEndMs)

/-- What is left to check once the window's start is known. -/
def ReplaySelection.settle (sel : ReplaySelection) (topics : List TopicFacts) (floorMs startMs : Int)
    (startSource : WindowFloorSource) : Except SelectionRefusal ResolvedSelection :=
  match partitionNotInArchive (sel.named topics) sel.partitions.toList with
  | some (topic, p) => .error (.partitionNotInArchive topic p)
  | none =>
      let partitions := (sel.chosen startMs topics).mergeSort partitionLe
      if partitions.all fun p => p.segmentKeys.isEmpty then
        .error (.emptySelection startMs sel.windowEndMs)
      else
        .ok { floorMs, startMs, startSource, endMs := sel.windowEndMs, partitions
              runs := engineRuns sel.partitions ((sel.named topics).map fun t => t.name) }

theorem resolve_eq (sel : ReplaySelection) (topics : List TopicFacts) :
    sel.resolve topics =
      match BackupSetFacts.earliestCoveredTimestampMs ⟨topics⟩ sel.topics with
      | none => .error (.noCoverage sel.topics.toList)
      | some floorMs =>
          match sel.windowStartMs with
          | none => sel.settle topics floorMs floorMs .archiveManifest
          | some s =>
              if s < floorMs then .error (.startBeforeCoverage s floorMs)
              else sel.settle topics floorMs s .inheritedFromSpec := by
  unfold ReplaySelection.resolve
  cases BackupSetFacts.earliestCoveredTimestampMs ⟨topics⟩ sel.topics with
  | none => rfl
  | some floorMs =>
      cases sel.windowStartMs with
      | none => rfl
      | some s =>
          dsimp only
          split <;> rfl

/-- Some selected partition has a segment to read. -/
def ReplaySelection.Finds (sel : ReplaySelection) (startMs : Int) (topics : List TopicFacts) : Prop :=
  ∃ sp ∈ sel.chosen startMs topics, sp.segmentKeys ≠ []

theorem settle_eq_ok {sel : ReplaySelection} {topics : List TopicFacts} {floorMs startMs : Int}
    {source : WindowFloorSource} {r : ResolvedSelection} :
    sel.settle topics floorMs startMs source = .ok r ↔
      partitionNotInArchive (sel.named topics) sel.partitions.toList = none ∧
        sel.Finds startMs topics ∧
        r = ⟨floorMs, startMs, source, sel.windowEndMs,
          (sel.chosen startMs topics).mergeSort partitionLe,
          engineRuns sel.partitions ((sel.named topics).map fun t => t.name)⟩ := by
  have found : ((sel.chosen startMs topics).mergeSort partitionLe).all
      (fun p => p.segmentKeys.isEmpty) = true ↔ ¬ sel.Finds startMs topics := by
    simp only [List.all_eq_true, List.mem_mergeSort, List.isEmpty_iff, ReplaySelection.Finds,
      not_exists, not_and, not_not]
  unfold ReplaySelection.settle
  cases partitionNotInArchive (sel.named topics) sel.partitions.toList with
  | some missing => simp
  | none =>
      dsimp only
      by_cases finds : sel.Finds startMs topics
      · rw [if_neg fun all => found.mp all finds]
        simp only [Except.ok.injEq, finds, true_and]
        exact eq_comm
      · rw [if_pos (found.mpr finds)]
        simp [finds]

theorem resolve_eq_ok {sel : ReplaySelection} {topics : List TopicFacts} {r : ResolvedSelection} :
    sel.resolve topics = .ok r ↔ ∃ floorMs source,
      BackupSetFacts.earliestCoveredTimestampMs ⟨topics⟩ sel.topics = some floorMs ∧
      (∀ s, sel.windowStartMs = some s → floorMs ≤ s) ∧
      source = (if sel.windowStartMs.isSome then .inheritedFromSpec else .archiveManifest) ∧
      sel.settle topics floorMs (sel.windowStartMs.getD floorMs) source = .ok r := by
  rw [resolve_eq]
  cases BackupSetFacts.earliestCoveredTimestampMs ⟨topics⟩ sel.topics with
  | none => simp
  | some floorMs =>
      cases sel.windowStartMs with
      | none => simp
      | some s =>
          by_cases below : s < floorMs
          · simp [below]
          · simp [below, Int.not_lt.mp below]

theorem partitionNotInArchive_eq_none (named : List TopicFacts) :
    ∀ l : List (String × ExtTreeSet Int), partitionNotInArchive named l = none ↔
      ∀ e ∈ l, ∀ partition ∈ e.2, ∃ t ∈ named, t.name = e.1 ∧ ∃ p ∈ t.partitions,
        p.partitionId = partition
  | [] => ⟨fun _ e member => absurd member List.not_mem_nil, fun _ => rfl⟩
  | (topic, set) :: rest => by
      have listed : ∀ partition, (((named.filter fun t => t.name == topic).flatMap fun t =>
          t.partitions.map fun p => p.partitionId).contains partition = true ↔
          ∃ t ∈ named, t.name = topic ∧ ∃ p ∈ t.partitions, p.partitionId = partition) := by
        intro partition
        simp only [List.contains_iff_mem, List.mem_flatMap, List.mem_filter, List.mem_map, beq_iff_eq,
          and_assoc]
      rw [partitionNotInArchive, List.forall_mem_cons]
      cases missing : set.toList.find? fun p =>
          !((named.filter fun t => t.name == topic).flatMap fun t =>
            t.partitions.map fun p => p.partitionId).contains p with
      | some partition =>
          obtain ⟨absent, -⟩ := List.find?_eq_some_iff_append.mp missing
          have inside := ExtTreeSet.mem_toList.mp (List.mem_of_find?_eq_some missing)
          simp only [reduceCtorEq, false_iff]
          rintro ⟨all, -⟩
          rw [(listed partition).mpr (all partition inside)] at absent
          cases absent
      | none =>
          refine (partitionNotInArchive_eq_none named rest).trans (iff_and_self.mpr fun _ => ?_)
          intro partition inside
          have there := List.find?_eq_none.mp missing partition (ExtTreeSet.mem_toList.mpr inside)
          rw [Bool.not_eq_true, Bool.not_eq_false'] at there
          exact (listed partition).mp there

/-- The archive lists every partition that a subset of the plan names. -/
def ReplaySelection.Listed (sel : ReplaySelection) (topics : List TopicFacts) : Prop :=
  ∀ (topic : String) (set : ExtTreeSet Int), sel.partitions[topic]? = some set →
    ∀ partition ∈ set, ∃ t ∈ topics, sel.topics.contains t.name = true ∧ t.name = topic ∧
      ∃ p ∈ t.partitions, p.partitionId = partition

theorem listed_iff (sel : ReplaySelection) (topics : List TopicFacts) :
    partitionNotInArchive (sel.named topics) sel.partitions.toList = none ↔ sel.Listed topics := by
  rw [partitionNotInArchive_eq_none]
  constructor
  · intro all topic set held partition inside
    obtain ⟨t, kept, is, there⟩ :=
      all (topic, set) (ExtTreeMap.mem_toList_iff_getElem?_eq_some.mpr held) partition inside
    obtain ⟨member, named⟩ := List.mem_filter.mp kept
    exact ⟨t, member, named, is, there⟩
  · intro all e held partition inside
    obtain ⟨t, member, named, is, there⟩ :=
      all e.1 e.2 (ExtTreeMap.mem_toList_iff_getElem?_eq_some.mp held) partition inside
    exact ⟨t, List.mem_filter.mpr ⟨member, named⟩, is, there⟩

/-- What a resolved selection says of the archive it was resolved against. -/
structure Resolves (sel : ReplaySelection) (topics : List TopicFacts) (r : ResolvedSelection) :
    Prop where
  floor : BackupSetFacts.earliestCoveredTimestampMs ⟨topics⟩ sel.topics = some r.floorMs
  start : r.startMs = sel.windowStartMs.getD r.floorMs
  covered : r.floorMs ≤ r.startMs
  ending : r.endMs = sel.windowEndMs
  listed : sel.Listed topics
  finds : ∃ sp ∈ r.partitions, sp.segmentKeys ≠ []
  chosen : r.partitions.Perm (sel.chosen r.startMs topics)
  runs : Divides sel ((sel.named topics).map fun t => t.name) r.runs

theorem resolves {sel : ReplaySelection} {topics : List TopicFacts} {r : ResolvedSelection}
    (resolved : sel.resolve topics = .ok r) : Resolves sel topics r := by
  obtain ⟨floorMs, source, floor, after, -, settled⟩ := resolve_eq_ok.mp resolved
  obtain ⟨listed, ⟨sp, chosen, some_⟩, rfl⟩ := settle_eq_ok.mp settled
  refine ⟨floor, rfl, ?_, rfl, (listed_iff sel topics).mp listed,
    ⟨sp, List.mem_mergeSort.mpr chosen, some_⟩, List.mergeSort_perm _ _, ?_⟩
  · cases stated : sel.windowStartMs with
    | none => exact Int.le_refl _
    | some s => exact after s stated
  · apply engineRuns_divides
    intro topic own
    obtain ⟨t, kept, rfl⟩ := List.mem_map.mp own
    exact (List.mem_filter.mp kept).2

section Records

variable {ρ : Type} (timestamp : ρ → Int) (records : String → List ρ)

/-- Each segment's records lie between its two timestamps, and its count is theirs. -/
def Bracketed (topics : List TopicFacts) : Prop :=
  ∀ t ∈ topics, ∀ p ∈ t.partitions, ∀ seg ∈ p.segments,
    seg.recordCount = (records seg.key).length ∧
      ∀ x ∈ records seg.key, seg.startTimestamp ≤ timestamp x ∧ timestamp x ≤ seg.endTimestamp

/-- How many of a partition's archived records the window selects. -/
def ReplaySelection.meant (sel : ReplaySelection) (p : PartitionFacts) : Nat :=
  (p.segments.flatMap fun seg => records seg.key).countP fun x => sel.selectsTimestamp (timestamp x)

variable {timestamp records}

/-- Between the segments of a resolved window, only those it reads hold a record it selects, and
those it holds whole hold no other. -/
theorem segment_counts {sel : ReplaySelection} {startMs : Int} {seg : SegmentFacts}
    (start : ∀ s, sel.windowStartMs = some s → startMs = s)
    (floor : sel.windowStartMs = none → startMs ≤ seg.startTimestamp)
    (counted : seg.recordCount = (records seg.key).length)
    (bounds : ∀ x ∈ records seg.key, seg.startTimestamp ≤ timestamp x ∧
      timestamp x ≤ seg.endTimestamp) :
    lowerOf startMs sel.windowEndMs seg ≤
        (records seg.key).countP (fun x => sel.selectsTimestamp (timestamp x)) ∧
      (records seg.key).countP (fun x => sel.selectsTimestamp (timestamp x)) ≤
        upperOf startMs sel.windowEndMs seg ∧
      (¬ Reads startMs sel.windowEndMs seg → ∀ x ∈ records seg.key,
        sel.selectsTimestamp (timestamp x) = false) := by
  have selects : ∀ x ∈ records seg.key, (sel.selectsTimestamp (timestamp x) = true ↔
      startMs ≤ timestamp x ∧ timestamp x ≤ sel.windowEndMs) := by
    intro x member
    obtain ⟨above, below⟩ := bounds x member
    rw [ReplaySelection.selectsTimestamp, windowSelects_iff]
    cases stated : sel.windowStartMs with
    | none =>
        have reached := floor stated
        simp only [reduceCtorEq, false_implies, implies_true, and_true]
        omega
    | some s =>
        rw [start s stated]
        simp only [Option.some.injEq, forall_eq']
        exact and_comm
  have whole : seg.recordCount.toNat = (records seg.key).length := by omega
  have apart : ¬ Reads startMs sel.windowEndMs seg → ∀ x ∈ records seg.key,
      sel.selectsTimestamp (timestamp x) = false := by
    intro unread x member
    obtain ⟨above, below⟩ := bounds x member
    rw [← Bool.not_eq_true]
    intro picked
    obtain ⟨after, before⟩ := (selects x member).mp picked
    exact unread ((segmentOverlaps_iff _ _ _ _).mpr ⟨by omega, by omega⟩)
  refine ⟨?_, ?_, apart⟩
  · unfold lowerOf
    split
    · rename_i both
      rw [whole]
      refine (List.countP_eq_length.mpr fun x member => (selects x member).mpr ?_).ge
      obtain ⟨above, below⟩ := bounds x member
      exact ⟨both.2.1.trans above, below.trans both.2.2⟩
    · exact Nat.zero_le _
  · unfold upperOf
    split
    · rw [whole]
      exact List.countP_le_length
    · rename_i unread
      exact (List.countP_eq_zero.mpr fun x member picked => by
        rw [apart unread x member] at picked
        cases picked).le

end Records

theorem bracketed_widen {ρ : Type} (a : ReadArchive ρ) :
    Bracketed a.timestamp a.records (widen a.manifest a.times).topics := by
  intro t topic p partition seg member
  have inside : seg ∈ segmentsOf (widen a.manifest a.times) :=
    mem_segmentsOf.mpr ⟨t, topic, p, partition, member⟩
  rw [segmentsOf_widen] at inside
  obtain ⟨archived, listed, rfl⟩ := List.mem_map.mp inside
  have exact_ := exact_widenSegment a listed
  rw [(widenSegment_key a.times archived).1]
  exact ⟨exact_.counted, exact_.bounds⟩

/-- A selection is resolved exactly when the archive covers it, lists what it names and has
something to read for it; it is then the one the plan states, and its two counts hold what the
window selects between them whenever segments' timestamps hold their records, as those widened
by the decoded times do. -/
theorem resolve_selects (sel : ReplaySelection) (topics : List TopicFacts) :
    ((∃ r, sel.resolve topics = .ok r) ↔ ∃ floorMs,
      BackupSetFacts.earliestCoveredTimestampMs ⟨topics⟩ sel.topics = some floorMs ∧
      (∀ s, sel.windowStartMs = some s → floorMs ≤ s) ∧ sel.Listed topics ∧
      sel.Finds (sel.windowStartMs.getD floorMs) topics) ∧
    (∀ r, sel.resolve topics = .ok r → Resolves sel topics r ∧
      ∀ {ρ : Type} (timestamp : ρ → Int) (records : String → List ρ),
        Bracketed timestamp records topics → ∀ t ∈ topics, ∀ p ∈ t.partitions,
        sel.selectsPartition t.name p.partitionId = true → ∃ sp ∈ r.partitions,
          sp.topic = t.name ∧ sp.partition = p.partitionId ∧
          sp.recordsLower ≤ sel.meant timestamp records p ∧
          sel.meant timestamp records p ≤ sp.recordsUpper ∧
          ∀ seg ∈ p.segments, seg.key ∉ sp.segmentKeys → ∀ x ∈ records seg.key,
            sel.selectsTimestamp (timestamp x) = false) ∧
    ∀ {ρ : Type} (a : ReadArchive ρ),
      Bracketed a.timestamp a.records (widen a.manifest a.times).topics := by
  refine ⟨⟨?_, ?_⟩, ?_, bracketed_widen⟩
  · rintro ⟨r, resolved⟩
    obtain ⟨floorMs, source, floor, after, -, settled⟩ := resolve_eq_ok.mp resolved
    obtain ⟨listed, finds, -⟩ := settle_eq_ok.mp settled
    exact ⟨floorMs, floor, after, (listed_iff sel topics).mp listed, finds⟩
  · rintro ⟨floorMs, floor, after, listed, finds⟩
    exact ⟨_, resolve_eq_ok.mpr ⟨floorMs, _, floor, after, rfl,
      settle_eq_ok.mpr ⟨(listed_iff sel topics).mpr listed, finds, rfl⟩⟩⟩
  · intro r resolved
    have is := resolves resolved
    refine ⟨is, fun timestamp records bracketed t topic p partition selected => ?_⟩
    have named := selectsPartition_topic sel t.name p.partitionId selected
    refine ⟨selectedPartition t.name r.startMs sel.windowEndMs p, is.chosen.mem_iff.mpr ?_, ?_⟩
    · exact List.mem_flatMap.mpr ⟨t, List.mem_filter.mpr ⟨topic, named⟩,
        List.mem_map_of_mem (List.mem_filter.mpr ⟨partition, selected⟩)⟩
    have each : ∀ seg ∈ p.segments,
        lowerOf r.startMs sel.windowEndMs seg ≤
            (records seg.key).countP (fun x => sel.selectsTimestamp (timestamp x)) ∧
          (records seg.key).countP (fun x => sel.selectsTimestamp (timestamp x)) ≤
            upperOf r.startMs sel.windowEndMs seg ∧
          (¬ Reads r.startMs sel.windowEndMs seg → ∀ x ∈ records seg.key,
            sel.selectsTimestamp (timestamp x) = false) := by
      intro seg member
      obtain ⟨counted, bounds⟩ := bracketed t topic p partition seg member
      refine segment_counts (fun s stated => ?_) (fun free => ?_) counted bounds
      · rw [is.start, stated]
        rfl
      · rw [is.start, free]
        exact earliestCovered_le _ _ _ is.floor t topic named p partition seg member
    rw [selectedPartition_eq, ReplaySelection.meant, List.countP_flatMap]
    refine ⟨rfl, rfl, List.sum_le_sum fun seg member => (each seg member).1,
      List.sum_le_sum fun seg member => (each seg member).2.1, fun seg member unread => ?_⟩
    refine (each seg member).2.2 fun reads => unread ?_
    exact List.mem_map_of_mem (List.mem_filter.mpr ⟨member, decide_eq_true reads⟩)

end Logweir.ReplaySelection
