import Logweir.Core.RecordTimes
import Logweir.Library.Results
import Logweir.Library.Words

/-!
# The count bounds of a restore

`logweir_core::engine`'s two readings of an archive's segments: how many records a restore of a
window must and may bring back, of the whole archive and of one partition.  Over facts widened by
the decoded record times both are true bounds.
-/

set_option autoImplicit false

namespace Logweir.RestoredCount

open Logweir.Engine Logweir.RecordTimes Logweir.Words

/-- `record_count.max(0) as u64` -/
def recordsOf (seg : SegmentFacts) : Nat := (max seg.recordCount 0).toNat

section

variable (floorMs pitMs : Int)

def Inside (ts : Int) : Prop := floorMs ≤ ts ∧ ts ≤ pitMs

def WhollyInside (seg : SegmentFacts) : Prop := floorMs ≤ seg.startTimestamp ∧ seg.endTimestamp ≤ pitMs

def Overlaps (seg : SegmentFacts) : Prop := floorMs ≤ seg.endTimestamp ∧ seg.startTimestamp ≤ pitMs

instance (ts : Int) : Decidable (Inside floorMs pitMs ts) :=
  inferInstanceAs (Decidable (_ ∧ _))

instance (seg : SegmentFacts) : Decidable (WhollyInside floorMs pitMs seg) :=
  inferInstanceAs (Decidable (_ ∧ _))

instance (seg : SegmentFacts) : Decidable (Overlaps floorMs pitMs seg) :=
  inferInstanceAs (Decidable (_ ∧ _))

def expectedSegment (counts : Nat × Nat) (seg : SegmentFacts) : Except Fault (Nat × Nat) :=
  let n := recordsOf seg
  if WhollyInside floorMs pitMs seg then do
    let lower ← add 64 counts.1 n
    pure (lower, counts.2)
  else if Overlaps floorMs pitMs seg then do
    let straddling ← add 64 counts.2 n
    pure (counts.1, straddling)
  else pure counts

def boundSegment (counts : Nat × Nat) (seg : SegmentFacts) : Except Fault (Nat × Nat) :=
  let n := recordsOf seg
  if WhollyInside floorMs pitMs seg then do
    let lower ← add 64 counts.1 n
    pure (lower, counts.2)
  else if Overlaps floorMs pitMs seg then do
    let straddling ← add 64 counts.2 n
    if 0 < n ∧ (Inside floorMs pitMs seg.startTimestamp ∨ Inside floorMs pitMs seg.endTimestamp) then do
      let lower ← add 64 counts.1 1
      let straddling ← sub straddling 1
      pure (lower, straddling)
    else pure (counts.1, straddling)
  else pure counts

def partitionsOf (facts : BackupSetFacts) : List PartitionFacts :=
  facts.topics.flatMap TopicFacts.partitions

def segmentsOf (facts : BackupSetFacts) : List SegmentFacts :=
  (partitionsOf facts).flatMap PartitionFacts.segments

def expectedRestoredCount (facts : BackupSetFacts) : Except Fault (Nat × Nat) :=
  (segmentsOf facts).foldlM (expectedSegment floorMs pitMs) (0, 0) >>= Tally.closed 64

def partitionCountBound (p : PartitionFacts) : Except Fault (Nat × Nat) :=
  p.segments.foldlM (boundSegment floorMs pitMs) (0, 0) >>= Tally.closed 64

def mayBring (seg : SegmentFacts) : Nat :=
  if WhollyInside floorMs pitMs seg ∨ Overlaps floorMs pitMs seg then recordsOf seg else 0

def expectedBrings (seg : SegmentFacts) : Nat :=
  if WhollyInside floorMs pitMs seg then recordsOf seg else 0

def boundBrings (seg : SegmentFacts) : Nat :=
  if WhollyInside floorMs pitMs seg then recordsOf seg
  else if Overlaps floorMs pitMs seg ∧ 0 < recordsOf seg ∧
      (Inside floorMs pitMs seg.startTimestamp ∨ Inside floorMs pitMs seg.endTimestamp) then 1
  else 0

theorem expectedBrings_le (seg : SegmentFacts) :
    expectedBrings floorMs pitMs seg ≤ boundBrings floorMs pitMs seg := by
  unfold expectedBrings boundBrings
  split_ifs <;> omega

theorem boundBrings_le (seg : SegmentFacts) :
    boundBrings floorMs pitMs seg ≤ mayBring floorMs pitMs seg := by
  unfold boundBrings mayBring
  split_ifs with wholly may proves may
  · exact Nat.le_refl _
  · exact absurd (.inl wholly) may
  · exact proves.2.1
  · exact absurd (.inr proves.1) may
  · exact Nat.zero_le _
  · exact Nat.zero_le _

theorem tallied_wholly {a b n : Nat} : Tallied 64 (a + b + n) (a + n, b + (n - n)) (do
    let lower ← add 64 a n
    pure (lower, b)) := by
  by_cases fits : a + n < 2 ^ 64
  · rw [add_eq fits, Nat.sub_self]
    exact .inl rfl
  · rw [add_eq_error fits]
    exact .inr ⟨rfl, by omega⟩

def expectedTally : Tally 64 (expectedSegment floorMs pitMs) where
  share := expectedBrings floorMs pitMs
  whole := mayBring floorMs pitMs
  share_le seg := (expectedBrings_le floorMs pitMs seg).trans (boundBrings_le floorMs pitMs seg)
  each a b seg := by
    unfold expectedSegment expectedBrings mayBring
    by_cases wholly : WhollyInside floorMs pitMs seg
    · simp only [wholly, true_or, if_true]
      exact tallied_wholly
    by_cases may : Overlaps floorMs pitMs seg
    · simp only [wholly, may, or_true, if_true, if_false]
      by_cases fits : b + recordsOf seg < 2 ^ 64
      · rw [add_eq fits]
        exact .inl rfl
      · rw [add_eq_error fits]
        exact .inr ⟨rfl, by omega⟩
    · simp only [wholly, may, or_self, if_false]
      exact .inl rfl

def boundTally : Tally 64 (boundSegment floorMs pitMs) where
  share := boundBrings floorMs pitMs
  whole := mayBring floorMs pitMs
  share_le := boundBrings_le floorMs pitMs
  each a b seg := by
    unfold boundSegment boundBrings mayBring
    by_cases wholly : WhollyInside floorMs pitMs seg
    · simp only [wholly, true_or, if_true]
      exact tallied_wholly
    by_cases may : Overlaps floorMs pitMs seg
    · simp only [wholly, may, or_true, true_and, if_true, if_false]
      by_cases fits : b + recordsOf seg < 2 ^ 64
      · rw [add_eq fits, Results.ok_bind]
        split_ifs with proves
        · have taken : 1 ≤ b + recordsOf seg := by omega
          rw [sub_eq taken]
          by_cases fits' : a + 1 < 2 ^ 64
          · rw [add_eq fits', ← Nat.add_sub_assoc proves.1]
            exact .inl rfl
          · rw [add_eq_error fits']
            exact .inr ⟨rfl, by omega⟩
        · exact .inl rfl
      · rw [add_eq_error fits]
        exact .inr ⟨rfl, by omega⟩
    · simp only [wholly, may, or_self, false_and, if_false]
      exact .inl rfl

theorem expectedRestoredCount_eq (facts : BackupSetFacts) : expectedRestoredCount floorMs pitMs facts =
    if ((segmentsOf facts).map (mayBring floorMs pitMs)).sum < 2 ^ 64 then
      .ok (((segmentsOf facts).map (expectedBrings floorMs pitMs)).sum,
        ((segmentsOf facts).map (mayBring floorMs pitMs)).sum)
    else .error .addOverflows :=
  (expectedTally floorMs pitMs).closed_foldlM (segmentsOf facts)

theorem partitionCountBound_eq (p : PartitionFacts) : partitionCountBound floorMs pitMs p =
    if (p.segments.map (mayBring floorMs pitMs)).sum < 2 ^ 64 then
      .ok ((p.segments.map (boundBrings floorMs pitMs)).sum,
        (p.segments.map (mayBring floorMs pitMs)).sum)
    else .error .addOverflows :=
  (boundTally floorMs pitMs).closed_foldlM p.segments

end

section

variable {ρ : Type} {timestamp : ρ → Int} {records : List ρ} {seg : SegmentFacts} {floorMs pitMs : Int}

/-- The segment's two ends are its oldest and its newest record, and its count theirs. -/
structure Exact (timestamp : ρ → Int) (records : List ρ) (seg : SegmentFacts) : Prop where
  counted : seg.recordCount = records.length
  bounds : ∀ r ∈ records, seg.startTimestamp ≤ timestamp r ∧ timestamp r ≤ seg.endTimestamp
  oldest : records ≠ [] → ∃ r ∈ records, timestamp r = seg.startTimestamp
  newest : records ≠ [] → ∃ r ∈ records, timestamp r = seg.endTimestamp

def countInside (timestamp : ρ → Int) (floorMs pitMs : Int) (records : List ρ) : Nat :=
  records.countP fun r => Inside floorMs pitMs (timestamp r)

theorem Exact.recordsOf_eq (exact_ : Exact timestamp records seg) : recordsOf seg = records.length := by
  unfold recordsOf
  rw [exact_.counted]
  omega

theorem Exact.countInside_le (exact_ : Exact timestamp records seg) :
    countInside timestamp floorMs pitMs records ≤ mayBring floorMs pitMs seg := by
  unfold mayBring
  split_ifs with touches
  · rw [exact_.recordsOf_eq]
    exact List.countP_le_length
  · refine (List.countP_eq_zero.mpr fun r member inside => touches (.inr ?_)).le
    obtain ⟨above, below⟩ := of_decide_eq_true inside
    obtain ⟨start, ending⟩ := exact_.bounds r member
    exact ⟨above.trans ending, start.trans below⟩

theorem Exact.le_countInside (exact_ : Exact timestamp records seg) :
    boundBrings floorMs pitMs seg ≤ countInside timestamp floorMs pitMs records := by
  unfold boundBrings
  split_ifs with wholly proves
  · rw [exact_.recordsOf_eq]
    refine (List.countP_eq_length.mpr fun r member => decide_eq_true ?_).ge
    obtain ⟨start, ending⟩ := exact_.bounds r member
    exact ⟨wholly.1.trans start, ending.trans wholly.2⟩
  · obtain ⟨-, some_, ends⟩ := proves
    rw [exact_.recordsOf_eq] at some_
    have nonempty : records ≠ [] := List.ne_nil_of_length_pos some_
    refine List.countP_pos_iff.mpr ?_
    rcases ends with inside | inside
    · obtain ⟨r, member, same⟩ := exact_.oldest nonempty
      exact ⟨r, member, decide_eq_true (same.symm ▸ inside)⟩
    · obtain ⟨r, member, same⟩ := exact_.newest nonempty
      exact ⟨r, member, decide_eq_true (same.symm ▸ inside)⟩
  · exact Nat.zero_le _

theorem Exact.boundBrings_pos (exact_ : Exact timestamp records seg) (some_ : records ≠ [])
    (ends : Inside floorMs pitMs seg.startTimestamp ∨ Inside floorMs pitMs seg.endTimestamp) :
    0 < boundBrings floorMs pitMs seg := by
  have positive : 0 < recordsOf seg := exact_.recordsOf_eq ▸ List.length_pos_of_ne_nil some_
  obtain ⟨r, member⟩ := List.exists_mem_of_ne_nil records some_
  obtain ⟨start, ending⟩ := exact_.bounds r member
  have ordered := start.trans ending
  have overlaps : Overlaps floorMs pitMs seg := by
    unfold Inside at ends
    unfold Overlaps
    omega
  unfold boundBrings
  split_ifs with wholly proves
  · exact positive
  · exact Nat.one_pos
  · exact absurd ⟨overlaps, positive, ends⟩ proves

end

structure ReadArchive (ρ : Type) extends Archive ρ where
  sel : ReplaySelection.ReplaySelection
  times : RecordTimes
  read : ∀ seg ∈ segmentsOf manifest, times[seg.key]? = timesOf timestamp sel (records seg.key)
  counted : ∀ seg ∈ segmentsOf manifest, seg.recordCount = (records seg.key).length

section

variable {ρ : Type}

theorem mem_segmentsOf {facts : BackupSetFacts} {seg : SegmentFacts} : seg ∈ segmentsOf facts ↔
    ∃ t ∈ facts.topics, ∃ p ∈ t.partitions, seg ∈ p.segments := by
  simp only [segmentsOf, partitionsOf, List.mem_flatMap]
  constructor
  · rintro ⟨p, ⟨t, topic, partition⟩, member⟩
    exact ⟨t, topic, p, partition, member⟩
  · rintro ⟨t, topic, p, partition, member⟩
    exact ⟨p, ⟨t, topic, partition⟩, member⟩

theorem segmentsOf_widen (facts : BackupSetFacts) (times : RecordTimes) :
    segmentsOf (widen facts times) = (segmentsOf facts).map (widenSegment times) := by
  simp only [segmentsOf, partitionsOf, widen, List.flatMap_map, List.map_flatMap, List.flatMap_assoc]

theorem widenSegment_key (times : RecordTimes) (seg : SegmentFacts) :
    (widenSegment times seg).key = seg.key ∧
      (widenSegment times seg).recordCount = seg.recordCount := by
  unfold widenSegment
  split <;> exact ⟨rfl, rfl⟩

theorem exact_widenSegment (a : ReadArchive ρ) {seg : SegmentFacts} (member : seg ∈ segmentsOf a.manifest) :
    Exact a.timestamp (a.records seg.key) (widenSegment a.times seg) := by
  have counted : (widenSegment a.times seg).recordCount = (a.records seg.key).length :=
    (widenSegment_key a.times seg).2.trans (a.counted seg member)
  have read := a.read seg member
  obtain ⟨t, topic, p, partition, member'⟩ := mem_segmentsOf.mp member
  obtain ⟨first, last⟩ := a.firstLast t topic p partition seg member'
  cases folded : timesOf a.timestamp a.sel (a.records seg.key) with
  | none =>
      have none_ := timesOf_none a.timestamp a.sel _ folded
      refine ⟨counted, ?_, fun some_ => absurd none_ some_, fun some_ => absurd none_ some_⟩
      rw [none_]
      simp
  | some st =>
      rw [folded] at read
      have bounds := (timesOf_spec a.timestamp a.sel _ st folded).1
      obtain ⟨oldest, newest⟩ := times_attained a.timestamp a.sel _ none st folded
      obtain ⟨old, oldMember, oldest⟩ := oldest.resolve_left (by simp)
      obtain ⟨new, newMember, newest⟩ := newest.resolve_left (by simp)
      have some_ : a.records seg.key ≠ [] := List.ne_nil_of_mem oldMember
      -- the manifest's two ends are timestamps of records, so they lie between the folded ones
      have start := first _ (List.head?_eq_some_head some_)
      have ending := last _ (List.getLast?_eq_some_getLast some_)
      have above := (bounds _ (List.head_mem some_)).1
      have below := (bounds _ (List.getLast_mem some_)).2
      have ends : (widenSegment a.times seg).startTimestamp = st.minMs ∧
          (widenSegment a.times seg).endTimestamp = st.maxMs := by
        unfold widenSegment
        rw [read]
        exact ⟨by simp only; omega, by simp only; omega⟩
      refine ⟨counted, ?_, fun _ => ⟨old, oldMember, oldest.trans ends.1.symm⟩,
        fun _ => ⟨new, newMember, newest.trans ends.2.symm⟩⟩
      rw [ends.1, ends.2]
      exact bounds

end

structure WidenedFacts (ρ : Type) where
  manifest : BackupSetFacts
  times : RecordTimes
  timestamp : ρ → Int
  records : String → List ρ
  exact_ : ∀ seg ∈ segmentsOf (widen manifest times), Exact timestamp (records seg.key) seg

def ReadArchive.widened {ρ : Type} (a : ReadArchive ρ) : WidenedFacts ρ where
  manifest := a.manifest
  times := a.times
  timestamp := a.timestamp
  records := a.records
  exact_ := by
    intro seg member
    rw [segmentsOf_widen] at member
    obtain ⟨archived, member', rfl⟩ := List.mem_map.mp member
    rw [(widenSegment_key a.times archived).1]
    exact exact_widenSegment a member'

section

variable {ρ : Type} (w : WidenedFacts ρ) (floorMs pitMs : Int)

def WidenedFacts.facts : BackupSetFacts := widen w.manifest w.times

def WidenedFacts.archived (segments : List SegmentFacts) : List ρ :=
  segments.flatMap fun seg => w.records seg.key

def WidenedFacts.inside (p : PartitionFacts) : Nat :=
  countInside w.timestamp floorMs pitMs (w.archived p.segments)

/-- What the segments the window touches hold, by their counts, fits a word of 64 bits. -/
def Fits (segments : List SegmentFacts) : Prop := (segments.map (mayBring floorMs pitMs)).sum < 2 ^ 64

/-- A segment that holds a record has an end in the window. -/
def WidenedFacts.Proves (p : PartitionFacts) : Prop :=
  ∃ seg ∈ p.segments, w.records seg.key ≠ [] ∧
    (Inside floorMs pitMs seg.startTimestamp ∨ Inside floorMs pitMs seg.endTimestamp)

/-- Both counts are bounds on what the archive holds in the window. -/
structure Sound : Prop where
  partition : ∀ p ∈ partitionsOf w.facts, Fits floorMs pitMs p.segments →
    ∃ lower upper, partitionCountBound floorMs pitMs p = .ok (lower, upper) ∧
      lower ≤ w.inside floorMs pitMs p ∧ w.inside floorMs pitMs p ≤ upper ∧
      (w.Proves floorMs pitMs p → lower ≠ 0)
  whole : Fits floorMs pitMs (segmentsOf w.facts) →
    ∃ lower upper bounds, expectedRestoredCount floorMs pitMs w.facts = .ok (lower, upper) ∧
      lower ≤ ((partitionsOf w.facts).map (w.inside floorMs pitMs)).sum ∧
      ((partitionsOf w.facts).map (w.inside floorMs pitMs)).sum ≤ upper ∧
      (partitionsOf w.facts).mapM (partitionCountBound floorMs pitMs) = .ok bounds ∧
      lower ≤ (bounds.map Prod.fst).sum ∧ (bounds.map Prod.snd).sum ≤ upper

variable {w floorMs pitMs}

theorem inside_eq (p : PartitionFacts) : w.inside floorMs pitMs p = (p.segments.map fun seg =>
    countInside w.timestamp floorMs pitMs (w.records seg.key)).sum :=
  List.countP_flatMap

theorem exact_of_mem {p : PartitionFacts} (member : p ∈ partitionsOf w.facts) {seg : SegmentFacts}
    (member' : seg ∈ p.segments) : Exact w.timestamp (w.records seg.key) seg :=
  w.exact_ seg (List.mem_flatMap.mpr ⟨p, member, member'⟩)

theorem le_inside {p : PartitionFacts} (member : p ∈ partitionsOf w.facts) :
    (p.segments.map (boundBrings floorMs pitMs)).sum ≤ w.inside floorMs pitMs p := by
  rw [inside_eq]
  exact List.sum_le_sum fun seg member' => (exact_of_mem member member').le_countInside

theorem inside_le {p : PartitionFacts} (member : p ∈ partitionsOf w.facts) :
    w.inside floorMs pitMs p ≤ (p.segments.map (mayBring floorMs pitMs)).sum := by
  rw [inside_eq]
  exact List.sum_le_sum fun seg member' => (exact_of_mem member member').countInside_le

theorem lower_ne_zero {p : PartitionFacts} (member : p ∈ partitionsOf w.facts)
    (proves : w.Proves floorMs pitMs p) : (p.segments.map (boundBrings floorMs pitMs)).sum ≠ 0 := by
  obtain ⟨seg, member', some_, ends⟩ := proves
  have one := (exact_of_mem member member').boundBrings_pos some_ ends
  have le := List.single_le_sum (fun x _ => Nat.zero_le x) _
    (List.mem_map_of_mem (f := boundBrings floorMs pitMs) member')
  omega

theorem sum_segmentsOf (facts : BackupSetFacts) (f : SegmentFacts → Nat) :
    ((segmentsOf facts).map f).sum = ((partitionsOf facts).map fun p => (p.segments.map f).sum).sum := by
  rw [segmentsOf, List.map_flatMap, List.flatMap_def, List.sum_flatten, List.map_map]
  rfl

theorem fits_of_mem {facts : BackupSetFacts} (fits : Fits floorMs pitMs (segmentsOf facts))
    {p : PartitionFacts} (member : p ∈ partitionsOf facts) : Fits floorMs pitMs p.segments := by
  unfold Fits at fits ⊢
  rw [sum_segmentsOf] at fits
  refine (List.single_le_sum (fun x _ => Nat.zero_le x) _ ?_).trans_lt fits
  exact List.mem_map_of_mem member

theorem sound (w : WidenedFacts ρ) (floorMs pitMs : Int) : Sound w floorMs pitMs := by
  refine ⟨fun p member fits => ?_, fun fits => ?_⟩
  · refine ⟨_, _, (partitionCountBound_eq floorMs pitMs p).trans (if_pos fits), le_inside member,
      inside_le member, lower_ne_zero member⟩
  · refine ⟨_, _, (partitionsOf w.facts).map fun p => ((p.segments.map (boundBrings floorMs pitMs)).sum,
        (p.segments.map (mayBring floorMs pitMs)).sum),
      (expectedRestoredCount_eq floorMs pitMs w.facts).trans (if_pos fits), ?_, ?_, ?_, ?_, ?_⟩
    · rw [sum_segmentsOf]
      refine List.sum_le_sum fun p member => le_trans ?_ (le_inside member)
      exact List.sum_le_sum fun seg _ => expectedBrings_le floorMs pitMs seg
    · rw [sum_segmentsOf]
      exact List.sum_le_sum fun p member => inside_le member
    · refine Results.mapM_ok fun p member => ?_
      exact (partitionCountBound_eq floorMs pitMs p).trans (if_pos (fits_of_mem fits member))
    · rw [sum_segmentsOf, List.map_map]
      refine List.sum_le_sum fun p _ => ?_
      exact List.sum_le_sum fun seg _ => expectedBrings_le floorMs pitMs seg
    · rw [sum_segmentsOf, List.map_map]
      rfl

theorem ne_subUnderflows (p : PartitionFacts) :
    partitionCountBound floorMs pitMs p ≠ .error .subUnderflows := by
  rw [partitionCountBound_eq]
  split_ifs <;> simp

end

/-- The bounds hold whatever the window, and no record count makes a subtraction underflow. -/
theorem count_bounds_sound :
    (∀ (ρ : Type) (w : WidenedFacts ρ) (floorMs pitMs : Int), Sound w floorMs pitMs) ∧
      ∀ (p : PartitionFacts) (floorMs pitMs : Int),
        partitionCountBound floorMs pitMs p ≠ .error .subUnderflows :=
  ⟨fun _ => sound, fun p _ _ => ne_subUnderflows p⟩

def full : Nat := 9223372036854775807

def fullSegment : SegmentFacts := ⟨"orders/0/0", 0, 0, 0, 0, 9223372036854775807, ""⟩

def fullPartition : PartitionFacts := ⟨0, [fullSegment, fullSegment, fullSegment], [], []⟩

theorem exact_replicate {n : Nat} {seg : SegmentFacts} (some_ : n ≠ 0) (counted : seg.recordCount = n)
    (start : seg.startTimestamp = 0) (ending : seg.endTimestamp = 0) :
    Exact (fun ts : Int => ts) (List.replicate n 0) seg := by
  have member : (0 : Int) ∈ List.replicate n (0 : Int) := List.mem_replicate.mpr ⟨some_, rfl⟩
  refine ⟨?_, fun r held => ?_, fun _ => ⟨0, member, start.symm⟩, fun _ => ⟨0, member, ending.symm⟩⟩
  · rw [List.length_replicate, counted]
  · rw [List.eq_of_mem_replicate held, start, ending]
    exact ⟨le_rfl, le_rfl⟩

theorem widenSegment_empty (seg : SegmentFacts) : widenSegment ∅ seg = seg := by
  simp [widenSegment]

def fullFacts : WidenedFacts Int where
  manifest := ⟨[⟨"orders", [fullPartition]⟩]⟩
  times := ∅
  timestamp := fun ts => ts
  records := fun _ => List.replicate full 0
  exact_ := by
    intro seg member
    rw [segmentsOf_widen] at member
    obtain ⟨archived, member', rfl⟩ := List.mem_map.mp member
    have same : archived = fullSegment := by
      simpa [segmentsOf, partitionsOf, fullPartition] using member'
    rw [widenSegment_empty, same]
    exact exact_replicate (by decide) rfl rfl rfl

theorem full_unfit : ¬ (fullPartition.segments.map (mayBring 0 0)).sum < 2 ^ 64 := by
  have each : mayBring 0 0 fullSegment = 9223372036854775807 := by
    simp [mayBring, WhollyInside, recordsOf, fullSegment]
  simp [fullPartition, each]

/-- Three such segments overflow the count of their partition. -/
theorem count_bounds_overflow :
    ¬ ∀ (ρ : Type) (w : WidenedFacts ρ) (floorMs pitMs : Int), floorMs ≤ pitMs →
      ∀ p ∈ partitionsOf w.facts, ∃ lower upper,
        partitionCountBound floorMs pitMs p = .ok (lower, upper) ∧
          lower ≤ w.inside floorMs pitMs p ∧ w.inside floorMs pitMs p ≤ upper := by
  intro bounded
  have member : fullPartition ∈ partitionsOf fullFacts.facts := by
    simp [partitionsOf, WidenedFacts.facts, fullFacts, widen, fullPartition, widenSegment_empty]
  obtain ⟨lower, upper, answered, -⟩ := bounded Int fullFacts 0 0 le_rfl fullPartition member
  rw [partitionCountBound_eq, if_neg full_unfit] at answered
  cases answered

end Logweir.RestoredCount
