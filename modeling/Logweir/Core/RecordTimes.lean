import Logweir.Core.ReplaySelection

/-!
# Recovery-point selection over out-of-order timestamps

`logweir_core::record_times`.  The engine picks the segments a restore reads by
their manifest first and last timestamps and then filters each record by its
own.  `widen` lowers the floor to the oldest record read, and `skipped` names
every segment the first/last rule passes over although it holds a record the
window selects.  The main result says the check is exact: an empty `skipped` is
the engine's two-step rule and the record predicate selecting the same records,
a non-empty one is a selected record the engine loses.
-/

set_option autoImplicit false

namespace Logweir.RecordTimes

open Std (ExtTreeMap ExtTreeSet)
open Logweir.Engine Logweir.ReplaySelection

structure SegmentTimes where
  minMs : Int
  maxMs : Int
  /-- How many records the plan's window selects. -/
  selected : Nat
deriving DecidableEq, Repr

def SegmentTimes.add (times : Option SegmentTimes) (ts : Int) (selected : Bool) : SegmentTimes :=
  let n := if selected then 1 else 0
  match times with
  | none => { minMs := ts, maxMs := ts, selected := n }
  | some t => { minMs := min t.minMs ts, maxMs := max t.maxMs ts, selected := t.selected + n }

abbrev RecordTimes := ExtTreeMap String SegmentTimes

def widenSegment (times : RecordTimes) (seg : SegmentFacts) : SegmentFacts :=
  match times[seg.key]? with
  | none => seg
  | some t =>
      { seg with
        startTimestamp := min seg.startTimestamp t.minMs
        endTimestamp := max seg.endTimestamp t.maxMs }

def widen (facts : BackupSetFacts) (times : RecordTimes) : BackupSetFacts :=
  { facts with
    topics := facts.topics.map fun t =>
      { t with
        partitions := t.partitions.map fun p =>
          { p with segments := p.segments.map (widenSegment times) } } }

structure Skipped where
  topic : String
  partition : Int
  key : String
  firstMs : Int
  lastMs : Int
  selected : Nat
deriving DecidableEq, Repr

/-- The entry of one segment the engine passes over although the window selects
records of it. -/
def skippedSegment (times : RecordTimes) (topic : String) (partition startMs endMs : Int)
    (seg : SegmentFacts) : Option Skipped :=
  match times[seg.key]? with
  | none => none
  | some t =>
      if 0 < t.selected ∧
          segmentOverlaps startMs endMs seg.startTimestamp seg.endTimestamp = false then
        some
          { topic, partition, key := seg.key, firstMs := seg.startTimestamp
            lastMs := seg.endTimestamp, selected := t.selected }
      else none

/-- Every segment of a selected partition the engine's rule skips over the
rendered window while it holds a record the window selects. -/
def skipped (manifest : BackupSetFacts) (times : RecordTimes) (sel : ReplaySelection)
    (floorMs : Int) : List Skipped :=
  let start := sel.windowStartMs.getD floorMs
  (manifest.topics.filter fun t => sel.topics.contains t.name).flatMap fun t =>
    (t.partitions.filter fun p => sel.selectsPartition t.name p.partitionId).flatMap fun p =>
      p.segments.filterMap (skippedSegment times t.name p.partitionId start sel.windowEndMs)

section Archive
variable {ρ : Type}

/-- An archive: the manifest and, by segment key, the records stored there in
archive order.  The manifest holds each segment's first and last timestamp. -/
structure Archive (ρ : Type) where
  manifest : BackupSetFacts
  timestamp : ρ → Int
  records : String → List ρ
  firstLast : ∀ t ∈ manifest.topics, ∀ p ∈ t.partitions, ∀ seg ∈ p.segments,
    (∀ r, (records seg.key).head? = some r → seg.startTimestamp = timestamp r) ∧
      ∀ r, (records seg.key).getLast? = some r → seg.endTimestamp = timestamp r

def timesOf (timestamp : ρ → Int) (sel : ReplaySelection) (records : List ρ) :
    Option SegmentTimes :=
  records.foldl
    (fun times r => some (SegmentTimes.add times (timestamp r) (sel.selectsTimestamp (timestamp r))))
    none

structure Located (ρ : Type) where
  topic : String
  partition : Int
  key : String
  index : Nat
  record : ρ

def locate (records : String → List ρ) (topic : String) (partition : Int) (seg : SegmentFacts) :
    List (Located ρ) :=
  (records seg.key).zipIdx.map fun (record, index) =>
    { topic, partition, key := seg.key, index, record }

def overSelected {β : Type} (manifest : BackupSetFacts) (sel : ReplaySelection)
    (f : String → Int → SegmentFacts → List β) : List β :=
  (manifest.topics.filter fun t => sel.topics.contains t.name).flatMap fun t =>
    (t.partitions.filter fun p => sel.selectsPartition t.name p.partitionId).flatMap fun p =>
      p.segments.flatMap (f t.name p.partitionId)

/-- The records the selection means: every record of a selected partition whose
own timestamp the window selects. -/
def Archive.selectedRecords (A : Archive ρ) (sel : ReplaySelection) : List (Located ρ) :=
  overSelected A.manifest sel fun topic partition seg =>
    (locate A.records topic partition seg).filter
      fun x => sel.selectsTimestamp (A.timestamp x.record)

/-- The records the engine restores over `[start, end]`: the segments whose
manifest first/last overlap it, then each record by its own timestamp. -/
def Archive.engineRecords (A : Archive ρ) (sel : ReplaySelection) (startMs : Int) :
    List (Located ρ) :=
  overSelected A.manifest sel fun topic partition seg =>
    if segmentOverlaps startMs sel.windowEndMs seg.startTimestamp seg.endTimestamp then
      (locate A.records topic partition seg).filter fun x =>
        windowSelects (some startMs) sel.windowEndMs (A.timestamp x.record)
    else []

/-- The pass read every segment of every selected partition: each such segment's
entry is the fold of its records. -/
def Archive.ReadSelected (A : Archive ρ) (sel : ReplaySelection) (times : RecordTimes) : Prop :=
  ∀ t ∈ A.manifest.topics, ∀ p ∈ t.partitions,
    sel.selectsPartition t.name p.partitionId = true → ∀ seg ∈ p.segments,
      times[seg.key]? = timesOf A.timestamp sel (A.records seg.key)

theorem times_fold (timestamp : ρ → Int) (sel : ReplaySelection) :
    ∀ (records : List ρ) (acc : Option SegmentTimes) (t : SegmentTimes),
      records.foldl (fun times r =>
          some (SegmentTimes.add times (timestamp r) (sel.selectsTimestamp (timestamp r)))) acc =
        some t →
      (∀ a, acc = some a → t.minMs ≤ a.minMs ∧ a.maxMs ≤ t.maxMs) ∧
      (∀ r ∈ records, t.minMs ≤ timestamp r ∧ timestamp r ≤ t.maxMs) ∧
      t.selected = (acc.map SegmentTimes.selected).getD 0 +
        (records.filter fun r => sel.selectsTimestamp (timestamp r)).length := by
  intro records
  induction records with
  | nil =>
      intro acc t folded
      simp only [List.foldl_nil] at folded
      subst folded
      refine ⟨fun a ha => ?_, by simp, by simp⟩
      cases ha
      exact ⟨Int.le_refl _, Int.le_refl _⟩
  | cons r rest ih =>
      intro acc t folded
      rw [List.foldl_cons] at folded
      obtain ⟨bounds, inside, count⟩ := ih _ t folded
      obtain ⟨minLe, maxLe⟩ := bounds _ rfl
      refine ⟨fun a ha => ?_, fun q hq => ?_, ?_⟩
      · subst ha
        simp only [SegmentTimes.add] at minLe maxLe
        omega
      · rcases List.mem_cons.mp hq with rfl | hq
        · cases acc with
          | none => exact ⟨minLe, maxLe⟩
          | some a =>
              simp only [SegmentTimes.add] at minLe maxLe
              omega
        · exact inside q hq
      · rw [count]
        cases acc <;> cases hsel : sel.selectsTimestamp (timestamp r) <;>
          simp [SegmentTimes.add, hsel] <;> omega

theorem times_attained (timestamp : ρ → Int) (sel : ReplaySelection) :
    ∀ (records : List ρ) (acc : Option SegmentTimes) (t : SegmentTimes),
      records.foldl (fun times r =>
          some (SegmentTimes.add times (timestamp r) (sel.selectsTimestamp (timestamp r)))) acc =
        some t →
      ((∃ a, acc = some a ∧ a.minMs = t.minMs) ∨ ∃ r ∈ records, timestamp r = t.minMs) ∧
      ((∃ a, acc = some a ∧ a.maxMs = t.maxMs) ∨ ∃ r ∈ records, timestamp r = t.maxMs) := by
  intro records
  induction records with
  | nil =>
      intro acc t folded
      exact ⟨.inl ⟨t, folded, rfl⟩, .inl ⟨t, folded, rfl⟩⟩
  | cons r rest ih =>
      intro acc t folded
      rw [List.foldl_cons] at folded
      obtain ⟨oldest, newest⟩ := ih _ t folded
      constructor
      · rcases oldest with ⟨a, ha, same⟩ | ⟨q, hq, same⟩
        · cases ha
          cases acc with
          | none => exact .inr ⟨r, List.mem_cons_self, same⟩
          | some a =>
              simp only [SegmentTimes.add] at same
              rcases Int.le_total a.minMs (timestamp r) with le | le
              · exact .inl ⟨a, rfl, by omega⟩
              · exact .inr ⟨r, List.mem_cons_self, by omega⟩
        · exact .inr ⟨q, List.mem_cons_of_mem r hq, same⟩
      · rcases newest with ⟨a, ha, same⟩ | ⟨q, hq, same⟩
        · cases ha
          cases acc with
          | none => exact .inr ⟨r, List.mem_cons_self, same⟩
          | some a =>
              simp only [SegmentTimes.add] at same
              rcases Int.le_total (timestamp r) a.maxMs with le | le
              · exact .inl ⟨a, rfl, by omega⟩
              · exact .inr ⟨r, List.mem_cons_self, by omega⟩
        · exact .inr ⟨q, List.mem_cons_of_mem r hq, same⟩

theorem timesOf_spec (timestamp : ρ → Int) (sel : ReplaySelection) (records : List ρ)
    (t : SegmentTimes) (read : timesOf timestamp sel records = some t) :
    (∀ r ∈ records, t.minMs ≤ timestamp r ∧ timestamp r ≤ t.maxMs) ∧
      t.selected = (records.filter fun r => sel.selectsTimestamp (timestamp r)).length := by
  obtain ⟨_, inside, count⟩ := times_fold timestamp sel records none t read
  exact ⟨inside, by simpa using count⟩

theorem timesOf_none (timestamp : ρ → Int) (sel : ReplaySelection) (records : List ρ)
    (unread : timesOf timestamp sel records = none) : records = [] := by
  cases records with
  | nil => rfl
  | cons r rest =>
      have isSome : ∀ (rs : List ρ) (a : SegmentTimes), ∃ t, rs.foldl (fun times r =>
          some (SegmentTimes.add times (timestamp r) (sel.selectsTimestamp (timestamp r))))
            (some a) = some t := by
        intro rs
        induction rs with
        | nil => exact fun a => ⟨a, rfl⟩
        | cons q qs ih => exact fun a => ih _
      obtain ⟨t, ht⟩ := isSome rest
        (SegmentTimes.add none (timestamp r) (sel.selectsTimestamp (timestamp r)))
      simp only [timesOf, List.foldl_cons] at unread
      rw [ht] at unread
      cases unread

theorem mem_overSelected {β : Type} (manifest : BackupSetFacts) (sel : ReplaySelection)
    (f : String → Int → SegmentFacts → List β) (x : β) :
    x ∈ overSelected manifest sel f ↔
      ∃ t ∈ manifest.topics, ∃ p ∈ t.partitions,
        sel.selectsPartition t.name p.partitionId = true ∧
          ∃ seg ∈ p.segments, x ∈ f t.name p.partitionId seg := by
  simp only [overSelected, List.mem_flatMap, List.mem_filter]
  constructor
  · rintro ⟨t, ⟨ht, _⟩, p, ⟨hp, selected⟩, seg, hseg, hx⟩
    exact ⟨t, ht, p, hp, selected, seg, hseg, hx⟩
  · rintro ⟨t, ht, p, hp, selected, seg, hseg, hx⟩
    exact ⟨t, ⟨ht, selectsPartition_topic sel _ _ selected⟩, p, ⟨hp, selected⟩, seg, hseg, hx⟩

theorem flatMap_congr_mem {α β : Type} {f g : α → List β} {l : List α}
    (same : ∀ x ∈ l, f x = g x) : l.flatMap f = l.flatMap g := by
  simp only [List.flatMap_def]
  rw [List.map_congr_left same]

theorem overSelected_congr {β : Type} (manifest : BackupSetFacts) (sel : ReplaySelection)
    (f g : String → Int → SegmentFacts → List β)
    (same : ∀ t ∈ manifest.topics, ∀ p ∈ t.partitions,
      sel.selectsPartition t.name p.partitionId = true →
        ∀ seg ∈ p.segments, f t.name p.partitionId seg = g t.name p.partitionId seg) :
    overSelected manifest sel f = overSelected manifest sel g := by
  unfold overSelected
  apply flatMap_congr_mem
  intro t ht
  apply flatMap_congr_mem
  intro p hp
  apply flatMap_congr_mem
  intro seg hseg
  exact same t (List.mem_filter.mp ht).1 p (List.mem_filter.mp hp).1
    (List.mem_filter.mp hp).2 seg hseg

theorem mem_skipped (manifest : BackupSetFacts) (times : RecordTimes) (sel : ReplaySelection)
    (floorMs : Int) (x : Skipped) :
    x ∈ skipped manifest times sel floorMs ↔
      ∃ t ∈ manifest.topics, ∃ p ∈ t.partitions,
        sel.selectsPartition t.name p.partitionId = true ∧ ∃ seg ∈ p.segments,
          skippedSegment times t.name p.partitionId (sel.windowStartMs.getD floorMs)
            sel.windowEndMs seg = some x := by
  simp only [skipped, List.mem_flatMap, List.mem_filter, List.mem_filterMap]
  constructor
  · rintro ⟨t, ⟨ht, _⟩, p, ⟨hp, selected⟩, seg, hseg, hx⟩
    exact ⟨t, ht, p, hp, selected, seg, hseg, hx⟩
  · rintro ⟨t, ht, p, hp, selected, seg, hseg, hx⟩
    exact ⟨t, ⟨ht, selectsPartition_topic sel _ _ selected⟩, p, ⟨hp, selected⟩, seg, hseg, hx⟩

theorem skippedSegment_eq_some (times : RecordTimes) (topic : String)
    (partition startMs endMs : Int) (seg : SegmentFacts) (x : Skipped) :
    skippedSegment times topic partition startMs endMs seg = some x →
      ∃ t, times[seg.key]? = some t ∧ 0 < t.selected ∧
        segmentOverlaps startMs endMs seg.startTimestamp seg.endTimestamp = false := by
  intro found
  unfold skippedSegment at found
  split at found
  · cases found
  · rename_i t ht
    split at found
    · rename_i passed
      exact ⟨t, ht, passed⟩
    · cases found

theorem mem_locate (records : String → List ρ) (topic : String) (partition : Int)
    (seg : SegmentFacts) (x : Located ρ) (hx : x ∈ locate records topic partition seg) :
    x.record ∈ records seg.key ∧ x.key = seg.key := by
  obtain ⟨⟨r, i⟩, hr, rfl⟩ := List.mem_map.mp hx
  exact ⟨List.fst_mem_of_mem_zipIdx hr, rfl⟩

theorem exists_locate (records : String → List ρ) (topic : String) (partition : Int)
    (seg : SegmentFacts) (r : ρ) (hr : r ∈ records seg.key) :
    ∃ x ∈ locate records topic partition seg, x.record = r := by
  obtain ⟨i, hi, rfl⟩ := List.mem_iff_getElem.mp hr
  refine ⟨⟨topic, partition, seg.key, i, (records seg.key)[i]⟩, ?_, rfl⟩
  exact List.mem_map.mpr ⟨((records seg.key)[i], i),
    List.mk_mem_zipIdx_iff_getElem?.mpr (List.getElem?_eq_getElem hi), rfl⟩

theorem widenSegment_start_le (times : RecordTimes) (seg : SegmentFacts) (t : SegmentTimes)
    (entry : times[seg.key]? = some t) : (widenSegment times seg).startTimestamp ≤ t.minMs := by
  simp only [widenSegment, entry]
  omega

theorem widened_floor_le (facts : BackupSetFacts) (times : RecordTimes) (sel : ReplaySelection)
    (floorMs : Int)
    (found : (widen facts times).earliestCoveredTimestampMs sel.topics = some floorMs)
    (t : TopicFacts) (ht : t ∈ facts.topics) (p : PartitionFacts) (hp : p ∈ t.partitions)
    (selected : sel.selectsPartition t.name p.partitionId = true)
    (seg : SegmentFacts) (hseg : seg ∈ p.segments) (st : SegmentTimes)
    (entry : times[seg.key]? = some st) : floorMs ≤ st.minMs := by
  have below := earliestCovered_le (widen facts times) sel.topics floorMs found
    { t with
      partitions := t.partitions.map fun p =>
        { p with segments := p.segments.map (widenSegment times) } }
    (List.mem_map.mpr ⟨t, ht, rfl⟩) (selectsPartition_topic sel _ _ selected)
    { p with segments := p.segments.map (widenSegment times) }
    (List.mem_map.mpr ⟨p, hp, rfl⟩) (widenSegment times seg)
    (List.mem_map.mpr ⟨seg, hseg, rfl⟩)
  exact Int.le_trans below (widenSegment_start_le times seg st entry)

theorem rendered_window_selects (sel : ReplaySelection) (floorMs ts : Int) (above : floorMs ≤ ts) :
    windowSelects (some (sel.windowStartMs.getD floorMs)) sel.windowEndMs ts =
      sel.selectsTimestamp ts := by
  unfold ReplaySelection.selectsTimestamp
  cases sel.windowStartMs with
  | none => simp [windowSelects, above]
  | some s => rfl

end Archive

section Exact
variable {ρ : Type}

theorem segment_exact (A : Archive ρ) (sel : ReplaySelection) (times : RecordTimes)
    (floorMs : Int) (topic : String) (partition : Int) (seg : SegmentFacts)
    (read : times[seg.key]? = timesOf A.timestamp sel (A.records seg.key))
    (above : ∀ st, times[seg.key]? = some st → floorMs ≤ st.minMs)
    (kept : skippedSegment times topic partition (sel.windowStartMs.getD floorMs)
      sel.windowEndMs seg = none) :
    (if segmentOverlaps (sel.windowStartMs.getD floorMs) sel.windowEndMs seg.startTimestamp
        seg.endTimestamp then
      (locate A.records topic partition seg).filter fun x =>
        windowSelects (some (sel.windowStartMs.getD floorMs)) sel.windowEndMs
          (A.timestamp x.record)
    else []) =
      (locate A.records topic partition seg).filter
        fun x => sel.selectsTimestamp (A.timestamp x.record) := by
  cases entry : times[seg.key]? with
  | none =>
      have empty := timesOf_none A.timestamp sel (A.records seg.key) (read ▸ entry)
      simp [locate, empty]
  | some st =>
      obtain ⟨inside, count⟩ :=
        timesOf_spec A.timestamp sel (A.records seg.key) st (read ▸ entry)
      have floorLe := above st entry
      split
      · apply List.filter_congr
        intro x hx
        have hr := (mem_locate A.records topic partition seg x hx).1
        exact rendered_window_selects sel floorMs _
          (Int.le_trans floorLe (inside x.record hr).1)
      · rename_i apart
        -- Not read and not skipped: the window selects no record of it.
        have noneSelected : st.selected = 0 := by
          simp only [skippedSegment, entry] at kept
          split at kept
          · cases kept
          · rename_i notBoth
            exact Nat.eq_zero_of_not_pos fun positive =>
              notBoth ⟨positive, Bool.eq_false_iff.mpr apart⟩
        rw [noneSelected] at count
        have noSelected := List.eq_nil_of_length_eq_zero count.symm
        symm
        rw [List.filter_eq_nil_iff]
        intro x hx
        have hr := (mem_locate A.records topic partition seg x hx).1
        exact List.filter_eq_nil_iff.mp noSelected x.record hr

theorem engine_exact_of_not_skipped (A : Archive ρ) (sel : ReplaySelection)
    (times : RecordTimes) (floorMs : Int) (read : A.ReadSelected sel times)
    (found : (widen A.manifest times).earliestCoveredTimestampMs sel.topics = some floorMs)
    (passed : skipped A.manifest times sel floorMs = []) :
    A.engineRecords sel (sel.windowStartMs.getD floorMs) = A.selectedRecords sel := by
  apply overSelected_congr
  intro t ht p hp selected seg hseg
  apply segment_exact A sel times floorMs t.name p.partitionId seg
  · exact read t ht p hp selected seg hseg
  · intro st entry
    exact widened_floor_le A.manifest times sel floorMs found t ht p hp selected seg hseg st entry
  · cases entry : skippedSegment times t.name p.partitionId (sel.windowStartMs.getD floorMs)
      sel.windowEndMs seg with
    | none => rfl
    | some x =>
        have member := (mem_skipped A.manifest times sel floorMs x).mpr
          ⟨t, ht, p, hp, selected, seg, hseg, entry⟩
        rw [passed] at member
        cases member

theorem listing_unique (A : Archive ρ) (t t' : TopicFacts) (ht : t ∈ A.manifest.topics)
    (ht' : t' ∈ A.manifest.topics) (p p' : PartitionFacts) (hp : p ∈ t.partitions)
    (hp' : p' ∈ t'.partitions) (seg seg' : SegmentFacts) (hseg : seg ∈ p.segments)
    (hseg' : seg' ∈ p'.segments) (key : seg'.key = seg.key) (held : A.records seg.key ≠ []) :
    seg'.startTimestamp = seg.startTimestamp ∧ seg'.endTimestamp = seg.endTimestamp := by
  have hfirst := List.head?_eq_some_head held
  have hlast := List.getLast?_eq_some_getLast held
  obtain ⟨start, stop⟩ := A.firstLast t ht p hp seg hseg
  obtain ⟨start', stop'⟩ := A.firstLast t' ht' p' hp' seg' hseg'
  rw [key] at start' stop'
  exact ⟨(start' _ hfirst).trans (start _ hfirst).symm,
    (stop' _ hlast).trans (stop _ hlast).symm⟩

theorem lost_of_skipped (A : Archive ρ) (sel : ReplaySelection) (times : RecordTimes)
    (floorMs : Int) (read : A.ReadSelected sel times)
    (refused : skipped A.manifest times sel floorMs ≠ []) :
    ∃ x ∈ A.selectedRecords sel, x ∉ A.engineRecords sel (sel.windowStartMs.getD floorMs) := by
  obtain ⟨entry, member⟩ := List.exists_mem_of_ne_nil _ refused
  obtain ⟨t, ht, p, hp, selected, seg, hseg, named⟩ :=
    (mem_skipped A.manifest times sel floorMs entry).mp member
  obtain ⟨st, hst, positive, apart⟩ := skippedSegment_eq_some _ _ _ _ _ _ _ named
  have fold := (read t ht p hp selected seg hseg).symm.trans hst
  obtain ⟨_, count⟩ := timesOf_spec A.timestamp sel (A.records seg.key) st fold
  obtain ⟨r, hr⟩ := List.exists_mem_of_length_pos (by rw [← count]; exact positive)
  obtain ⟨held, chosen⟩ := List.mem_filter.mp hr
  obtain ⟨x, hx, rfl⟩ := exists_locate A.records t.name p.partitionId seg r held
  refine ⟨x, ?_, ?_⟩
  · exact (mem_overSelected _ _ _ x).mpr
      ⟨t, ht, p, hp, selected, seg, hseg, List.mem_filter.mpr ⟨hx, chosen⟩⟩
  · intro restored
    obtain ⟨t', ht', p', hp', _, seg', hseg', hx'⟩ := (mem_overSelected _ _ _ x).mp restored
    split at hx'
    · rename_i overlap
      have key' := (mem_locate A.records _ _ seg' x (List.mem_filter.mp hx').1).2
      have key := (mem_locate A.records _ _ seg x hx).2
      obtain ⟨start, stop⟩ := listing_unique A t t' ht ht' p p' hp hp' seg seg' hseg hseg'
        (key'.symm.trans key) (List.ne_nil_of_mem held)
      rw [start, stop, apart] at overlap
      cases overlap
    · cases hx'

/-- Restore selection is exact once the record-time check passes, and loses a
selected record whenever it does not. -/
theorem record_time_check_exact (A : Archive ρ) (sel : ReplaySelection) (times : RecordTimes)
    (floorMs : Int) (read : A.ReadSelected sel times)
    (found : (widen A.manifest times).earliestCoveredTimestampMs sel.topics = some floorMs) :
    (skipped A.manifest times sel floorMs = [] →
      A.engineRecords sel (sel.windowStartMs.getD floorMs) = A.selectedRecords sel) ∧
    (skipped A.manifest times sel floorMs ≠ [] →
      ∃ x ∈ A.selectedRecords sel,
        x ∉ A.engineRecords sel (sel.windowStartMs.getD floorMs)) :=
  ⟨engine_exact_of_not_skipped A sel times floorMs read found,
    lost_of_skipped A sel times floorMs read⟩

end Exact

def outOfOrderArchive : Archive Int where
  manifest := ⟨[⟨"orders", [⟨0, [⟨"orders/0/0", 0, 2, 7, 9, 3, ""⟩], [], []⟩]⟩]⟩
  timestamp := id
  records := fun key => if key = "orders/0/0" then [7, 2, 9] else []
  firstLast := by
    intro t ht p hp seg hseg
    simp only [List.mem_singleton] at ht
    subst ht
    simp only [List.mem_singleton] at hp
    subst hp
    simp only [List.mem_singleton] at hseg
    subst hseg
    simp

def upTo (windowEndMs : Int) : ReplaySelection :=
  ⟨ExtTreeSet.ofList ["orders"], none, windowEndMs, ∅⟩

/-- Up to 20 the selection keeps all three records; up to 5 the engine passes
over the segment and loses the record at 2. -/
theorem record_time_check_out_of_order :
    outOfOrderArchive.engineRecords (upTo 20) 2 = outOfOrderArchive.selectedRecords (upTo 20) ∧
      ∃ x ∈ outOfOrderArchive.selectedRecords (upTo 5),
        x ∉ outOfOrderArchive.engineRecords (upTo 5) 2 :=
  ⟨(record_time_check_exact outOfOrderArchive (upTo 20)
      (ExtTreeMap.ofList [("orders/0/0", SegmentTimes.mk 2 9 3)]) 2
      (by unfold Archive.ReadSelected; decide) (by decide)).1 (by decide),
    (record_time_check_exact outOfOrderArchive (upTo 5)
      (ExtTreeMap.ofList [("orders/0/0", SegmentTimes.mk 2 9 1)]) 2
      (by unfold Archive.ReadSelected; decide) (by decide)).2 (by decide)⟩

end Logweir.RecordTimes
