import Logweir.Verify.Run
import Logweir.Positions.Probing

/-!
# A mapped position skips nothing

Over a partition a complete verification passed, what a mapped position says of
the restored and the archived records on either side of it.
-/

set_option autoImplicit false

namespace Logweir.PositionsMapping

open Std (ExtTreeMap ExtTreeSet)
open Logweir.Engine (SegmentFacts BackupSetFacts)
open Logweir.ReplaySelection Logweir.Fingerprint Logweir.Kbak Logweir.Complete Logweir.Results
open Logweir.TreeMaps

theorem mapFound_eq (base : MappingEntry) (scan : PartitionScan) (p : Int) (found : Found) :
    mapFound base scan p found =
      if overlaps scan.gaps p found.upper then base.refused archiveGap
      else
        let skipped := countIn scan.excluded p found.upper
        if skipped = 0 then
          { base with targetOffset := some (found.target scan.highWatermark), class_ := exact }
        else
          { base with
            targetOffset := some (found.target scan.highWatermark)
            class_ := approximate
            skipped := some skipped
            reason := some selectionExcluded } := by
  cases found <;> rfl

theorem classifyEntry_related (entry : PositionEntry) (capture : Option PartitionFacts)
    (targetTopic : String) (scan : PartitionScan) (transactional : Bool) (p : Int) (found : Found)
    (captured : entry.status = "captured") (position : entry.position = some p)
    (related : entry.coverage = some "withinArchive" ∨ entry.coverage = some "atArchiveEnd")
    (answered : scan.found[p]? = some found) :
    classifyEntry entry capture (some targetTopic) (some scan) transactional =
      if transactional then (baseEntry entry (some targetTopic)).refused transactionalArchive
      else mapFound (baseEntry entry (some targetTopic)) scan p found := by
  have word : entry.coverage.getD "" = "withinArchive" ∨ entry.coverage.getD "" = "atArchiveEnd" := by
    rcases related with within | atEnd
    · exact .inl (by rw [within]; rfl)
    · exact .inr (by rw [atEnd]; rfl)
  have kept : entry.status ≠ "excluded" := by
    rw [captured]
    decide
  unfold classifyEntry
  simp only [if_neg kept, if_neg (not_not_intro captured), position, if_pos word, answered]

def observations (log : List ConsumedRecord) : List Observation :=
  log.filterMap fun c => (lineageOffset c.headers).map fun o => (c.offset, o)

theorem probeLog_observations (log : List ConsumedRecord) : ∀ p : Prober,
    probeLog p log = observeAll p (observations log) := by
  induction log with
  | nil => exact fun p => rfl
  | cons c log ih =>
      intro p
      cases lineage : lineageOffset c.headers with
      | none => simpa [probeLog, observations, lineage] using ih p
      | some o => simpa [probeLog, observations, lineage, observeAll] using ih (p.observe c.offset o)

theorem reads_from {reader : ClusterReader} {target : String} {partition hi start : Int}
    {log : List ConsumedRecord} (reads : Reads reader target partition hi start log) :
    (∀ c ∈ log, start ≤ c.offset) ∧ log.Pairwise fun a b => a.offset < b.offset := by
  induction reads with
  | done _ => exact ⟨fun c none => (nomatch none), .nil⟩
  | @more start chunk rest last _ _ final ascending asked _ ih =>
      obtain ⟨later, sorted⟩ := ih
      have upTo : ∀ c ∈ chunk, c.offset ≤ last.offset := by
        intro c hc
        obtain ⟨front, rfl⟩ := List.getLast?_eq_some_iff.mp final
        rcases List.mem_append.mp hc with early | same
        · have := (List.pairwise_append.mp ascending).2.2 c early last (List.mem_singleton.mpr rfl)
          omega
        · exact Int.le_of_eq (congrArg ConsumedRecord.offset (List.mem_singleton.mp same))
      constructor
      · intro c hc
        rcases List.mem_append.mp hc with early | late
        · exact asked c early
        · have := asked last (List.mem_of_getLast? final)
          have := later c late
          omega
      · refine List.pairwise_append.mpr ⟨ascending, sorted, fun a ha b hb => ?_⟩
        have := upTo a ha
        have := later b hb
        omega

section Lane
variable {ζ : Type} (sha256 : List UInt8 → Digest) (zstd : ZstdStream ζ)

theorem restored_observations (store : Store) (window : CompleteWindow) (segs : List SegmentFacts)
    (log : List ConsumedRecord) (restored : Restored sha256 zstd store window segs log)
    (sorted : log.Pairwise fun a b => a.offset < b.offset) :
    (observations log).Pairwise fun a b => a.1 < b.1 ∧ a.2 < b.2 := by
  obtain ⟨_, ordered, _, _, ascending, same⟩ := restored
  have lineages : (log.map fun c => lineageOffset c.headers).Pairwise fun a b =>
      ∀ x ∈ a, ∀ y ∈ b, x < y := by
    have firsts := congrArg (List.map Prod.fst) same
    simp only [List.map_map] at firsts
    rw [show (fun c : ConsumedRecord => lineageOffset c.headers) =
      Prod.fst ∘ lineageDigest sha256 from rfl, firsts, List.pairwise_map]
    refine ascending.imp fun {a b} less x hx y hy => ?_
    cases hx
    cases hy
    exact less
  rw [List.pairwise_map] at lineages
  rw [observations, List.pairwise_filterMap]
  refine (sorted.and lineages).imp fun {a b} both x hx y hy => ?_
  obtain ⟨o, lineage, rfl⟩ := Option.map_eq_some_iff.mp hx
  obtain ⟨o', lineage', rfl⟩ := Option.map_eq_some_iff.mp hy
  exact ⟨both.1, both.2 o lineage o' lineage'⟩

def answerFor (log : List ConsumedRecord) (p : Int) : Found := firstAtOrAbove (observations log) p

/-- No record is skipped at `t` for the position `p`, and none is read again:
every selected archived record from `p` on is restored from `t` on, every
restored record from `p` on lies from `t` on, and what lies from `t` on below
the high watermark is from `p` on. -/
structure TwoSided (window : CompleteWindow) (records : List RecordDigest)
    (log : List ConsumedRecord) (highWatermark p t : Int) : Prop where
  restored : ∀ r ∈ records, selected window r.timestamp = true → p ≤ r.offset →
    ∃ c ∈ log, lineageDigest sha256 c = (some r.offset, r.digest) ∧ t ≤ c.offset
  ahead : ∀ c ∈ log, ∀ o, lineageOffset c.headers = some o → p ≤ o → t ≤ c.offset
  unread : ∀ c ∈ log, t ≤ c.offset → c.offset < highWatermark →
    ∃ o, lineageOffset c.headers = some o ∧ p ≤ o

def excludedWithin (window : CompleteWindow) (records : List RecordDigest) (lo hi : Int) : Nat :=
  records.countP fun r => within lo hi r.offset && !selected window r.timestamp

theorem countIn_excluded (window : CompleteWindow) (records : List RecordDigest) (lo hi : Int) :
    countIn ((unchosenOffsets window records).mergeSort fun a b => decide (a ≤ b)) lo hi =
      excludedWithin window records lo hi := by
  have sorted : ((unchosenOffsets window records).mergeSort fun a b => decide (a ≤ b)).Pairwise
      (· ≤ ·) := sorted_mergeSort (fun o => o) (unchosenOffsets window records)
  rw [countIn_sorted _ sorted,
    (List.mergeSort_perm (unchosenOffsets window records) _).countP_eq, unchosenOffsets,
    List.countP_map, List.countP_filter]
  rfl

theorem readsBack_unique (store : Store) (seg : SegmentFacts) (a b : List RecordDigest)
    (first : ReadsBack sha256 zstd store seg a) (second : ReadsBack sha256 zstd store seg b) :
    a = b := by
  obtain ⟨bytes, held, _, read⟩ := first.stored
  obtain ⟨bytes', held', _, read'⟩ := second.stored
  cases held.symm.trans held'
  exact (Prod.ext_iff.mp (read.symm.trans read')).2

theorem readsAll_unique (store : Store) (segs : List SegmentFacts) (a b : List RecordDigest)
    (first : ReadsAll sha256 zstd store segs a) (second : ReadsAll sha256 zstd store segs b) :
    a = b := by
  induction first generalizing b with
  | nil =>
      cases second
      rfl
  | cons here _ ih =>
      cases second with
      | cons here' more' =>
          rw [readsBack_unique sha256 zstd store _ _ _ here here', ih _ more']

theorem mem_observations (log : List ConsumedRecord) (c : ConsumedRecord) (o : Int) (hc : c ∈ log)
    (lineage : lineageOffset c.headers = some o) : (c.offset, o) ∈ observations log :=
  List.mem_filterMap.mpr ⟨c, hc, by rw [lineage]; rfl⟩

theorem twoSided_answer (store : Store) (window : CompleteWindow) (segs : List SegmentFacts)
    (records : List RecordDigest) (log : List ConsumedRecord) (highWatermark p : Int)
    (back : ReadsAll sha256 zstd store (segs.mergeSort segmentLe) records)
    (restored : Restored sha256 zstd store window segs log)
    (sorted : log.Pairwise fun a b => a.offset < b.offset) :
    TwoSided sha256 window records log highWatermark p
        ((answerFor log p).target highWatermark) ∧
      ∀ r ∈ records, selected window r.timestamp = true →
        ¬ (p ≤ r.offset ∧ r.offset < (answerFor log p).upper) := by
  have ascending := restored_observations sha256 zstd store window segs log restored sorted
  obtain ⟨records', ordered, back', perm, _, same⟩ := restored
  obtain rfl := readsAll_unique sha256 zstd store _ _ _ back back'
  have named : ∀ c ∈ log, ∃ o, lineageOffset c.headers = some o := by
    intro c hc
    have member : lineageDigest sha256 c ∈ ordered.map fun r => (some r.offset, r.digest) := by
      rw [← same]
      exact List.mem_map_of_mem hc
    obtain ⟨r, _, eq⟩ := List.mem_map.mp member
    exact ⟨r.offset, (congrArg Prod.fst eq).symm⟩
  have copied : ∀ r ∈ records, selected window r.timestamp = true →
      ∃ c ∈ log, lineageDigest sha256 c = (some r.offset, r.digest) := by
    intro r hr into
    have member : (some r.offset, r.digest) ∈ log.map (lineageDigest sha256) := by
      rw [same]
      exact List.mem_map_of_mem (f := fun r : RecordDigest => (some r.offset, r.digest))
        (perm.mem_iff.mpr (List.mem_filter.mpr ⟨hr, into⟩))
    exact List.mem_map.mp member
  cases answer : answerFor log p with
  | record t l =>
      have sides := firstAtOrAbove_record (observations log) p t l ascending answer
      refine ⟨⟨fun r hr into le => ?_, fun c hc o lineage le => ?_, fun c hc le _ => ?_⟩,
        fun r hr into inside => ?_⟩
      · obtain ⟨c, hc, eq⟩ := copied r hr into
        have lineage := congrArg Prod.fst eq
        exact ⟨c, hc, eq, (sides _ (mem_observations log c r.offset hc lineage)).1.mp le⟩
      · exact (sides _ (mem_observations log c o hc lineage)).1.mp le
      · obtain ⟨o, lineage⟩ := named c hc
        exact ⟨o, lineage, (sides _ (mem_observations log c o hc lineage)).1.mpr le⟩
      · obtain ⟨c, hc, eq⟩ := copied r hr into
        have lineage := congrArg Prod.fst eq
        have := (sides _ (mem_observations log c r.offset hc lineage)).2 inside.1
        exact absurd inside.2 (Int.not_lt.mpr this)
  | «end» =>
      have under := firstAtOrAbove_end (observations log) p answer
      refine ⟨⟨fun r hr into le => ?_, fun c hc o lineage le => ?_, fun c hc le less => ?_⟩,
        fun r hr into inside => ?_⟩
      · obtain ⟨c, hc, eq⟩ := copied r hr into
        have := under _ (mem_observations log c r.offset hc (congrArg Prod.fst eq))
        omega
      · have := under _ (mem_observations log c o hc lineage)
        omega
      · exact absurd less (Int.not_lt.mpr le)
      · obtain ⟨c, hc, eq⟩ := copied r hr into
        have := under _ (mem_observations log c r.offset hc (congrArg Prod.fst eq))
        omega

/-- Whether some offset lies in a recorded range and in `[lo, hi)`. -/
def Meets (ranges : List (Int × Int)) (lo hi : Int) : Prop :=
  ∃ g ∈ ranges, ∃ o, g.1 ≤ o ∧ o ≤ g.2 ∧ lo ≤ o ∧ o < hi

theorem overlaps_of_meets (ranges : List (Int × Int)) (lo hi : Int) (meets : Meets ranges lo hi) :
    overlaps ranges lo hi = true := by
  obtain ⟨g, hg, o, _, _, _, _⟩ := meets
  exact (overlaps_iff ranges lo hi).mpr ⟨g, hg, by omega, by omega⟩

theorem overlaps_iff_meets (ranges : List (Int × Int)) (lo hi : Int) (some' : lo < hi)
    (formed : ∀ g ∈ ranges, g.1 ≤ g.2) : overlaps ranges lo hi = true ↔ Meets ranges lo hi := by
  constructor
  · intro overlap
    obtain ⟨g, hg, below, above⟩ := (overlaps_iff ranges lo hi).mp overlap
    have := formed g hg
    exact ⟨g, hg, max g.1 lo, by omega, by omega, by omega, by omega⟩
  · exact overlaps_of_meets ranges lo hi

/-- What a mapping entry promises of the archived records, the restored records
and the recorded ranges of its partition. -/
structure SafelyMapped (window : CompleteWindow) (records : List RecordDigest)
    (log : List ConsumedRecord) (ranges : List (Int × Int)) (highWatermark p : Int)
    (transactional : Bool) (m : MappingEntry) : Prop where
  exact : m.class_ = PositionsMapping.exact → ∃ t, m.targetOffset = some t ∧
    TwoSided sha256 window records log highWatermark p t ∧
    (∀ r ∈ records, ¬ (p ≤ r.offset ∧ r.offset < (answerFor log p).upper)) ∧
    ¬ Meets ranges p (answerFor log p).upper
  approximate : m.class_ = PositionsMapping.approximate → ∃ t, m.targetOffset = some t ∧
    TwoSided sha256 window records log highWatermark p t ∧
    m.skipped = some (excludedWithin window records p (answerFor log p).upper)
  refused : transactional = false → p < (answerFor log p).upper → (∀ g ∈ ranges, g.1 ≤ g.2) →
    (m.class_ = unavailable ∧ m.reason = some archiveGap ↔
      Meets ranges p (answerFor log p).upper)

theorem unavailable_ne_exact : unavailable ≠ PositionsMapping.exact := by decide

theorem unavailable_ne_approximate : unavailable ≠ PositionsMapping.approximate := by decide

theorem exact_ne_approximate : PositionsMapping.exact ≠ PositionsMapping.approximate := by decide

theorem classifyEntry_safe (store : Store) (window : CompleteWindow) (segs : List SegmentFacts)
    (records : List RecordDigest) (log : List ConsumedRecord) (scan : PartitionScan)
    (back : ReadsAll sha256 zstd store (segs.mergeSort segmentLe) records)
    (restored : Restored sha256 zstd store window segs log)
    (sorted : log.Pairwise fun a b => a.offset < b.offset)
    (excluded : scan.excluded = (unchosenOffsets window records).mergeSort fun a b => decide (a ≤ b))
    (entry : PositionEntry) (capture : Option PartitionFacts) (targetTopic : String)
    (transactional : Bool) (p : Int) (captured : entry.status = "captured")
    (position : entry.position = some p)
    (related : entry.coverage = some "withinArchive" ∨ entry.coverage = some "atArchiveEnd")
    (answered : scan.found[p]? = some (answerFor log p)) :
    SafelyMapped sha256 window records log scan.gaps scan.highWatermark p transactional
      (classifyEntry entry capture (some targetTopic) (some scan) transactional) := by
  obtain ⟨sides, selectedOut⟩ := twoSided_answer sha256 zstd store window segs records log
    scan.highWatermark p back restored sorted
  rw [classifyEntry_related entry capture targetTopic scan transactional p _ captured position related
    answered]
  cases transactional with
  | true =>
      rw [if_pos rfl]
      exact ⟨fun h => absurd h unavailable_ne_exact, fun h => absurd h unavailable_ne_approximate,
        fun h => (nomatch h)⟩
  | false =>
      rw [if_neg Bool.false_ne_true, mapFound_eq, excluded, countIn_excluded]
      cases gap : overlaps scan.gaps p (answerFor log p).upper with
      | true =>
          rw [if_pos rfl]
          refine ⟨fun h => absurd h unavailable_ne_exact, fun h => absurd h unavailable_ne_approximate,
            fun _ less formed => ?_⟩
          rw [← overlaps_iff_meets _ _ _ less formed, gap]
          exact ⟨fun _ => rfl, fun _ => ⟨rfl, rfl⟩⟩
      | false =>
          have apart : ¬ Meets scan.gaps p (answerFor log p).upper := fun meets =>
            absurd (overlaps_of_meets _ _ _ meets) (Bool.eq_false_iff.mp gap)
          rw [if_neg Bool.false_ne_true]
          by_cases none : excludedWithin window records p (answerFor log p).upper = 0
          · simp only [if_pos none]
            refine ⟨fun _ => ⟨_, rfl, sides, fun r hr inside => ?_, apart⟩,
              fun h => absurd h exact_ne_approximate,
              fun _ _ _ => ⟨fun h => absurd h.1.symm unavailable_ne_exact, fun h => absurd h apart⟩⟩
            cases pick : selected window r.timestamp with
            | true => exact selectedOut r hr pick inside
            | false =>
                have counted := List.countP_eq_zero.mp none r hr
                simp only [within, pick, decide_eq_true inside.1, decide_eq_true inside.2] at counted
                exact counted rfl
          · simp only [if_neg none]
            exact ⟨fun h => absurd h.symm exact_ne_approximate, fun _ => ⟨_, rfl, sides, rfl⟩,
              fun _ _ _ => ⟨fun h => absurd h.1.symm unavailable_ne_approximate,
                fun h => absurd h apart⟩⟩

/-- A position captured in a partition that a run passed and scanned: whatever
the window excluded and the manifest's ranges, the entry made of it is safe. -/
theorem mapped_position_never_skips (reader : ClusterReader) (store : Store)
    (facts : BackupSetFacts) (listed : List (String × Int)) (mapping : ExtTreeMap String String)
    (plan : RestorePlan) (maxRecords : Option Nat) (probes : Probes) (outcome : CompleteOutcome)
    (ok : run sha256 zstd reader store facts listed mapping plan maxRecords (some probes) =
      .ok outcome)
    (key : String × Int) (scan : PartitionScan) (scanned : outcome.scans[key]? = some scan)
    (passed : ∀ row : Row, row ∈ outcome.verdicts.zip outcome.block.partitions →
      (row.2.topic, row.2.partition) = key → row.passes)
    (log : List ConsumedRecord)
    (reads : Reads reader scan.targetTopic key.2 scan.highWatermark 0 log)
    (positions : ExtTreeSet Int) (probed : probes[key]? = some positions) (entry : PositionEntry)
    (capture : Option PartitionFacts) (targetTopic : String) (transactional : Bool) (p : Int)
    (asked : p ∈ positions) (captured : entry.status = "captured")
    (position : entry.position = some p)
    (related : entry.coverage = some "withinArchive" ∨ entry.coverage = some "atArchiveEnd") :
    ∃ records, ReadsAll sha256 zstd store ((entrySegments facts key.1 key.2).mergeSort segmentLe)
        records ∧
      SafelyMapped sha256 (windowOf plan) records log (entryRanges facts key.1 key.2)
        scan.highWatermark p transactional
        (classifyEntry entry capture (some targetTopic) (some scan) transactional) := by
  obtain ⟨part, row, rfl, hrow, of, is⟩ := run_scanned sha256 zstd reader store facts listed mapping
    plan maxRecords (some probes) outcome ok key scan scanned
  have passes := passed row hrow (by rw [of.topic, of.partition])
  rw [is.target, is.high] at reads
  obtain ⟨_, restored⟩ := of.selected passes is.selected
  obtain ⟨records, back, excluded⟩ := is.archived
  obtain ⟨positions', held, found⟩ := is.probed
  have same : positions' = positions := by
    simp only [probesFor, Option.bind_some] at held
    split at held
    · cases held
    · exact Option.some.inj (held.symm.trans probed)
  have answered : scan.found[p]? = some (answerFor log p) := by
    rw [found log reads, probeLog_observations, same]
    exact prober_finds _ _ p (ExtTreeSet.mem_toList.mpr asked)
  refine ⟨records, back, ?_⟩
  rw [← is.gaps]
  exact classifyEntry_safe sha256 zstd store (windowOf plan) _ records log scan back
    (restored log reads) (reads_from reads).2 excluded entry capture targetTopic transactional p
    captured position related answered

def twoRecordSegment : List UInt8 :=
  [75, 66, 65, 75, 1, 0, 0, 0, 2, 0, 0, 0, 0, 0, 0, 0, 6, 0, 0, 0, 0, 0, 0, 0, 7, 0, 0, 0, 0, 0, 0,
    0, 58, 0, 0, 0, 5, 0, 0, 0, 0, 0, 0, 0, 6, 0, 0, 0, 0, 0, 0, 0, 1, 0, 0, 0, 107, 255, 255, 255,
    255, 1, 0, 17, 0, 120, 45, 111, 114, 105, 103, 105, 110, 97, 108, 45, 111, 102, 102, 115, 101,
    116, 8, 0, 0, 0, 6, 0, 0, 0, 0, 0, 0, 0, 27, 0, 0, 0, 20, 0, 0, 0, 0, 0, 0, 0, 7, 0, 0, 0, 0, 0,
    0, 0, 1, 0, 0, 0, 107, 255, 255, 255, 255, 0, 0, 186, 206, 146, 244, 66, 75, 65, 69]

def twoRecordHash (bytes : List UInt8) : Digest :=
  if bytes = twoRecordSegment then
    #v[185, 48, 116, 33, 249, 77, 83, 247, 165, 138, 68, 150, 126, 119, 16, 156, 224, 188, 143, 146,
      90, 123, 23, 4, 39, 156, 59, 200, 117, 60, 67, 69]
  else if bytes = (orderedParts (some [107]) none []).closed 20 then
    #v[171, 151, 84, 25, 26, 219, 171, 139, 219, 142, 180, 198, 56, 79, 230, 24, 38, 252, 168, 198,
      97, 130, 140, 2, 141, 27, 198, 5, 78, 94, 48, 186]
  else oneRecordHash bytes

def twoRecordFacts : SegmentFacts where
  key := "orders/0/000006.kbak"
  startOffset := 6
  endOffset := 7
  startTimestamp := 5
  endTimestamp := 20
  recordCount := 2
  sha256 := "sha256:b9307421f94d53f7a58a44967e77109ce0bc8f925a7b1704279c3bc8753c4345"

def twoRecordRun (gaps : List (Int × Int)) : Except DrillError CompleteOutcome :=
  run twoRecordHash rawBlockStream (Complete.targetOf [restoredRecord])
    (storeOf twoRecordFacts.key twoRecordSegment) (ordersFacts [⟨0, [twoRecordFacts], gaps, []⟩])
    [("orders", 0)] wholePlan.topicMapping wholePlan none
    (some {(("orders", 0), ExtTreeSet.ofList ([6, 7] : List Int) compare)})

def capturedAt (p : Int) : PositionEntry :=
  { topic := "orders", partition := 0, status := "captured", position := some p, reason := none
    coverage := some "withinArchive" }

structure ScanSummary where
  rows : List Row
  targetTopic : String
  highWatermark : Int
  excluded : List Int
  gaps : List (Int × Int)
  atSix : Option Found
deriving DecidableEq

def summaryOf (answer : Except DrillError CompleteOutcome) : Option ScanSummary :=
  answer.toOption.bind fun outcome => (outcome.scans[(("orders", 0) : String × Int)]?).map fun scan =>
    ⟨outcome.verdicts.zip outcome.block.partitions, scan.targetTopic, scan.highWatermark,
      scan.excluded, scan.gaps, scan.found[(6 : Int)]?⟩

theorem summaryOf_eq_some (answer : Except DrillError CompleteOutcome) (summary : ScanSummary)
    (is : summaryOf answer = some summary) :
    ∃ outcome scan, answer = .ok outcome ∧
      outcome.scans[(("orders", 0) : String × Int)]? = some scan ∧
      outcome.verdicts.zip outcome.block.partitions = summary.rows ∧
      scan.targetTopic = summary.targetTopic ∧ scan.highWatermark = summary.highWatermark ∧
      scan.excluded = summary.excluded ∧ scan.gaps = summary.gaps ∧
      scan.found[(6 : Int)]? = summary.atSix := by
  obtain ⟨outcome, answered, rest⟩ := Option.bind_eq_some_iff.mp is
  obtain ⟨scan, scanned, rfl⟩ := Option.map_eq_some_iff.mp rest
  exact ⟨outcome, scan, (toOption_eq_some _ _).mp answered, scanned, rfl, rfl, rfl, rfl, rfl, rfl⟩

def twoRecordRow : Row :=
  ((ordersRow 1 1).1, { (ordersRow 1 1).2 with recordsDecoded := 2 })

theorem mapped_position_two_records :
    ∃ outcome scan records, twoRecordRun [] = .ok outcome ∧
      outcome.scans[(("orders", 0) : String × Int)]? = some scan ∧
      ReadsAll twoRecordHash rawBlockStream (storeOf twoRecordFacts.key twoRecordSegment)
        [twoRecordFacts] records ∧
      SafelyMapped twoRecordHash (windowOf wholePlan) records [restoredRecord] [] 1 7 false
        (classifyEntry (capturedAt 7) none (some "orders-restored") (some scan) false) := by
  obtain ⟨outcome, scan, ran, scanned, rows, target, high, _⟩ := summaryOf_eq_some (twoRecordRun [])
    ⟨[twoRecordRow], "orders-restored", 1, [7], [], some (.record 0 6)⟩ (by decide +kernel)
  obtain ⟨records, back, safe⟩ := mapped_position_never_skips twoRecordHash rawBlockStream
    (Complete.targetOf [restoredRecord]) (storeOf twoRecordFacts.key twoRecordSegment)
    (ordersFacts [⟨0, [twoRecordFacts], [], []⟩]) [("orders", 0)] wholePlan.topicMapping wholePlan none
    {(("orders", 0), ExtTreeSet.ofList ([6, 7] : List Int) compare)} outcome ran ("orders", 0) scan
    scanned
    (by
      intro row hrow _
      rw [rows, List.mem_singleton] at hrow
      subst hrow
      exact ⟨rfl, rfl⟩)
    [restoredRecord]
    (by
      rw [target, high]
      exact targetOf_reads restoredRecord rfl)
    (ExtTreeSet.ofList ([6, 7] : List Int) compare) (by simp) (capturedAt 7) none "orders-restored"
    false 7 (by simp) rfl rfl (.inl rfl)
  have entry : entrySegments (ordersFacts [⟨0, [twoRecordFacts], [], []⟩]) "orders" 0 =
      [twoRecordFacts] := by decide +kernel
  have ranges : entryRanges (ordersFacts [⟨0, [twoRecordFacts], [], []⟩]) "orders" 0 = [] := by
    decide +kernel
  rw [entry, List.mergeSort_singleton] at back
  rw [ranges, high] at safe
  exact ⟨outcome, scan, records, ran, scanned, back, safe⟩

/-- Position 6 is mapped exactly while archived record 7, past the window's end,
is not restored; and a range around the restored record 6 is a gap of position 6
although nothing lies between the two. -/
theorem exact_position_not_all_restored :
    (∃ outcome scan records, twoRecordRun [] = .ok outcome ∧
      (∀ row : Row, row ∈ outcome.verdicts.zip outcome.block.partitions → row.passes) ∧
      outcome.scans[(("orders", 0) : String × Int)]? = some scan ∧
      ReadsAll twoRecordHash rawBlockStream (storeOf twoRecordFacts.key twoRecordSegment)
        [twoRecordFacts] records ∧
      (classifyEntry (capturedAt 6) none (some "orders-restored") (some scan) false).class_ =
        PositionsMapping.exact ∧
      ∃ r ∈ records, 6 ≤ r.offset ∧
        ∀ c ∈ [restoredRecord], lineageOffset c.headers ≠ some r.offset) ∧
    ∃ outcome scan, twoRecordRun [(5, 7)] = .ok outcome ∧
      (∀ row : Row, row ∈ outcome.verdicts.zip outcome.block.partitions → row.passes) ∧
      outcome.scans[(("orders", 0) : String × Int)]? = some scan ∧
      (classifyEntry (capturedAt 6) none (some "orders-restored") (some scan) false).reason =
        some archiveGap ∧
      ¬ Meets [(5, 7)] 6 (answerFor [restoredRecord] 6).upper := by
  constructor
  · obtain ⟨outcome, scan, ran, scanned, rows, _, _, excluded, gaps, atSix⟩ := summaryOf_eq_some
      (twoRecordRun []) ⟨[twoRecordRow], "orders-restored", 1, [7], [], some (.record 0 6)⟩
      (by decide +kernel)
    obtain ⟨part, row, eq, _, of, is⟩ := run_scanned twoRecordHash rawBlockStream _ _ _ _ _ _ _ _
      outcome ran ("orders", 0) scan scanned
    obtain ⟨records, back, sorted⟩ := is.archived
    have entry : entrySegments (ordersFacts [⟨0, [twoRecordFacts], [], []⟩]) "orders" 0 =
        [twoRecordFacts] := by decide +kernel
    rw [eq, entry, List.mergeSort_singleton] at back
    refine ⟨outcome, scan, records, ran, fun row hrow => ?_, scanned, back, ?_, ?_⟩
    · rw [rows, List.mem_singleton] at hrow
      subst hrow
      exact ⟨rfl, rfl⟩
    · rw [classifyEntry_related (capturedAt 6) none "orders-restored" scan false 6 (.record 0 6) rfl rfl
        (.inl rfl) atSix, if_neg Bool.false_ne_true, mapFound_eq, gaps, excluded]
      rfl
    · have seven : (7 : Int) ∈ unchosenOffsets (windowOf wholePlan) records := by
        rw [← (List.mergeSort_perm _ _).mem_iff, ← sorted, excluded]
        exact List.mem_singleton.mpr rfl
      obtain ⟨r, hr, at'⟩ := List.mem_map.mp seven
      refine ⟨r, (List.mem_filter.mp hr).1, by omega, fun c hc => ?_⟩
      rw [List.mem_singleton.mp hc, at']
      decide
  · obtain ⟨outcome, scan, ran, scanned, rows, _, _, _, gaps, atSix⟩ := summaryOf_eq_some
      (twoRecordRun [(5, 7)])
      ⟨[twoRecordRow], "orders-restored", 1, [7], [(5, 7)], some (.record 0 6)⟩ (by decide +kernel)
    refine ⟨outcome, scan, ran, fun row hrow => ?_, scanned, ?_, ?_⟩
    · rw [rows, List.mem_singleton] at hrow
      subst hrow
      exact ⟨rfl, rfl⟩
    · rw [classifyEntry_related (capturedAt 6) none "orders-restored" scan false 6 (.record 0 6) rfl rfl
        (.inl rfl) atSix, if_neg Bool.false_ne_true, mapFound_eq, gaps]
      rfl
    · rintro ⟨_, _, o, _, _, le, less⟩
      have upper : (answerFor [restoredRecord] 6).upper = 6 := by decide +kernel
      omega

end Lane

end Logweir.PositionsMapping
