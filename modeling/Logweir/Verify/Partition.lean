import Logweir.Verify.Archive

/-!
# One partition of the lane

What `runPartition` leaves behind: one verdict and one report, and, when it was
compared and probed, one scan.  A partition whose two lanes are verified was read
back whole from the entry `run` reads and its target holds the expected output.
-/

set_option autoImplicit false

namespace Logweir.Complete

open Std (ExtTreeMap ExtTreeSet)
open Logweir.Engine Logweir.ReplaySelection Logweir.Fingerprint Logweir.Kbak Logweir.TreeMaps
open Logweir.Results
open Logweir.PositionsMapping (Prober PartitionScan)

def entrySegments (facts : BackupSetFacts) (src : String) (pid : Int) : List SegmentFacts :=
  ((manifestEntry facts src pid).map PartitionFacts.segments).getD []

section Lane
variable {ζ : Type} (sha256 : List UInt8 → Digest) (zstd : ZstdStream ζ)

/-- The restored records are the selected records of these segments, each once,
in ascending source order and unchanged, and nothing besides. -/
def Restored (store : Store) (window : CompleteWindow) (segs : List SegmentFacts)
    (log : List ConsumedRecord) : Prop :=
  ∃ records ordered : List RecordDigest,
    ReadsAll sha256 zstd store (segs.mergeSort segmentLe) records ∧
    ordered.Perm (chosen window records) ∧
    ordered.Pairwise (fun a b => a.offset < b.offset) ∧
    log.map (lineageDigest sha256) = ordered.map fun r => (some r.offset, r.digest)

theorem known_ordered (store : Store) (window : CompleteWindow) (p : PartitionFacts)
    (excluded excluded' : Option (List Int)) (records : List RecordDigest) (side : ArchiveSide)
    (known : ArchiveKnown sha256 zstd store window p excluded records side excluded') :
    ∃ ordered : List RecordDigest, ordered.Perm (chosen window records) ∧
      ordered.Pairwise (fun a b => a.offset < b.offset) ∧
      side.expected.toList = ordered.map fun r => (r.offset, r.digest) := by
  have perm := List.mergeSort_perm (chosen window records)
    (fun a b : RecordDigest => decide (a.offset ≤ b.offset))
  have sorted := sorted_mergeSort (fun r : RecordDigest => r.offset) (chosen window records)
  generalize (chosen window records).mergeSort _ = ordered at perm sorted
  have distinct : (ordered.map fun r => r.offset).Nodup :=
    (perm.map fun r => r.offset).nodup_iff.mpr known.distinct
  have ascending : ordered.Pairwise fun a b => a.offset < b.offset := by
    have apart := List.pairwise_map.mp distinct
    refine (sorted.and apart).imp ?_
    rintro a b ⟨le, ne⟩
    exact Int.lt_iff_le_and_ne.mpr ⟨le, ne⟩
  refine ⟨ordered, perm, ascending, (eq_toList_of_sorted side.expected _ ?_ ?_ ?_).symm⟩
  · rw [List.pairwise_map]
    exact ascending.imp fun less => Std.compare_eq_lt.mpr less
  · intro q hq
    obtain ⟨r, hr, rfl⟩ := List.mem_map.mp hq
    exact (known.expected r.offset r.digest).mpr ⟨r, perm.mem_iff.mp hr, rfl, rfl⟩
  · rw [List.length_map, known.size, perm.length_eq]

theorem archiveRecord_segments (window : CompleteWindow) (explained : List (Int × Int))
    (st : ArchiveState) (r : RecordDigest) :
    (archiveRecord window explained st r).side.segments = st.side.segments := by
  unfold archiveRecord
  simp only
  split
  · rfl
  · split <;> rfl

theorem archiveSegments_segments (store : Store) (window : CompleteWindow)
    (explained : List (Int × Int)) : ∀ (segs : List SegmentFacts) (st st' : ArchiveState),
    segs.foldlM (archiveSegment sha256 zstd store window explained) st = .ok st' →
      st'.side.unknown = none → st'.side.segments = st.side.segments := by
  have records : ∀ (l : List RecordDigest) (st : ArchiveState),
      (l.foldl (archiveRecord window explained) st).side.segments = st.side.segments := by
    intro l
    induction l with
    | nil => exact fun st => rfl
    | cons r l ih =>
        intro st
        rw [List.foldl_cons, ih, archiveRecord_segments]
  intro segs
  induction segs with
  | nil =>
      intro st st' ok _
      cases ok
      rfl
  | cons seg segs ih =>
      intro st st' ok known
      obtain ⟨st₁, first, rest⟩ := foldlM_cons_ok _ seg segs st st' ok
      have known₁ := archiveSegments_unknown sha256 zstd store window explained segs st₁ st' rest known
      rw [ih st₁ st' rest known]
      rcases archiveSegment_cases sha256 zstd store window explained st st₁ seg first with
        ⟨here, _, rfl⟩ | unknown
      · exact records here _
      · exact absurd known₁ unknown

theorem archiveSide_segments (store : Store) (window : CompleteWindow) (p : PartitionFacts)
    (findings findings' : Findings) (excluded excluded' : Option (List Int)) (side : ArchiveSide)
    (ok : archiveSide sha256 zstd store (some p) window findings excluded =
      .ok (side, findings', excluded'))
    (known : side.unknown = none) : side.segments = p.segments.length := by
  simp only [archiveSide] at ok
  obtain ⟨st, folded, ok⟩ := bind_eq_ok.mp ok
  split at ok
  · cases ok
    cases known
  · cases ok
    rw [archiveSegments_segments sha256 zstd store window _ _ _ st folded known]
    exact List.length_mergeSort p.segments

theorem segmentsEvidence_verified (side : ArchiveSide)
    (verified : (segmentsEvidence side).isVerified = true) : side.verified = side.segments := by
  unfold segmentsEvidence at verified
  split at verified
  · rename_i all
    exact all.2.2
  · split at verified <;> cases verified

theorem recordsEvidence_verified (r : ReplayComparison)
    (verified : (recordsEvidence r).isVerified = true) : r.isExact = true := by
  unfold recordsEvidence at verified
  split at verified
  · assumption
  · cases verified

theorem exactOutput_empty (log : List ConsumedRecord) (none : ExactOutput sha256 ∅ log) :
    log = [] :=
  List.eq_nil_of_length_eq_zero ((exactOutput_iff sha256 ∅ log).mp none).2

abbrev Row := SelectionVerdict × PartitionVerification

/-- A row of the ledger, its two lanes verified. -/
def Row.passes (row : Row) : Prop :=
  row.1.segments.isVerified = true ∧ row.1.records.isVerified = true

variable (reader : ClusterReader) (store : Store) (facts : BackupSetFacts)
  (selection : ReplaySelection) (window : CompleteWindow)

structure RowOf (part : (String × Int) × (String × Int)) (row : Row) : Prop where
  topic : row.2.topic = part.1.1
  partition : row.2.partition = part.1.2
  target : row.2.targetTopic = part.2.1
  compared : row.passes → row.2.compared = true
  unselected : row.passes → selection.selectsPartition part.1.1 part.1.2 = false →
    ∀ log, Reads reader part.2.1 part.1.2 part.2.2 0 log → log = []
  selected : row.passes → selection.selectsPartition part.1.1 part.1.2 = true →
    row.2.segmentsVerified = (entrySegments facts part.1.1 part.1.2).length ∧
      ∀ log, Reads reader part.2.1 part.1.2 part.2.2 0 log →
        Restored sha256 zstd store window (entrySegments facts part.1.1 part.1.2) log

def entryRanges (src : String) (pid : Int) : List (Int × Int) :=
  ((manifestEntry facts src pid).map fun f => f.gaps ++ f.pruned).getD []

/-- What a scan of a partition holds: the prober's answers over the records read,
the offsets of the archived records the window excluded, and the ranges. -/
structure Scanned (probes : Option Probes) (part : (String × Int) × (String × Int))
    (scan : PartitionScan) : Prop where
  selected : selection.selectsPartition part.1.1 part.1.2 = true
  target : scan.targetTopic = part.2.1
  high : scan.highWatermark = part.2.2
  gaps : scan.gaps = entryRanges facts part.1.1 part.1.2
  archived : ∃ records,
    ReadsAll sha256 zstd store ((entrySegments facts part.1.1 part.1.2).mergeSort segmentLe) records ∧
      scan.excluded = (unchosenOffsets window records).mergeSort fun a b => decide (a ≤ b)
  probed : ∃ positions, probesFor probes part.1 = some positions ∧
    ∀ log, Reads reader part.2.1 part.1.2 part.2.2 0 log →
      scan.found = (probeLog (Prober.new positions.toList) log).finish

/-- A step of the lane adds one row, and a scan where it made one. -/
structure AddsRow (st : RunState) (key : String × Int) (row : Row) (scan : Option PartitionScan)
    (st' : RunState) : Prop where
  verdicts : st'.verdicts = st.verdicts ++ [row.1]
  partitions : st'.partitions = st.partitions ++ [row.2]
  notCompared : st'.notCompared = st.notCompared + if row.2.compared then 0 else 1
  scans : st'.scans = (scan.map fun scan => st.scans.insert key scan).getD st.scans

theorem replayLoop_prober (tgt : String) (pid hi : Int) (expected : ExtTreeMap Int Digest) :
    ∀ (fuel : Nat) (start : Int) (st st' : ReplayState),
      replayLoop sha256 reader tgt pid hi expected fuel start st = .ok st' →
        st'.prober.isSome = st.prober.isSome := by
  intro fuel
  induction fuel with
  | zero =>
      intro start st st' ok
      rw [replayLoop] at ok
      split at ok
      · cases ok
      · cases ok
        rfl
  | succ fuel ih =>
      intro start st st' ok
      rw [replayLoop] at ok
      split at ok
      · split at ok
        · cases ok
        · split at ok
          · cases ok
          · rw [ih _ _ st' ok, prober_fold, Option.isSome_map]
      · cases ok
        rfl

theorem replaySide_prober (tgt : String) (pid hi : Int) (expected : ExtTreeMap Int Digest)
    (findings findings' : Findings) (prober prober' : Option Prober) (r : ReplayComparison)
    (ok : replaySide sha256 reader tgt pid hi expected findings prober = .ok (r, findings', prober')) :
    prober'.isSome = prober.isSome := by
  obtain ⟨st, looped, made⟩ := bind_eq_ok.mp ok
  cases made
  exact replayLoop_prober sha256 reader tgt pid hi expected _ _ _ st looped

theorem compareSide_spec (tgt : String) (pid hi : Int) (side : ArchiveSide)
    (findings findings' : Findings) (probe : Option PartitionProbe) (gaps : List (Int × Int))
    (replay : ReplayComparison) (records : Evidence) (compared : Bool) (scan : Option PartitionScan)
    (ok : compareSide sha256 reader tgt pid hi side findings probe gaps =
      .ok (replay, records, compared, findings', scan)) :
    (records.isVerified = true → side.unknown = none ∧ compared = true ∧
      (probe.isSome = true → scan.isSome = true) ∧
      ∀ log, Reads reader tgt pid hi 0 log → ExactOutput sha256 side.expected log) ∧
    ∀ s, scan = some s → side.unknown = none ∧ ∃ probe', probe = some probe' ∧
      s.targetTopic = tgt ∧ s.highWatermark = hi ∧ s.gaps = gaps ∧
      (s.excluded = probe'.excluded.mergeSort fun a b => decide (a ≤ b)) ∧
      ∀ log, Reads reader tgt pid hi 0 log → s.found = (probeLog probe'.prober log).finish := by
  unfold compareSide at ok
  split at ok
  · cases ok
    exact ⟨fun verified => absurd verified Bool.false_ne_true, fun s none => (nomatch none)⟩
  · rename_i known
    obtain ⟨⟨replay', findings'', prober⟩, replayed, made⟩ := bind_eq_ok.mp ok
    have kept := replaySide_prober sha256 reader tgt pid hi side.expected _ _ _ _ _ replayed
    have reading := fun log => replaySide_reads sha256 side.expected reader tgt pid hi log findings
      (probe.map fun p => p.prober)
    cases made
    refine ⟨fun verified => ⟨known, rfl, fun probed => ?_, fun log reads => ?_⟩, fun s scanned => ?_⟩
    · cases probe with
      | none => cases probed
      | some probe =>
          cases prober with
          | none => cases kept
          | some prober => rfl
    · obtain ⟨r, f, answered, _, _, _, _, faultless⟩ := reading log reads
      cases answered.symm.trans replayed
      exact faultless.mp (recordsEvidence_verified replay verified)
    · cases probe with
      | none => cases scanned
      | some probe =>
          cases prober with
          | none => cases kept
          | some prober =>
              cases scanned
              refine ⟨known, probe, rfl, rfl, rfl, rfl, rfl, fun log reads => ?_⟩
              obtain ⟨r, f, answered, _⟩ := reading log reads
              cases answered.symm.trans replayed
              rfl

/-- The archive side of a partition, seen through the entry `run` reads. -/
structure EntryKnown (src : String) (pid : Int) (side : ArchiveSide) (excluded : Option (List Int))
    (records : List RecordDigest) : Prop where
  reads : ReadsAll sha256 zstd store ((entrySegments facts src pid).mergeSort segmentLe) records
  segments : side.segments = (entrySegments facts src pid).length
  ordered : ∃ ordered : List RecordDigest, ordered.Perm (chosen window records) ∧
    ordered.Pairwise (fun a b => a.offset < b.offset) ∧
    side.expected.toList = ordered.map fun r => (r.offset, r.digest)
  excluded : excluded = excluded.map fun _ => unchosenOffsets window records

theorem archiveSide_entry (src : String) (pid : Int) (findings findings' : Findings)
    (side : ArchiveSide) (excluded excluded' : Option (List Int))
    (start : ∀ x, excluded = some x → x = [])
    (read : archiveSide sha256 zstd store (manifestEntry facts src pid) window findings excluded =
      .ok (side, findings', excluded'))
    (known : side.unknown = none) :
    excluded'.isSome = excluded.isSome ∧
      ∃ records, EntryKnown sha256 zstd store facts window src pid side excluded' records := by
  cases entry : manifestEntry facts src pid with
  | none =>
      rw [entry] at read
      cases read
      refine ⟨rfl, [], ?_, ?_, ⟨[], .refl _, .nil, rfl⟩, ?_⟩
      · simp only [entrySegments, entry, Option.map_none, Option.getD_none, List.mergeSort_nil]
        exact .nil
      · simp only [entrySegments, entry, Option.map_none, Option.getD_none]
        rfl
      · cases excluded with
        | none => rfl
        | some x =>
            rw [start x rfl]
            rfl
  | some p =>
      rw [entry] at read
      obtain ⟨records, archived⟩ := archiveSide_known sha256 zstd store window p findings findings'
        excluded excluded' side read known
      refine ⟨?_, records, ?_, ?_, ?_, ?_⟩
      · rw [archived.excluded, Option.isSome_map]
      · simp only [entrySegments, entry, Option.map_some, Option.getD_some]
        exact archived.reads
      · simp only [entrySegments, entry, Option.map_some, Option.getD_some]
        exact archiveSide_segments sha256 zstd store window p _ _ _ _ side read known
      · exact known_ordered sha256 zstd store window p _ _ records side archived
      · rw [archived.excluded]
        cases excluded with
        | none => rfl
        | some x =>
            rw [start x rfl]
            rfl

theorem runPartition_row (maxRecords : Option Nat) (probes : Option Probes) (st st' : RunState)
    (part : (String × Int) × (String × Int))
    (ok : runPartition sha256 zstd reader store facts selection window maxRecords probes st part =
      .ok st') :
    ∃ row scan, RowOf sha256 zstd reader store facts selection window part row ∧
      (∀ s, scan = some s →
        Scanned sha256 zstd reader store facts selection window probes part s) ∧
      (row.passes → selection.selectsPartition part.1.1 part.1.2 = true →
        (probesFor probes part.1).isSome = true → scan.isSome = true) ∧
      AddsRow st part.1 row scan st' := by
  obtain ⟨⟨src, pid⟩, tgt, hi⟩ := part
  simp only [runPartition] at ok
  split at ok
  · cases ok
    refine ⟨(_, _), none, ⟨rfl, rfl, rfl, ?_, ?_, ?_⟩, fun s none => (nomatch none), ?_,
      ⟨rfl, rfl, rfl, rfl⟩⟩
    · exact fun passes => absurd passes.1 Bool.false_ne_true
    · exact fun passes => absurd passes.1 Bool.false_ne_true
    · exact fun passes => absurd passes.1 Bool.false_ne_true
    · exact fun passes => absurd passes.1 Bool.false_ne_true
  · obtain ⟨⟨side, findings, excluded⟩, read, ok⟩ := bind_eq_ok.mp ok
    obtain ⟨⟨replay, records, compared, findings', scan⟩, done, ok⟩ := bind_eq_ok.mp ok
    cases ok
    obtain ⟨settled, made⟩ := compareSide_spec sha256 reader tgt pid hi side _ _ _ _ replay records
      compared scan done
    cases pick : selection.selectsPartition src pid with
    | false =>
        have gone : (manifestEntry facts src pid).filter (fun _ => false) = none := by
          cases manifestEntry facts src pid <;> rfl
        have unprobed : (probesFor probes (src, pid)).filter (fun _ => false) = none := by
          cases probesFor probes (src, pid) <;> rfl
        simp only [pick, gone] at read
        refine ⟨(_, _), scan, ⟨rfl, rfl, rfl, ?_, ?_, ?_⟩, ?_, ?_, ⟨rfl, rfl, ?_, ?_⟩⟩
        · exact fun passes => (settled passes.2).2.1
        · intro passes _ log reads
          have restored := (settled passes.2).2.2.2 log reads
          cases read
          exact exactOutput_empty sha256 log restored
        · intro _ into
          cases pick.symm.trans into
        · intro s scanned
          obtain ⟨_, probe, probed, _⟩ := made s scanned
          simp only [pick, unprobed] at probed
          cases probed
        · intro _ into
          cases into
        · cases compared <;> rfl
        · cases scan <;> rfl
    | true =>
        have kept : (manifestEntry facts src pid).filter (fun _ => true) =
            manifestEntry facts src pid := by
          cases manifestEntry facts src pid <;> rfl
        have probed : (probesFor probes (src, pid)).filter (fun _ => true) =
            probesFor probes (src, pid) := by
          cases probesFor probes (src, pid) <;> rfl
        simp only [pick, kept, probed] at read made settled
        have entry := archiveSide_entry sha256 zstd store facts window src pid _ findings side _
          excluded (by
            intro x start
            obtain ⟨probe, probing, rfl⟩ := Option.map_eq_some_iff.mp start
            obtain ⟨positions, _, rfl⟩ := Option.map_eq_some_iff.mp probing
            rfl) read
        refine ⟨(_, _), scan, ⟨rfl, rfl, rfl, ?_, ?_, ?_⟩, ?_, ?_, ⟨rfl, rfl, ?_, ?_⟩⟩
        · exact fun passes => (settled passes.2).2.1
        · intro _ out
          cases pick.symm.trans out
        · intro passes _
          obtain ⟨known, _, _, restored⟩ := settled passes.2
          obtain ⟨_, records', back⟩ := entry known
          obtain ⟨ordered, perm, ascending, expected⟩ := back.ordered
          refine ⟨(segmentsEvidence_verified side passes.1).trans back.segments, fun log reads => ?_⟩
          refine ⟨records', ordered, back.reads, perm, ascending, ?_⟩
          have output := restored log reads
          rw [ExactOutput, expected, List.map_map] at output
          exact output
        · intro s scanned
          obtain ⟨known, probe, probing, target, high, gaps, sorted, found⟩ := made s scanned
          obtain ⟨counted, records', back⟩ := entry known
          obtain ⟨fresh, hfresh, eq⟩ := Option.map_eq_some_iff.mp probing
          obtain ⟨positions, asked, rfl⟩ := Option.map_eq_some_iff.mp hfresh
          subst eq
          refine ⟨pick, target, high, gaps, ⟨records', back.reads, ?_⟩, positions, asked, found⟩
          rw [sorted]
          have left := back.excluded
          rw [hfresh] at counted
          cases excluded with
          | none => cases counted
          | some x => exact congrArg (List.mergeSort · _) (Option.some.inj left)
        · intro passes _ asked
          obtain ⟨_, _, scanned, _⟩ := settled passes.2
          apply scanned
          rw [Option.isSome_map, Option.isSome_map]
          exact asked
        · cases compared <;> rfl
        · cases scan <;> rfl

end Lane

end Logweir.Complete
