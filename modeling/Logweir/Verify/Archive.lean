import Logweir.Verify.Replay
import Logweir.Kbak.Agreement

/-!
# The archive side

What `archive_side` established when it knows the expected output: every segment
of the entry read back and agrees with the manifest, the expected output is the
selected records, each source offset once, and the excluded offsets are the rest.
-/

set_option autoImplicit false

namespace Logweir.Complete

open Std (ExtTreeMap ExtTreeSet)
open Logweir.Engine Logweir.Fingerprint Logweir.Kbak Logweir.ByteStream Logweir.TreeMaps
open Logweir.Results Logweir.Text

section Archive
variable {ζ : Type} (sha256 : List UInt8 → Digest) (zstd : ZstdStream ζ)

/-- The records of a segment whose stored bytes match the manifest's digest,
decode, and agree with its count and offsets. -/
structure ReadsBack (store : Store) (seg : SegmentFacts) (records : List RecordDigest) : Prop where
  stored : ∃ bytes, store.getCapped seg.key segmentStoredCap = .ok bytes ∧
    hexEncode (sha256 bytes).toList = wantedDigest seg.sha256 ∧
    digestSegment sha256 zstd (fun _ => 0) bytes segmentLimits lineageHeader collect [] =
      (.ok records.length, records)
  counted : (records.length : Int) = seg.recordCount
  inRange : ∀ r ∈ records, seg.startOffset ≤ r.offset ∧ r.offset ≤ seg.endOffset

inductive ReadsAll (store : Store) : List SegmentFacts → List RecordDigest → Prop
  | nil : ReadsAll store [] []
  | cons {seg : SegmentFacts} {segs : List SegmentFacts} {here rest : List RecordDigest}
      (first : ReadsBack sha256 zstd store seg here) (more : ReadsAll store segs rest) :
      ReadsAll store (seg :: segs) (here ++ rest)

theorem scanLoop_keepListed {σ : Type} (r : Reader (BufReader (Capped σ)))
    (readOne : ReadProg RecordDigest) (compression : UInt8) (maxDecompressed listed : Nat) :
    ∀ (remaining visited n : Nat) (st : BufReader (Capped σ)) (taken records : List RecordDigest),
      scanLoop r readOne (keepListed listed) compression maxDecompressed remaining visited st
        (taken, false) = (.ok n, (records, false)) →
      ∃ more, records = taken ++ more ∧
        scanLoop r readOne collect compression maxDecompressed remaining visited st taken =
          (.ok (visited + more.length), records) := by
  intro remaining
  induction remaining with
  | zero =>
      intro visited n st taken records run
      simp only [scanLoop, Prod.mk.injEq, Except.ok.injEq] at run
      obtain ⟨rfl, rfl, _⟩ := run
      exact ⟨[], (List.append_nil _).symm, rfl⟩
  | succ remaining ih =>
      intro visited n st taken records run
      simp only [scanLoop] at run ⊢
      split at run
      · cases run
      · rename_i one st' step
        simp only [keepListed] at run
        split at run
        · rename_i stop
          split at stop
          · cases stop
            cases run
          · cases stop
        · rename_i v go
          split at go
          · cases go
          · cases go
            obtain ⟨more, rfl, read⟩ := ih (visited + 1) n st' _ records run
            refine ⟨one :: more, by simp, ?_⟩
            simp only [collect, read, List.length_cons]
            rw [Nat.add_assoc, Nat.add_comm 1]

theorem digestSegment_keepListed (bytes : List UInt8) (limits : ScanLimits) (keep : String)
    (listed n : Nat) (records : List RecordDigest)
    (read : digestSegment sha256 zstd (fun _ => 0) bytes limits keep (keepListed listed)
      ([], false) = (.ok n, (records, false))) :
    digestSegment sha256 zstd (fun _ => 0) bytes limits keep collect [] =
      (.ok records.length, records) := by
  unfold digestSegment scanRecords at read ⊢
  split at read
  · cases read
  · simp only
    split at read
    · cases read
    · obtain ⟨more, rfl, all⟩ := scanLoop_keepListed _ _ _ _ listed _ _ n _ _ records read
      rw [Nat.zero_add] at all
      exact all

variable (store : Store) (window : CompleteWindow) (explained : List (Int × Int))

theorem archiveSegment_cases (st st' : ArchiveState) (seg : SegmentFacts)
    (ok : archiveSegment sha256 zstd store window explained st seg = .ok st') :
    (∃ records, ReadsBack sha256 zstd store seg records ∧
      st' = records.foldl (archiveRecord window explained)
        { st with side := { st.side with verified := st.side.verified + 1 } }) ∨
    st'.side.unknown ≠ none := by
  unfold archiveSegment at ok
  simp only at ok
  split at ok
  · cases ok
    exact .inr (by simp [ArchiveSide.setUnknown])
  · split at ok
    · cases ok
      exact .inr (by simp [ArchiveSide.setUnknown])
    · cases ok
      exact .inr (by simp [ArchiveSide.setUnknown])
    · cases ok
    · rename_i bytes held
      split at ok
      · cases ok
        exact .inr (by simp [ArchiveSide.setUnknown])
      · rename_i digest
        split at ok
        · cases ok
          exact .inr (by simp [ArchiveSide.setUnknown])
        · cases ok
          exact .inr (by simp [ArchiveSide.setUnknown])
        · cases ok
          exact .inr (by simp [ArchiveSide.setUnknown])
        · rename_i n records more read
          split at ok
          · cases ok
            exact .inr (by simp [ArchiveSide.setUnknown])
          · rename_i agrees
            cases ok
            have exactly : more = false := by cases more <;> simp_all
            subst exactly
            refine .inl ⟨records, ⟨⟨bytes, held, Decidable.not_not.mp digest, ?_⟩, ?_, ?_⟩, rfl⟩
            · exact digestSegment_keepListed sha256 zstd bytes segmentLimits lineageHeader _ n records
                read
            · exact Decidable.not_not.mp fun h => agrees (.inr (.inl h))
            · intro r hr
              have all : (records.all fun r =>
                  decide (seg.startOffset ≤ r.offset) && decide (r.offset ≤ seg.endOffset)) = true := by
                cases h : records.all fun r =>
                  decide (seg.startOffset ≤ r.offset) && decide (r.offset ≤ seg.endOffset) with
                | true => rfl
                | false => exact absurd (.inr (.inr h)) agrees
              have := List.all_eq_true.mp all r hr
              simpa using this

def chosen (records : List RecordDigest) : List RecordDigest :=
  records.filter fun r => selected window r.timestamp

def unchosenOffsets (records : List RecordDigest) : List Int :=
  (records.filter fun r => !selected window r.timestamp).map fun r => r.offset

def namesItself (r : RecordDigest) : Bool := (r.kept.map fun v => signed 64 (leNat v)) == some r.offset

/-- What the archive loop established of the records folded so far, unless the
expected output is unknown. -/
structure ArchiveLedger (excluded : Option (List Int)) (records : List RecordDigest)
    (st : ArchiveState) : Prop where
  decoded : st.side.decoded = records.length
  excluded : st.excluded = excluded.map fun x => x ++ unchosenOffsets window records
  lineage : st.lineageMissing = (chosen window records).countP fun r => !namesItself r
  distinct : st.side.unknown = none → ((chosen window records).map fun r => r.offset).Nodup
  size : st.side.unknown = none → st.side.expected.size = (chosen window records).length
  expected : st.side.unknown = none → ∀ o d, st.side.expected[o]? = some d ↔
    ∃ r ∈ chosen window records, r.offset = o ∧ r.digest = d

theorem archiveRecord_unknown (st : ArchiveState) (r : RecordDigest)
    (known : (archiveRecord window explained st r).side.unknown = none) :
    st.side.unknown = none := by
  unfold archiveRecord at known
  simp only at known
  split at known
  · exact known
  · split at known
    · simp [ArchiveSide.setUnknown] at known
    · exact known

theorem archiveRecord_unselected (st : ArchiveState) (r : RecordDigest)
    (out : selected window r.timestamp = false) :
    (archiveRecord window explained st r).side.unknown = st.side.unknown ∧
      (archiveRecord window explained st r).side.decoded = st.side.decoded + 1 ∧
      (archiveRecord window explained st r).side.expected = st.side.expected ∧
      (archiveRecord window explained st r).lineageMissing = st.lineageMissing ∧
      (archiveRecord window explained st r).excluded =
        st.excluded.map fun x => x ++ [r.offset] := by
  unfold archiveRecord
  simp [out]

theorem archiveRecord_selected (st : ArchiveState) (r : RecordDigest)
    (into : selected window r.timestamp = true)
    (known : (archiveRecord window explained st r).side.unknown = none) :
    st.side.expected.contains r.offset = false ∧
      (archiveRecord window explained st r).side.decoded = st.side.decoded + 1 ∧
      (archiveRecord window explained st r).side.expected =
        st.side.expected.insert r.offset r.digest := by
  unfold archiveRecord at known ⊢
  simp only [into, Bool.true_eq_false, if_false] at known ⊢
  split at known
  · simp [ArchiveSide.setUnknown] at known
  · rename_i fresh
    rw [if_neg fresh]
    exact ⟨Bool.eq_false_iff.mpr fresh, rfl, rfl⟩

theorem archiveRecord_counts (st : ArchiveState) (r : RecordDigest)
    (into : selected window r.timestamp = true) :
    (archiveRecord window explained st r).side.decoded = st.side.decoded + 1 ∧
      (archiveRecord window explained st r).lineageMissing =
        st.lineageMissing + (if namesItself r then 0 else 1) ∧
      (archiveRecord window explained st r).excluded = st.excluded := by
  have named : ((r.kept.map fun v => signed 64 (leNat v)) ≠ some r.offset) ↔ ¬ namesItself r = true := by
    simp [namesItself]
  unfold archiveRecord
  simp only [into, Bool.true_eq_false, if_false, named]
  cases namesItself r <;> split <;> simp [ArchiveSide.setUnknown]

theorem chosen_append_in (records : List RecordDigest) (r : RecordDigest)
    (into : selected window r.timestamp = true) :
    chosen window (records ++ [r]) = chosen window records ++ [r] ∧
      unchosenOffsets window (records ++ [r]) = unchosenOffsets window records := by
  simp [chosen, unchosenOffsets, into]

theorem chosen_append_out (records : List RecordDigest) (r : RecordDigest)
    (out : selected window r.timestamp = false) :
    chosen window (records ++ [r]) = chosen window records ∧
      unchosenOffsets window (records ++ [r]) = unchosenOffsets window records ++ [r.offset] := by
  simp [chosen, unchosenOffsets, out]

theorem archiveLedger_step (excluded : Option (List Int)) (records : List RecordDigest)
    (st : ArchiveState) (r : RecordDigest) (ledger : ArchiveLedger window excluded records st) :
    ArchiveLedger window excluded (records ++ [r]) (archiveRecord window explained st r) := by
  cases pick : selected window r.timestamp with
  | false =>
      obtain ⟨unknown, decoded, expected, lineage, left⟩ :=
        archiveRecord_unselected window explained st r pick
      obtain ⟨same, more⟩ := chosen_append_out window records r pick
      refine ⟨?_, ?_, ?_, ?_, ?_, ?_⟩
      · rw [decoded, ledger.decoded, List.length_append, List.length_singleton]
      · rw [left, ledger.excluded, more, Option.map_map]
        simp [Function.comp_def]
      · rw [lineage, same]
        exact ledger.lineage
      · rw [unknown, same]
        exact ledger.distinct
      · rw [unknown, same, expected]
        exact ledger.size
      · rw [unknown, same, expected]
        exact ledger.expected
  | true =>
      obtain ⟨decoded, lineage, left⟩ := archiveRecord_counts window explained st r pick
      obtain ⟨more, same⟩ := chosen_append_in window records r pick
      refine ⟨?_, ?_, ?_, fun known => ?_, fun known => ?_, fun known o d => ?_⟩
      · rw [decoded, ledger.decoded, List.length_append, List.length_singleton]
      · rw [left, same]
        exact ledger.excluded
      · rw [lineage, more, ledger.lineage, List.countP_append, List.countP_singleton]
        cases namesItself r <;> rfl
      · obtain ⟨fresh, _, _⟩ := archiveRecord_selected window explained st r pick known
        have before := archiveRecord_unknown window explained st r known
        rw [more, List.map_append, List.nodup_append]
        refine ⟨ledger.distinct before, by simp, ?_⟩
        rintro a ha b hb rfl
        rw [List.map_singleton, List.mem_singleton] at hb
        obtain ⟨q, hq, rfl⟩ := List.mem_map.mp ha
        have held := (ledger.expected before q.offset q.digest).mpr ⟨q, hq, rfl, rfl⟩
        rw [ExtTreeMap.contains_eq_isSome_getElem?, ← hb, held] at fresh
        cases fresh
      · obtain ⟨fresh, _, expected⟩ := archiveRecord_selected window explained st r pick known
        have before := archiveRecord_unknown window explained st r known
        rw [expected, ExtTreeMap.size_insert, fresh, more, List.length_append,
          List.length_singleton, ledger.size before]
        rfl
      · obtain ⟨fresh, _, expected⟩ := archiveRecord_selected window explained st r pick known
        have before := archiveRecord_unknown window explained st r known
        rw [expected, ExtTreeMap.getElem?_insert, more]
        by_cases here : r.offset = o
        · subst here
          rw [if_pos Std.ReflCmp.compare_self]
          constructor
          · intro eq
            exact ⟨r, List.mem_append_right _ (List.mem_singleton.mpr rfl), rfl, Option.some.inj eq⟩
          · rintro ⟨q, hq, sameOffset, rfl⟩
            rcases List.mem_append.mp hq with old | new
            · have held := (ledger.expected before r.offset q.digest).mpr ⟨q, old, sameOffset, rfl⟩
              rw [ExtTreeMap.contains_eq_isSome_getElem?, held] at fresh
              cases fresh
            · rw [List.mem_singleton.mp new]
        · have apart : compare r.offset o ≠ .eq := fun h => here (Std.compare_eq_iff_eq.mp h)
          rw [if_neg apart, ledger.expected before o d]
          constructor
          · rintro ⟨q, hq, rest⟩
            exact ⟨q, List.mem_append_left _ hq, rest⟩
          · rintro ⟨q, hq, at', eq⟩
            rcases List.mem_append.mp hq with old | new
            · exact ⟨q, old, at', eq⟩
            · rw [List.mem_singleton.mp new] at at'
              exact absurd at' here

theorem archiveLedger_fold (excluded : Option (List Int)) : ∀ (more records : List RecordDigest)
    (st : ArchiveState), ArchiveLedger window excluded records st →
      ArchiveLedger window excluded (records ++ more)
        (more.foldl (archiveRecord window explained) st) := by
  intro more
  induction more with
  | nil =>
      intro records st ledger
      rw [List.append_nil]
      exact ledger
  | cons r more ih =>
      intro records st ledger
      rw [List.foldl_cons, List.append_cons]
      exact ih _ _ (archiveLedger_step window explained excluded records st r ledger)

theorem archiveFold_unknown : ∀ (more : List RecordDigest) (st : ArchiveState),
    (more.foldl (archiveRecord window explained) st).side.unknown = none →
      st.side.unknown = none := by
  intro more
  induction more with
  | nil => exact fun st known => known
  | cons r more ih =>
      intro st known
      exact archiveRecord_unknown window explained st r (ih _ known)

theorem archiveSegment_unknown (st st' : ArchiveState) (seg : SegmentFacts)
    (ok : archiveSegment sha256 zstd store window explained st seg = .ok st')
    (known : st'.side.unknown = none) : st.side.unknown = none := by
  rcases archiveSegment_cases sha256 zstd store window explained st st' seg ok with
    ⟨records, _, rfl⟩ | unknown
  · exact archiveFold_unknown window explained records
      { st with side := { st.side with verified := st.side.verified + 1 } } known
  · exact absurd known unknown

theorem foldlM_cons_ok {α β ε : Type} (f : β → α → Except ε β) (a : α) (l : List α) (b c : β)
    (ok : (a :: l).foldlM f b = .ok c) : ∃ b', f b a = .ok b' ∧ l.foldlM f b' = .ok c := by
  rw [List.foldlM_cons] at ok
  exact bind_eq_ok.mp ok

theorem archiveSegments_unknown : ∀ (segs : List SegmentFacts) (st st' : ArchiveState),
    segs.foldlM (archiveSegment sha256 zstd store window explained) st = .ok st' →
      st'.side.unknown = none → st.side.unknown = none := by
  intro segs
  induction segs with
  | nil =>
      intro st st' ok known
      cases ok
      exact known
  | cons seg segs ih =>
      intro st st' ok known
      obtain ⟨st₁, first, rest⟩ := foldlM_cons_ok _ seg segs st st' ok
      exact archiveSegment_unknown sha256 zstd store window explained st st₁ seg first
        (ih st₁ st' rest known)

theorem archiveSegments_ledger (excluded : Option (List Int)) : ∀ (segs : List SegmentFacts)
    (st st' : ArchiveState) (records : List RecordDigest),
    segs.foldlM (archiveSegment sha256 zstd store window explained) st = .ok st' →
      st'.side.unknown = none → ArchiveLedger window excluded records st →
        ∃ more, ReadsAll sha256 zstd store segs more ∧
          ArchiveLedger window excluded (records ++ more) st' := by
  intro segs
  induction segs with
  | nil =>
      intro st st' records ok _ ledger
      cases ok
      exact ⟨[], .nil, by rw [List.append_nil]; exact ledger⟩
  | cons seg segs ih =>
      intro st st' records ok known ledger
      obtain ⟨st₁, first, rest⟩ := foldlM_cons_ok _ seg segs st st' ok
      have known₁ := archiveSegments_unknown sha256 zstd store window explained segs st₁ st' rest known
      rcases archiveSegment_cases sha256 zstd store window explained st st₁ seg first with
        ⟨here, back, rfl⟩ | unknown
      · have verified : ArchiveLedger window excluded records
            { st with side := { st.side with verified := st.side.verified + 1 } } :=
          ⟨ledger.decoded, ledger.excluded, ledger.lineage, ledger.distinct, ledger.size,
            ledger.expected⟩
        obtain ⟨more, all, ledger'⟩ := ih _ st' (records ++ here) rest known
          (archiveLedger_fold window explained excluded here records _ verified)
        exact ⟨here ++ more, .cons back all, by rw [← List.append_assoc]; exact ledger'⟩
      · exact absurd known₁ unknown

/-- What the archive side established when it knows the expected output. -/
structure ArchiveKnown (p : PartitionFacts) (excluded : Option (List Int))
    (records : List RecordDigest) (side : ArchiveSide) (excluded' : Option (List Int)) : Prop where
  reads : ReadsAll sha256 zstd store (p.segments.mergeSort segmentLe) records
  distinct : ((chosen window records).map fun r => r.offset).Nodup
  size : side.expected.size = (chosen window records).length
  expected : ∀ o d, side.expected[o]? = some d ↔
    ∃ r ∈ chosen window records, r.offset = o ∧ r.digest = d
  named : ∀ r ∈ chosen window records, namesItself r = true
  excluded : excluded' = excluded.map fun x => x ++ unchosenOffsets window records

theorem archiveSide_known (p : PartitionFacts) (findings findings' : Findings)
    (excluded excluded' : Option (List Int)) (side : ArchiveSide)
    (ok : archiveSide sha256 zstd store (some p) window findings excluded =
      .ok (side, findings', excluded'))
    (known : side.unknown = none) :
    ∃ records, ArchiveKnown sha256 zstd store window p excluded records side excluded' := by
  simp only [archiveSide] at ok
  obtain ⟨st, folded, ok⟩ := bind_eq_ok.mp ok
  split at ok
  · cases ok
    cases known
  · rename_i unnamed
    cases ok
    have start : ArchiveLedger window excluded []
        { side := { segments := (p.segments.mergeSort segmentLe).length }, findings, excluded } := by
      refine ⟨rfl, ?_, rfl, fun _ => List.nodup_nil, fun _ => rfl, fun _ o d => ?_⟩
      · cases excluded <;> simp [unchosenOffsets]
      · simp [chosen]
    obtain ⟨records, reads, ledger⟩ := archiveSegments_ledger sha256 zstd store window _ excluded
      _ _ st [] folded known start
    rw [List.nil_append] at ledger
    refine ⟨records, reads, ledger.distinct known, ledger.size known, ledger.expected known, ?_,
      ledger.excluded⟩
    intro r hr
    have none : (chosen window records).countP (fun r => !namesItself r) = 0 := by
      rw [← ledger.lineage]
      exact Nat.eq_zero_of_not_pos fun positive => unnamed ⟨positive, known⟩
    simpa using List.countP_eq_zero.mp none r hr

end Archive

end Logweir.Complete
