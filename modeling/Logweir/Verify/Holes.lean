import Logweir.Library.Ranges
import Logweir.Verify.Archive

/-!
# Offset holes

`covered_by` counts the offsets that some range holds, each once, and `archive_side`'s
`offset_holes` those between the first and the last decoded offset that are neither decoded
nor in a gap or pruned range.
-/

set_option autoImplicit false

namespace Logweir.Complete

open Logweir.Engine Logweir.Fingerprint Logweir.Kbak Logweir.ByteStream Logweir.Ranges
open Logweir.Results Logweir.Text

def mergeRange (counted : Nat × Option (Int × Int)) (r : Int × Int) : Nat × Option (Int × Int) :=
  match counted.2 with
  | some cur =>
      if r.1 ≤ i64SaturatingSucc cur.2 then (counted.1, some (cur.1, max cur.2 r.2))
      else (counted.1 + rangeSize cur, some r)
  | none => (counted.1, some r)

def clip (lo hi : Int) (r : Int × Int) : Int × Int := (max r.1 lo, min r.2 hi)

def clipped (ranges : List (Int × Int)) (lo hi : Int) : List (Int × Int) :=
  ((ranges.map (clip lo hi)).filter fun r => decide (r.1 ≤ r.2)).mergeSort rangeLe

theorem coveredBy_eq (ranges : List (Int × Int)) (lo hi : Int) :
    coveredBy ranges lo hi =
      ((clipped ranges lo hi).foldl mergeRange (0, none)).1 +
        ((((clipped ranges lo hi).foldl mergeRange (0, none)).2).map rangeSize).getD 0 := by
  have steps : ∀ (f : Nat × Option (Int × Int) → Int × Int → Nat × Option (Int × Int)),
      (∀ counted r, f counted r = mergeRange counted r) →
      ∀ (l : List (Int × Int)) counted, l.foldl f counted = l.foldl mergeRange counted := by
    intro f same
    rw [show f = mergeRange from funext fun counted => funext (same counted)]
    exact fun _ _ => rfl
  refine congrArg (fun x : Nat × Option (Int × Int) => x.1 + (x.2.map rangeSize).getD 0)
    (steps _ (fun counted r => ?_) (clipped ranges lo hi) (0, none))
  obtain ⟨total, _ | ⟨ca, cb⟩⟩ := counted <;> rfl

theorem mem_clipped {ranges : List (Int × Int)} {lo hi : Int} {c : Int × Int} :
    c ∈ clipped ranges lo hi ↔ (∃ r ∈ ranges, clip lo hi r = c) ∧ c.1 ≤ c.2 := by
  simp [clipped, List.mem_mergeSort]

theorem sorted_clipped (ranges : List (Int × Int)) (lo hi : Int) :
    (clipped ranges lo hi).Pairwise fun a b => a.1 ≤ b.1 := by
  have sorted := @List.pairwise_mergeSort _ rangeLe
    (fun a b c ab bc => by simp only [rangeLe, decide_eq_true_eq] at *; omega)
    (fun a b => by simp only [rangeLe, Bool.or_eq_true, decide_eq_true_eq]; omega)
    ((ranges.map (clip lo hi)).filter fun r => decide (r.1 ≤ r.2))
  refine sorted.imp fun le => ?_
  simp only [rangeLe, decide_eq_true_eq] at le
  omega

/-- The fold over ranges in the order of their starts: with the open range counted, every
point so far is, once. -/
structure Merging (seen : List (Int × Int)) (counted : Nat × Option (Int × Int)) : Prop where
  start : counted.2 = none → seen = [] ∧ counted.1 = 0
  last : ∀ cur ∈ counted.2, Last (points seen) cur.1 cur.2 ∧ (∃ r ∈ seen, r.1 = cur.1) ∧
    counted.1 + rangeSize cur = (points seen).card

theorem Merging.step {seen : List (Int × Int)} {counted : Nat × Option (Int × Int)} {r : Int × Int}
    (merging : Merging seen counted) (ordered : r.1 ≤ r.2) (bounded : r.1 < 2 ^ 63)
    (later : ∀ s ∈ seen, s.1 ≤ r.1) : Merging (seen ++ [r]) (mergeRange counted r) := by
  obtain ⟨total, open'⟩ := counted
  cases open' with
  | none =>
      obtain ⟨rfl, total_eq⟩ := merging.start rfl
      refine ⟨fun none => by simp [mergeRange] at none, fun cur member => ?_⟩
      simp only [mergeRange, Option.mem_def, Option.some.injEq] at member
      subst member
      have alone : points ([] ++ [r]) = Finset.Icc r.1 r.2 := by rw [points_snoc]; simp
      refine ⟨alone ▸ Last.first r.1 r.2 ordered, ⟨r, by simp, rfl⟩, ?_⟩
      simp only at total_eq
      rw [alone, Int.card_Icc]
      simp only [mergeRange, rangeSize, total_eq]
      omega
  | some cur =>
      obtain ⟨last, ⟨s, old, begins⟩, count⟩ := merging.last cur rfl
      have after : cur.1 ≤ r.1 := begins ▸ later s old
      have ordered' := last.ordered
      simp only [rangeSize] at count
      by_cases meets : r.1 ≤ i64SaturatingSucc cur.2
      · have meets' : r.1 ≤ cur.2 + 1 := by
          simp only [i64SaturatingSucc] at meets
          omega
        obtain ⟨longer, card⟩ := last.extend (b := r.2) after meets'
        simp only [mergeRange, if_pos meets]
        refine ⟨fun none => by simp at none, fun cur' member => ?_⟩
        simp only [Option.mem_def, Option.some.injEq] at member
        subst member
        rw [points_snoc]
        refine ⟨longer, ⟨s, by simp [old], begins⟩, ?_⟩
        rw [card, ← count]
        simp only [rangeSize]
        omega
      · have behind : cur.2 + 1 < r.1 := by
          simp only [i64SaturatingSucc] at meets
          omega
        obtain ⟨fresh, card⟩ := last.append ordered behind
        simp only [mergeRange, if_neg meets]
        refine ⟨fun none => by simp at none, fun cur' member => ?_⟩
        simp only [Option.mem_def, Option.some.injEq] at member
        subst member
        rw [points_snoc]
        refine ⟨fresh, ⟨r, by simp, rfl⟩, ?_⟩
        rw [card, ← count]
        simp only [rangeSize]

theorem Merging.fold : ∀ (more seen : List (Int × Int)) (counted : Nat × Option (Int × Int)),
    Merging seen counted → (∀ r ∈ more, r.1 ≤ r.2 ∧ r.1 < 2 ^ 63) →
    ((seen ++ more).Pairwise fun a b => a.1 ≤ b.1) →
    Merging (seen ++ more) (more.foldl mergeRange counted) := by
  intro more
  induction more with
  | nil =>
      intro seen counted merging _ _
      rw [List.append_nil]
      exact merging
  | cons r more ih =>
      intro seen counted merging each sorted
      have own := each r (by simp)
      have later : ∀ s ∈ seen, s.1 ≤ r.1 := fun s member =>
        (List.pairwise_append.mp sorted).2.2 s member r (by simp)
      rw [List.append_cons] at sorted ⊢
      exact ih _ _ (merging.step own.1 own.2 later) (fun s member => each s (by simp [member])) sorted

noncomputable def coveredOffsets (ranges : List (Int × Int)) (lo hi : Int) : Finset Int :=
  (Finset.Icc lo hi).filter fun o => ∃ r ∈ ranges, r.1 ≤ o ∧ o ≤ r.2

theorem points_clipped (ranges : List (Int × Int)) (lo hi : Int) :
    points (clipped ranges lo hi) = coveredOffsets ranges lo hi := by
  ext o
  simp only [mem_points, mem_clipped, coveredOffsets, Finset.mem_filter, Finset.mem_Icc]
  constructor
  · rintro ⟨c, ⟨⟨r, member, rfl⟩, _⟩, low, high⟩
    simp only [clip] at low high
    exact ⟨by omega, r, member, by omega⟩
  · rintro ⟨bounds, r, member, low, high⟩
    refine ⟨clip lo hi r, ⟨⟨r, member, rfl⟩, ?_⟩, ?_⟩
    · simp only [clip]
      omega
    · simp only [clip]
      omega

theorem coveredBy_eq_card (ranges : List (Int × Int)) {lo hi : Int} (bounded : hi < 2 ^ 63) :
    coveredBy ranges lo hi = (coveredOffsets ranges lo hi).card := by
  have each : ∀ r ∈ clipped ranges lo hi, r.1 ≤ r.2 ∧ r.1 < 2 ^ 63 := by
    intro c member
    obtain ⟨⟨r, _, rfl⟩, ordered⟩ := mem_clipped.mp member
    refine ⟨ordered, ?_⟩
    simp only [clip] at ordered ⊢
    omega
  have merging := Merging.fold (clipped ranges lo hi) [] (0, none)
    ⟨fun _ => ⟨rfl, rfl⟩, fun cur member => by simp at member⟩ each (sorted_clipped ranges lo hi)
  rw [List.nil_append] at merging
  rw [coveredBy_eq, ← points_clipped]
  cases ended : ((clipped ranges lo hi).foldl mergeRange (0, none)).2 with
  | none =>
      obtain ⟨none, zero⟩ := merging.start ended
      rw [zero, none]
      rfl
  | some cur => exact (merging.last cur ended).2.2

section Segment
variable {ζ : Type} (sha256 : List UInt8 → Digest) (zstd : ZstdStream ζ)

theorem scanLoop_bounded {σ : Type} (r : Reader (BufReader (Capped σ)))
    (readOne : ReadProg RecordDigest) (compression : UInt8) (maxDecompressed listed : Nat) :
    ∀ (remaining visited n : Nat) (st : BufReader (Capped σ)) (taken records : List RecordDigest),
      scanLoop r readOne collect compression maxDecompressed remaining visited st taken =
        (.ok n, records) →
      records.length ≤ listed →
      taken.length ≤ records.length ∧
        scanLoop r readOne (keepListed listed) compression maxDecompressed remaining visited st
          (taken, false) = (.ok n, (records, false)) := by
  intro remaining
  induction remaining with
  | zero =>
      intro visited n st taken records run _
      simp only [scanLoop, Prod.mk.injEq] at run
      obtain ⟨ran, rfl⟩ := run
      exact ⟨Nat.le_refl _, by rw [scanLoop, ran]⟩
  | succ remaining ih =>
      intro visited n st taken records run few
      simp only [scanLoop] at run ⊢
      split at run
      · cases run
      · rename_i one st' step
        simp only [collect] at run
        obtain ⟨longer, rest⟩ := ih _ _ _ _ _ run few
        simp only [List.length_append, List.length_singleton] at longer
        have room : taken.length ≠ listed := by omega
        refine ⟨by omega, ?_⟩
        simp only [keepListed, if_neg room]
        exact rest

theorem digestSegment_bounded (bytes : List UInt8) (limits : ScanLimits) (keep : String) (n : Nat)
    (records : List RecordDigest)
    (read : digestSegment sha256 zstd (fun _ => 0) bytes limits keep collect [] = (.ok n, records)) :
    digestSegment sha256 zstd (fun _ => 0) bytes limits keep (keepListed records.length) ([], false) =
      (.ok n, (records, false)) := by
  unfold digestSegment scanRecords at read ⊢
  split at read
  · cases read
  · simp only
    split at read
    · cases read
    · exact (scanLoop_bounded _ _ _ _ _ _ _ _ _ _ _ read (Nat.le_refl _)).2

variable (store : Store) (window : CompleteWindow) (explained : List (Int × Int))

theorem archiveSegment_reads {seg : SegmentFacts} {records : List RecordDigest} (st : ArchiveState)
    (back : ReadsBack sha256 zstd store seg records) :
    archiveSegment sha256 zstd store window explained st seg =
      .ok (records.foldl (archiveRecord window explained)
        { st with side := { st.side with verified := st.side.verified + 1 } }) := by
  obtain ⟨bytes, held, digest, read⟩ := back.stored
  have named : seg.sha256.isEmpty = false := by
    rw [Bool.eq_false_iff]
    intro empty
    rw [String.isEmpty_iff] at empty
    have size := congrArg String.length digest
    rw [length_hexEncode, empty] at size
    simp [wantedDigest] at size
  have listed : seg.recordCount.toNat = records.length := by
    have counted := back.counted
    omega
  have inRange : (records.all fun r =>
      decide (seg.startOffset ≤ r.offset) && decide (r.offset ≤ seg.endOffset)) = true := by
    simpa using back.inRange
  have run := digestSegment_bounded sha256 zstd bytes segmentLimits lineageHeader _ records read
  unfold archiveSegment
  simp [named, held, digest, listed, run, back.counted, inRange]

end Segment

noncomputable def betweenEnds (offsets : List Int) : Finset Int :=
  match offsets.head?, offsets.getLast? with
  | some first, some last => Finset.Ioo first last
  | _, _ => ∅

/-- The offsets between the first and the last decoded one that are neither decoded nor in a
recorded range. -/
noncomputable def holes (explained : List (Int × Int)) (offsets : List Int) : Finset Int :=
  (betweenEnds offsets).filter fun o => o ∉ offsets ∧ ¬ ∃ r ∈ explained, r.1 ≤ o ∧ o ≤ r.2

theorem holes_snoc (explained : List (Int × Int)) {offsets : List Int} {last r : Int}
    (ends : offsets.getLast? = some last) (ascending : (offsets ++ [r]).Pairwise (· ≤ ·)) :
    (holes explained (offsets ++ [r])).card = (holes explained offsets).card +
      ((Finset.Ioo last r).filter fun o => ¬ ∃ q ∈ explained, q.1 ≤ o ∧ o ≤ q.2).card := by
  obtain ⟨front, rfl⟩ : ∃ front, offsets = front ++ [last] := List.getLast?_eq_some_iff.mp ends
  obtain ⟨first, begins⟩ : ∃ first, (front ++ [last]).head? = some first := by
    cases front <;> simp
  obtain ⟨before, _, above⟩ := List.pairwise_append.mp ascending
  have lastLe : last ≤ r := above last (by simp) r (by simp)
  have below : ∀ o ∈ front ++ [last], o ≤ last := by
    intro o member
    rcases List.mem_append.mp member with old | new
    · exact (List.pairwise_append.mp before).2.2 o old last (by simp)
    · exact (List.mem_singleton.mp new).le
  have firstLe : first ≤ last := below first (List.mem_of_mem_head? begins)
  have old : betweenEnds (front ++ [last]) = Finset.Ioo first last := by
    simp [betweenEnds, begins]
  have new : betweenEnds (front ++ [last] ++ [r]) = Finset.Ioo first r := by
    have begins' : (front ++ [last] ++ [r]).head? = some first := by
      rw [List.head?_append, begins]
      rfl
    simp only [betweenEnds, begins']
    simp
  rw [holes, holes, old, new, ← Finset.card_union_of_disjoint]
  · congr 1
    ext o
    simp only [Finset.mem_filter, Finset.mem_union, Finset.mem_Ioo, List.mem_append,
      List.mem_singleton]
    have early : o ∈ front → o ≤ last := fun member => below o (by simp [member])
    constructor
    · rintro ⟨bounds, absent, free⟩
      by_cases inside : o < last
      · exact .inl ⟨⟨bounds.1, inside⟩, fun member => absent (.inl member), free⟩
      · refine .inr ⟨⟨?_, bounds.2⟩, free⟩
        have other : o ≠ last := fun same => absent (.inl (.inr same))
        omega
    · rintro (⟨bounds, absent, free⟩ | ⟨bounds, free⟩)
      · refine ⟨by omega, ?_, free⟩
        rintro (member | same)
        · exact absent member
        · omega
      · refine ⟨by omega, ?_, free⟩
        rintro ((member | same) | same)
        · have within := early member
          omega
        · omega
        · omega
  · refine Finset.disjoint_left.mpr fun o left right => ?_
    simp only [Finset.mem_filter, Finset.mem_Ioo] at left right
    omega

theorem holesBefore_eq_card (explained : List (Int × Int)) {last r : Int} (bounded : r < 2 ^ 63) :
    holesBefore explained (some last) r =
      ((Finset.Ioo last r).filter fun o => ¬ ∃ q ∈ explained, q.1 ≤ o ∧ o ≤ q.2).card := by
  have ioo : Finset.Ioo last r = Finset.Icc (last + 1) (r - 1) := by
    ext o
    simp only [Finset.mem_Ioo, Finset.mem_Icc]
    omega
  have split := Finset.card_filter_add_card_filter_not (s := Finset.Icc (last + 1) (r - 1))
    (fun o => ∃ q ∈ explained, q.1 ≤ o ∧ o ≤ q.2)
  have size : (Finset.Icc (last + 1) (r - 1)).card = (r - last - 1).toNat := by
    rw [Int.card_Icc]
    congr 1
    omega
  have covered : coveredBy explained (last + 1) (r - 1) = _ := coveredBy_eq_card explained (by omega)
  rw [coveredOffsets] at covered
  rw [ioo, holesBefore]
  split
  · rw [covered]
    omega
  · rename_i near
    have none : r - 1 < last + 1 := by
      simp only [i64SaturatingSucc] at near
      omega
    rw [Finset.Icc_eq_empty (by omega)]
    rfl

section Fold
variable (window : CompleteWindow) (explained : List (Int × Int))

theorem archiveRecord_holes (st : ArchiveState) (r : RecordDigest) :
    (archiveRecord window explained st r).side.offsetHoles =
        st.side.offsetHoles + holesBefore explained st.prev r.offset ∧
      (archiveRecord window explained st r).prev =
        some ((st.prev.map fun pv => max pv r.offset).getD r.offset) := by
  unfold archiveRecord
  dsimp only
  split
  · exact ⟨rfl, rfl⟩
  · split <;> exact ⟨rfl, rfl⟩

/-- The loop stands behind the decoded offsets so far, with their holes counted. -/
structure HolesCounted (offsets : List Int) (st : ArchiveState) : Prop where
  prev : st.prev = offsets.getLast?
  counted : st.side.offsetHoles = (holes explained offsets).card

theorem HolesCounted.step {offsets : List Int} {st : ArchiveState} (r : RecordDigest)
    (held : HolesCounted explained offsets st) (bounded : r.offset < 2 ^ 63)
    (ascending : (offsets ++ [r.offset]).Pairwise (· ≤ ·)) :
    HolesCounted explained (offsets ++ [r.offset]) (archiveRecord window explained st r) := by
  obtain ⟨added, prev⟩ := archiveRecord_holes window explained st r
  rw [held.prev] at added prev
  cases ends : offsets.getLast? with
  | none =>
      obtain rfl : offsets = [] := List.getLast?_eq_none_iff.mp ends
      refine ⟨by rw [prev]; rfl, ?_⟩
      rw [added, held.counted]
      simp [holes, betweenEnds, holesBefore]
  | some last =>
      have le : last ≤ r.offset := by
        have member := List.mem_of_getLast? ends
        exact (List.pairwise_append.mp ascending).2.2 last member r.offset (by simp)
      rw [ends] at added prev
      refine ⟨?_, ?_⟩
      · rw [prev]
        simp [max_eq_right le]
      · rw [added, held.counted, holes_snoc explained ends ascending, holesBefore_eq_card explained bounded]

theorem HolesCounted.fold : ∀ (more : List RecordDigest) {offsets : List Int} {st : ArchiveState},
    HolesCounted explained offsets st → (∀ r ∈ more, r.offset < 2 ^ 63) →
    ((offsets ++ more.map fun r => r.offset).Pairwise (· ≤ ·)) →
    HolesCounted explained (offsets ++ more.map fun r => r.offset)
      (more.foldl (archiveRecord window explained) st) := by
  intro more
  induction more with
  | nil =>
      intro offsets st held _ _
      simpa using held
  | cons r more ih =>
      intro offsets st held bounded ascending
      rw [List.map_cons, List.append_cons] at ascending ⊢
      have own := held.step window explained r (bounded r (by simp))
        (List.pairwise_append.mp ascending).1
      exact ih own (fun q member => bounded q (by simp [member])) ascending

end Fold

section Archive
variable {ζ : Type} (sha256 : List UInt8 → Digest) (zstd : ZstdStream ζ) (store : Store)

/-- A partition whose segments all verify and decode, in the order of their offsets, to
ascending offsets. -/
structure DecodedPartition where
  facts : PartitionFacts
  records : List RecordDigest
  reads : ReadsAll sha256 zstd store (facts.segments.mergeSort segmentLe) records
  ascending : (records.map fun r => r.offset).Pairwise (· ≤ ·)
  bounded : ∀ r ∈ records, r.offset < 2 ^ 63

theorem archiveSegments_read (window : CompleteWindow) (explained : List (Int × Int))
    {segs : List SegmentFacts} {records : List RecordDigest}
    (reads : ReadsAll sha256 zstd store segs records) : ∀ (st : ArchiveState) (offsets : List Int),
      HolesCounted explained offsets st → (∀ r ∈ records, r.offset < 2 ^ 63) →
      ((offsets ++ records.map fun r => r.offset).Pairwise (· ≤ ·)) →
      ∃ st', segs.foldlM (archiveSegment sha256 zstd store window explained) st = .ok st' ∧
        HolesCounted explained (offsets ++ records.map fun r => r.offset) st' := by
  induction reads with
  | nil =>
      intro st offsets held _ _
      exact ⟨st, rfl, by simpa using held⟩
  | @cons seg segs here rest first more ih =>
      intro st offsets held bounded ascending
      rw [List.map_append, ← List.append_assoc] at ascending ⊢
      have verified : HolesCounted explained offsets
          { st with side := { st.side with verified := st.side.verified + 1 } } :=
        ⟨held.prev, held.counted⟩
      have folded := verified.fold window explained here
        (fun r member => bounded r (List.mem_append_left rest member))
        (List.pairwise_append.mp ascending).1
      obtain ⟨st', ran, held'⟩ := ih _ _ folded
        (fun r member => bounded r (List.mem_append_right here member)) ascending
      refine ⟨st', ?_, held'⟩
      rw [List.foldlM_cons, archiveSegment_reads sha256 zstd store window explained st first]
      exact ran

theorem archiveSide_holes (window : CompleteWindow) (findings : Findings)
    (excluded : Option (List Int)) (p : DecodedPartition sha256 zstd store) :
    ∃ side findings' excluded',
      archiveSide sha256 zstd store (some p.facts) window findings excluded =
        .ok (side, findings', excluded') ∧
      side.offsetHoles =
        (holes (p.facts.gaps ++ p.facts.pruned) (p.records.map fun r => r.offset)).card := by
  have none : HolesCounted (p.facts.gaps ++ p.facts.pruned) []
      { side := { segments := (p.facts.segments.mergeSort segmentLe).length }, findings, excluded } :=
    ⟨rfl, by simp [holes, betweenEnds]⟩
  obtain ⟨st, ran, held⟩ := archiveSegments_read sha256 zstd store window _ p.reads _ [] none
    p.bounded p.ascending
  simp only [archiveSide, ran, bind, Except.bind]
  split
  · exact ⟨_, _, _, rfl, held.counted⟩
  · exact ⟨_, _, _, rfl, held.counted⟩

structure Span where
  lo : Int
  hi : Int
  start : 0 ≤ lo
  ordered : lo ≤ hi
  within : hi ≤ 2 ^ 63 - 1

/-- `covered_by` counts the offsets of its bounds that some range holds, and `archive_side` the
offsets between the first and the last decoded one that are neither decoded nor in a range. -/
theorem offset_holes_exact (ranges : List (Int × Int)) (span : Span) (window : CompleteWindow)
    (findings : Findings) (excluded : Option (List Int)) (p : DecodedPartition sha256 zstd store) :
    coveredBy ranges span.lo span.hi = (coveredOffsets ranges span.lo span.hi).card ∧
      ∃ side findings' excluded',
        archiveSide sha256 zstd store (some p.facts) window findings excluded =
          .ok (side, findings', excluded') ∧
        side.offsetHoles =
          (holes (p.facts.gaps ++ p.facts.pruned) (p.records.map fun r => r.offset)).card := by
  have within := span.within
  exact ⟨coveredBy_eq_card ranges (by omega),
    archiveSide_holes sha256 zstd store window findings excluded p⟩

end Archive

end Logweir.Complete
