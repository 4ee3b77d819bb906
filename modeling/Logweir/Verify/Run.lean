import Logweir.Verify.Partition

/-!
# What a complete verification establishes

`run` over every partition: one verdict and one report a partition, `covered`
exactly when every report was compared, and for a partition whose two lanes are
both verified, what was read back and what the target holds.
-/

set_option autoImplicit false

namespace Logweir.Complete

open Std (ExtTreeMap ExtTreeSet)
open Logweir.Engine Logweir.ReplaySelection Logweir.Fingerprint Logweir.Kbak Logweir.TreeMaps
open Logweir.Results
open Logweir.PositionsMapping (Prober PartitionScan)

def listedSegments (facts : BackupSetFacts) (src : String) (pid : Int) : List SegmentFacts :=
  (facts.topics.filter fun t => t.name == src).flatMap fun t =>
    (t.partitions.filter fun p => p.partitionId == pid).flatMap fun p => p.segments

theorem sublist_flatMap_of_mem {α β : Type} (f : α → List β) {a : α} {l : List α} (mem : a ∈ l) :
    (f a).Sublist (l.flatMap f) := by
  rw [List.flatMap_def]
  exact List.sublist_flatten_of_mem (List.mem_map_of_mem mem)

theorem entrySegments_sublist (facts : BackupSetFacts) (src : String) (pid : Int) :
    (entrySegments facts src pid).Sublist (listedSegments facts src pid) := by
  unfold entrySegments manifestEntry listedSegments
  cases named : facts.topics.find? fun t => t.name == src with
  | none => exact List.nil_sublist _
  | some t =>
      cases found : t.partitions.find? fun p => p.partitionId == pid with
      | none =>
          simp only [Option.bind_some, found, Option.map_none, Option.getD_none]
          exact List.nil_sublist _
      | some p =>
          have sameName : (t.name == src) = true :=
            List.find?_some (p := fun t : TopicFacts => t.name == src) named
          have sameId : (p.partitionId == pid) = true :=
            List.find?_some (p := fun p : PartitionFacts => p.partitionId == pid) found
          have ht : t ∈ facts.topics.filter fun t => t.name == src :=
            List.mem_filter.mpr ⟨List.mem_of_find?_eq_some named, sameName⟩
          have hp : p ∈ t.partitions.filter fun p => p.partitionId == pid :=
            List.mem_filter.mpr ⟨List.mem_of_find?_eq_some found, sameId⟩
          simp only [Option.bind_some, found, Option.map_some, Option.getD_some]
          exact (sublist_flatMap_of_mem PartitionFacts.segments hp).trans
            (sublist_flatMap_of_mem (fun t : TopicFacts =>
              (t.partitions.filter fun p => p.partitionId == pid).flatMap fun p => p.segments) ht)

/-- Where a partition's target and high watermark come from; one the plan does
not select is there for the records its target holds. -/
def PartSource (reader : ClusterReader) (selection : ReplaySelection)
    (mapping : ExtTreeMap String String) (part : (String × Int) × (String × Int)) : Prop :=
  mapping[part.1.1]? = some part.2.1 ∧
    (selection.selectsPartition part.1.1 part.1.2 = true ∨ 0 < part.2.2) ∧
    ∃ ends, endsOf reader part.2.1 = .ok ends ∧ part.2.2 = (ends[part.1.2]?).getD 0

theorem foldl_insert_all {α κ β : Type} {cmp : κ → κ → Ordering} [Std.TransCmp cmp]
    [Std.LawfulEqCmp cmp] (P : κ × β → Prop) (entry : α → κ × β) :
    ∀ (l : List α) (m : ExtTreeMap κ β cmp), (∀ a ∈ l, P (entry a)) →
      (∀ k b, m[k]? = some b → P (k, b)) →
      ∀ k b, (l.foldl (fun m a => m.insert (entry a).1 (entry a).2) m)[k]? = some b → P (k, b) := by
  intro l
  induction l with
  | nil => exact fun m _ old => old
  | cons a l ih =>
      intro m new old
      rw [List.foldl_cons]
      refine ih _ (fun b hb => new b (List.mem_cons_of_mem a hb)) fun k b found => ?_
      rw [ExtTreeMap.getElem?_insert] at found
      split at found
      · rename_i same
        cases found
        rw [← Std.LawfulEqCmp.eq_of_compare same]
        exact new a List.mem_cons_self
      · exact old k b found

theorem partsOf_source (reader : ClusterReader) (facts : BackupSetFacts)
    (selection : ReplaySelection) (mapping : ExtTreeMap String String) (src tgt : String)
    (ends : ExtTreeMap Int Int) (parts : Parts) (mapped : mapping[src]? = some tgt)
    (answered : endsOf reader tgt = .ok ends)
    (old : ∀ k b, parts[k]? = some b → PartSource reader selection mapping (k, b)) :
    ∀ k b, (partsOf facts selection src tgt ends parts)[k]? = some b →
      PartSource reader selection mapping (k, b) := by
  unfold partsOf
  refine foldl_insert_all (PartSource reader selection mapping)
    (fun e : Int × Int => ((src, e.1), (tgt, e.2))) _ _ ?_ ?_
  · intro e he
    obtain ⟨listed, kept⟩ := List.mem_filter.mp he
    have held := ExtTreeMap.mem_toList_iff_getElem?_eq_some.mp listed
    refine ⟨mapped, ?_, ends, answered, ?_⟩
    · simpa using kept
    · simp [held]
  · cases facts.topics.find? fun t => t.name == src with
    | none => exact old
    | some t =>
        exact foldl_insert_all (PartSource reader selection mapping)
          (fun p : PartitionFacts => ((src, p.partitionId), (tgt, (ends[p.partitionId]?).getD 0)))
          _ parts (fun p hp => ⟨mapped, .inl (List.mem_filter.mp hp).2, ends, answered, rfl⟩) old

theorem allParts_source (reader : ClusterReader) (facts : BackupSetFacts)
    (selection : ReplaySelection) (mapping : ExtTreeMap String String) (parts : Parts)
    (ok : allParts reader facts selection mapping = .ok parts) :
    ∀ part ∈ parts.toList, PartSource reader selection mapping part := by
  have fold : ∀ (l : List (String × String)) (m m' : Parts),
      (∀ e ∈ l, mapping[e.1]? = some e.2) →
      (∀ k b, m[k]? = some b → PartSource reader selection mapping (k, b)) →
      l.foldlM (fun parts (e : String × String) => do
        let ends ← endsOf reader e.2
        return partsOf facts selection e.1 e.2 ends parts) m = .ok m' →
      ∀ k b, m'[k]? = some b → PartSource reader selection mapping (k, b) := by
    intro l
    induction l with
    | nil =>
        intro m m' _ old done
        cases done
        exact old
    | cons e l ih =>
        intro m m' mapped old done
        obtain ⟨m₁, first, rest⟩ := foldlM_cons_ok _ e l m m' done
        obtain ⟨ends, answered, made⟩ := bind_eq_ok.mp first
        cases made
        exact ih _ m' (fun e' he => mapped e' (List.mem_cons_of_mem e he))
          (partsOf_source reader facts selection mapping e.1 e.2 ends m
            (mapped e List.mem_cons_self) answered old) rest
  intro part hpart
  have held := ExtTreeMap.mem_toList_iff_getElem?_eq_some.mp hpart
  exact fold mapping.toList ∅ parts
    (fun e he => ExtTreeMap.mem_toList_iff_getElem?_eq_some.mp he)
    (fun k b none => by simp at none) ok part.1 part.2 held

section Lane
variable {ζ : Type} (sha256 : List UInt8 → Digest) (zstd : ZstdStream ζ)
  (reader : ClusterReader) (store : Store) (facts : BackupSetFacts)
  (selection : ReplaySelection) (window : CompleteWindow)

/-- A row of the ledger and, where it passes a probed partition, its scan. -/
def Told (probes : Option Probes) (scans : Scans) (part : (String × Int) × (String × Int))
    (row : Row) : Prop :=
  RowOf sha256 zstd reader store facts selection window part row ∧
    (row.passes → selection.selectsPartition part.1.1 part.1.2 = true →
      (probesFor probes part.1).isSome = true → scans.contains part.1 = true)

/-- What the lane's loop has established from one state to a later one. -/
structure LaneRows (probes : Option Probes) (parts : List ((String × Int) × (String × Int)))
    (st st' : RunState) (rows : List Row) : Prop where
  all : List.Forall₂ (Told sha256 zstd reader store facts selection window probes st'.scans) parts
    rows
  verdicts : st'.verdicts = st.verdicts ++ rows.map Prod.fst
  partitions : st'.partitions = st.partitions ++ rows.map Prod.snd
  notCompared : st'.notCompared = st.notCompared + rows.countP fun row => !row.2.compared
  kept : ∀ key, st.scans.contains key = true → st'.scans.contains key = true
  scanned : ∀ key scan, st'.scans[key]? = some scan → st.scans[key]? = some scan ∨
    ∃ part ∈ parts, part.1 = key ∧
      Scanned sha256 zstd reader store facts selection window probes part scan

theorem addsRow_contains (st st' : RunState) (key : String × Int) (row : Row)
    (scan : Option PartitionScan) (adds : AddsRow st key row scan st') (k : String × Int) :
    st'.scans.contains k = (st.scans.contains k || (scan.isSome && key == k)) := by
  rw [adds.scans]
  cases scan with
  | none => simp
  | some scan =>
      simp only [Option.map_some, Option.getD_some, ExtTreeMap.contains_insert, Option.isSome_some,
        Bool.true_and]
      rw [Bool.or_comm]
      congr 1
      by_cases same : key = k
      · subst same
        simp
      · have apart : partCmp key k ≠ .eq := fun h => same (Std.LawfulEqCmp.eq_of_compare h)
        rw [beq_eq_false_iff_ne.mpr same, beq_eq_false_iff_ne.mpr apart]

theorem addsRow_getElem? (st st' : RunState) (key : String × Int) (row : Row)
    (scan : Option PartitionScan) (adds : AddsRow st key row scan st') (k : String × Int)
    (s : PartitionScan) (found : st'.scans[k]? = some s) :
    st.scans[k]? = some s ∨ (key = k ∧ scan = some s) := by
  rw [adds.scans] at found
  cases scan with
  | none => exact .inl found
  | some scan =>
      simp only [Option.map_some, Option.getD_some, ExtTreeMap.getElem?_insert] at found
      split at found
      · rename_i same
        exact .inr ⟨Std.LawfulEqCmp.eq_of_compare same, found⟩
      · exact .inl found

theorem run_rows (maxRecords : Option Nat) (probes : Option Probes) :
    ∀ (parts : List ((String × Int) × (String × Int))) (st st' : RunState),
      parts.foldlM (runPartition sha256 zstd reader store facts selection window maxRecords probes)
        st = .ok st' →
      ∃ rows, LaneRows sha256 zstd reader store facts selection window probes parts st st' rows := by
  intro parts
  induction parts with
  | nil =>
      intro st st' ok
      cases ok
      exact ⟨[], .nil, (List.append_nil _).symm, (List.append_nil _).symm, rfl, fun _ kept => kept,
        fun _ _ found => .inl found⟩
  | cons part parts ih =>
      intro st st' ok
      obtain ⟨st₁, first, rest⟩ := foldlM_cons_ok _ part parts st st' ok
      obtain ⟨row, scan, of, scanned, made, adds⟩ := runPartition_row sha256 zstd reader store facts
        selection window maxRecords probes st st₁ part first
      obtain ⟨rows, lane⟩ := ih st₁ st' rest
      have contains := addsRow_contains st st₁ part.1 row scan adds
      refine ⟨row :: rows, .cons ⟨of, fun passes picked probed => ?_⟩ lane.all, ?_, ?_, ?_, ?_, ?_⟩
      · apply lane.kept
        rw [contains, made passes picked probed]
        simp
      · rw [lane.verdicts, adds.verdicts, List.append_assoc]
        rfl
      · rw [lane.partitions, adds.partitions, List.append_assoc]
        rfl
      · rw [lane.notCompared, adds.notCompared, List.countP_cons]
        cases row.2.compared <;> simp only [Bool.not_true, Bool.not_false, Bool.false_eq_true,
          if_true, if_false] <;> omega
      · intro key held
        apply lane.kept
        rw [contains, held, Bool.true_or]
      · intro key s found
        rcases lane.scanned key s found with early | ⟨later, hlater, eq, is⟩
        · rcases addsRow_getElem? st st₁ part.1 row scan adds key s early with old | ⟨eq, new⟩
          · exact .inl old
          · exact .inr ⟨part, List.mem_cons_self, eq, scanned s new⟩
        · exact .inr ⟨later, List.mem_cons_of_mem part hlater, eq, is⟩

/-- A row of a partition the target holds `log` of: every segment the manifest
lists for it is verified and the selected records of those segments are what was
restored; a partition the plan did not select is empty. -/
def PartitionExact (row : Row) (log : List ConsumedRecord) : Prop :=
  if selection.selectsPartition row.2.topic row.2.partition then
    row.2.segmentsVerified = (listedSegments facts row.2.topic row.2.partition).length ∧
      Restored sha256 zstd store window (listedSegments facts row.2.topic row.2.partition) log
  else log = []

/-- `run` reads one entry of a partition; a segment listed in another is not in
what it verified. -/
theorem rowOf_exact_iff (part : (String × Int) × (String × Int)) (row : Row)
    (of : RowOf sha256 zstd reader store facts selection window part row) (passes : row.passes)
    (log : List ConsumedRecord)
    (reads : Reads reader part.2.1 part.1.2 part.2.2 0 log) :
    PartitionExact sha256 zstd store facts selection window row log ↔
      (selection.selectsPartition row.2.topic row.2.partition = true →
        entrySegments facts row.2.topic row.2.partition =
          listedSegments facts row.2.topic row.2.partition) := by
  unfold PartitionExact
  rw [of.topic, of.partition]
  cases pick : selection.selectsPartition part.1.1 part.1.2 with
  | false =>
      rw [if_neg Bool.false_ne_true]
      exact ⟨fun _ picked => absurd picked Bool.false_ne_true, fun _ => of.unselected passes pick log reads⟩
  | true =>
      obtain ⟨counted, restored⟩ := of.selected passes pick
      rw [if_pos rfl, counted]
      constructor
      · rintro ⟨all, _⟩ _
        exact (entrySegments_sublist facts part.1.1 part.1.2).eq_of_length all
      · intro same
        rw [← same rfl]
        exact ⟨rfl, restored log reads⟩

theorem forall₂_map {α β γ : Type} {R : α → β → Prop} (f : α → γ) (g : β → γ)
    (same : ∀ a b, R a b → g b = f a) {l : List α} {m : List β} (all : List.Forall₂ R l m) :
    m.map g = l.map f := by
  induction all with
  | nil => rfl
  | cons first _ ih => rw [List.map_cons, List.map_cons, same _ _ first, ih]

theorem forall₂_mem {α β : Type} {R : α → β → Prop} {l : List α} {m : List β}
    (all : List.Forall₂ R l m) {b : β} (mem : b ∈ m) : ∃ a ∈ l, R a b := by
  induction all with
  | nil => cases mem
  | cons first _ ih =>
      rcases List.mem_cons.mp mem with rfl | later
      · exact ⟨_, List.mem_cons_self, first⟩
      · obtain ⟨a, ha, related⟩ := ih later
        exact ⟨a, List.mem_cons_of_mem _ ha, related⟩

theorem run_ok (listed : List (String × Int)) (mapping : ExtTreeMap String String)
    (plan : RestorePlan) (maxRecords : Option Nat) (probes : Option Probes)
    (outcome : CompleteOutcome)
    (ok : run sha256 zstd reader store facts listed mapping plan maxRecords probes = .ok outcome) :
    ∃ (parts : Parts) (st : RunState) (rows : List Row),
      allParts reader facts (fromPlan plan) mapping = .ok parts ∧
      (∀ tp ∈ listed, parts.contains tp = true) ∧
      LaneRows sha256 zstd reader store facts (fromPlan plan) (windowOf plan) probes parts.toList {}
        st rows ∧
      outcome.verdicts = rows.map Prod.fst ∧ outcome.block.partitions = rows.map Prod.snd ∧
      outcome.block.covered = (rows.countP (fun row => !row.2.compared) == 0) ∧
      outcome.scans = st.scans := by
  simp only [run] at ok
  obtain ⟨parts, named, ok⟩ := bind_eq_ok.mp ok
  split at ok
  · cases ok
  · rename_i none
    obtain ⟨st, folded, ok⟩ := bind_eq_ok.mp ok
    cases ok
    obtain ⟨rows, lane⟩ := run_rows sha256 zstd reader store facts (fromPlan plan) (windowOf plan)
      maxRecords probes parts.toList {} st folded
    have notCompared := lane.notCompared
    rw [Nat.zero_add] at notCompared
    refine ⟨parts, st, rows, named, fun tp htp => ?_, lane, lane.verdicts, lane.partitions, ?_, rfl⟩
    · simpa using List.find?_eq_none.mp none tp htp
    · rw [notCompared]

theorem forall₂_fst_mem {α β : Type} {R : α → β → Prop} {l : List α} {m : List β}
    (all : List.Forall₂ R l m) {a : α} (mem : a ∈ l) : ∃ b ∈ m, R a b := by
  induction all with
  | nil => cases mem
  | cons first _ ih =>
      rcases List.mem_cons.mp mem with rfl | later
      · exact ⟨_, List.mem_cons_self, first⟩
      · obtain ⟨b, hb, related⟩ := ih later
        exact ⟨b, List.mem_cons_of_mem _ hb, related⟩

theorem run_scanned (listed : List (String × Int)) (mapping : ExtTreeMap String String)
    (plan : RestorePlan) (maxRecords : Option Nat) (probes : Option Probes)
    (outcome : CompleteOutcome)
    (ok : run sha256 zstd reader store facts listed mapping plan maxRecords probes = .ok outcome)
    (key : String × Int) (scan : PartitionScan) (scanned : outcome.scans[key]? = some scan) :
    ∃ part row, part.1 = key ∧ row ∈ outcome.verdicts.zip outcome.block.partitions ∧
      RowOf sha256 zstd reader store facts (fromPlan plan) (windowOf plan) part row ∧
      Scanned sha256 zstd reader store facts (fromPlan plan) (windowOf plan) probes part scan := by
  obtain ⟨parts, st, rows, _, _, lane, verdicts, partitions, _, scans⟩ := run_ok sha256 zstd reader
    store facts listed mapping plan maxRecords probes outcome ok
  rw [scans] at scanned
  rcases lane.scanned key scan scanned with none | ⟨part, hpart, eq, is⟩
  · simp at none
  · obtain ⟨row, hrow, told⟩ := forall₂_fst_mem lane.all hpart
    refine ⟨part, row, eq, ?_, told.1, is⟩
    rw [verdicts, partitions, List.zip_map', List.map_id']
    exact hrow

/-- The replay comparison shows no fault exactly for the expected output, `run`
is covered exactly when every partition it lists was compared, and a partition
whose lanes are both verified is restored exactly if and only if the manifest
lists its segments in the one entry `run` reads. -/
theorem complete_verification_exact :
    (∀ (reader : ClusterReader) (target : String) (partition hi : Int)
        (expected : ExtTreeMap Int Digest) (log : List ConsumedRecord) (findings : Findings)
        (prober : Option Prober), Reads reader target partition hi 0 log →
      ∃ r findings' prober', replaySide sha256 reader target partition hi expected findings prober =
          .ok (r, findings', prober') ∧
        r.restored = r.matching + r.mismatched + r.unexpected + r.duplicates ∧
        r.expected = r.matching + r.mismatched + r.missing ∧
        (r.isExact = true ↔ ExactOutput sha256 expected log)) ∧
    (∀ (reader : ClusterReader) (store : Store) (facts : BackupSetFacts)
        (listed : List (String × Int)) (mapping : ExtTreeMap String String) (plan : RestorePlan)
        (maxRecords : Option Nat) (probes : Option Probes) (outcome : CompleteOutcome),
      run sha256 zstd reader store facts listed mapping plan maxRecords probes = .ok outcome →
      (outcome.block.covered = true ↔ ∀ p ∈ outcome.block.partitions, p.compared = true) ∧
      (∀ tp ∈ listed, ∃ p ∈ outcome.block.partitions, (p.topic, p.partition) = tp) ∧
      outcome.verdicts.length = outcome.block.partitions.length ∧
      ∀ row : Row, row ∈ outcome.verdicts.zip outcome.block.partitions → row.passes →
        row.2.compared = true ∧ mapping[row.2.topic]? = some row.2.targetTopic ∧
        ∃ ends, endsOf reader row.2.targetTopic = .ok ends ∧
          ∀ log, Reads reader row.2.targetTopic row.2.partition ((ends[row.2.partition]?).getD 0) 0
              log →
            (PartitionExact sha256 zstd store facts (fromPlan plan) (windowOf plan) row log ↔
              ((fromPlan plan).selectsPartition row.2.topic row.2.partition = true →
                entrySegments facts row.2.topic row.2.partition =
                  listedSegments facts row.2.topic row.2.partition))) := by
  constructor
  · intro reader target partition hi expected log findings prober reads
    obtain ⟨r, findings', answered, exits, keys, _, _, faultless⟩ := replaySide_reads sha256 expected
      reader target partition hi log findings prober reads
    exact ⟨r, findings', _, answered, exits, keys, faultless⟩
  · intro reader store facts listed mapping plan maxRecords probes outcome ok
    obtain ⟨parts, st, rows, named, there, lane, verdicts, partitions, covered, _⟩ := run_ok sha256
      zstd reader store facts listed mapping plan maxRecords probes outcome ok
    refine ⟨?_, ?_, ?_, ?_⟩
    · rw [covered, partitions, beq_iff_eq, List.countP_eq_zero, List.forall_mem_map]
      simp only [Bool.not_eq_true', Bool.not_eq_false]
    · intro tp htp
      have key : tp ∈ parts.toList.map Prod.fst := by
        rw [ExtTreeMap.map_fst_toList_eq_keys, ExtTreeMap.mem_keys]
        exact ExtTreeMap.contains_iff_mem.mp (there tp htp)
      rw [← forall₂_map Prod.fst (fun row : Row => (row.2.topic, row.2.partition))
        (fun part row told => by rw [told.1.topic, told.1.partition]) lane.all] at key
      obtain ⟨row, hrow, eq⟩ := List.mem_map.mp key
      rw [partitions]
      exact ⟨row.2, List.mem_map_of_mem hrow, eq⟩
    · rw [verdicts, partitions, List.length_map, List.length_map]
    · intro row hrow passes
      rw [verdicts, partitions, List.zip_map', List.map_id'] at hrow
      obtain ⟨part, hpart, of, _⟩ := forall₂_mem lane.all hrow
      obtain ⟨mapped, _, ends, answered, hi⟩ := allParts_source reader facts (fromPlan plan) mapping
        parts named part hpart
      refine ⟨of.compared passes, ?_, ends, ?_, fun log reads => ?_⟩
      · rw [of.topic, of.target]
        exact mapped
      · rw [of.target]
        exact answered
      · rw [of.partition, of.target, ← hi] at reads
        exact rowOf_exact_iff sha256 zstd reader store facts (fromPlan plan) (windowOf plan) part row
          of passes log reads

/-- The SHA-256 of the two byte strings it is asked: a stored segment and its
record's ordered layout. -/
def storedHash (bytes : List UInt8) : Digest :=
  if bytes = oneRecordSegment then
    #v[121, 220, 45, 80, 172, 55, 127, 26, 8, 34, 189, 89, 228, 166, 132, 86, 59, 191, 47, 62, 2, 97,
      142, 160, 80, 154, 185, 235, 177, 37, 44, 228]
  else oneRecordHash bytes

def storedSegment : SegmentFacts where
  key := "orders/0/000006.kbak"
  startOffset := 6
  endOffset := 6
  startTimestamp := 5
  endTimestamp := 5
  recordCount := 1
  sha256 := "sha256:79dc2d50ac377f1a0822bd59e4a684563bbf2f3e02618ea0509ab9ebb1252ce4"

def storeOf (key : String) (bytes : List UInt8) : Store where
  getCapped asked _ := if asked = key then .ok bytes else .error (.notFound asked)

def restoredRecord : ConsumedRecord :=
  ⟨0, 5, some [107], none, [("x-original-offset", some [6, 0, 0, 0, 0, 0, 0, 0])]⟩

def targetOf (log : List ConsumedRecord) : ClusterReader where
  endOffsets _ := .ok [(0, log.length)]
  consumeRange _ _ start _ := .ok (log.filter fun c => decide (start ≤ c.offset))

def wholePlan : RestorePlan where
  topicMapping := {("orders", "orders-restored")}
  windowFloorSource := .archiveManifest
  timeWindow := (0, 10)
  sourcePartitions := ∅

def ordersFacts (entries : List PartitionFacts) : BackupSetFacts := ⟨[⟨"orders", entries⟩]⟩

def rowsOf (answer : Except DrillError CompleteOutcome) : Option (Bool × List Row) :=
  answer.toOption.map fun outcome =>
    (outcome.block.covered, outcome.verdicts.zip outcome.block.partitions)

def ordersRow (segments records : Nat) : Row :=
  ({ id := "orders/0", claimed := records, segments := .verified segments
     records := .verified records, recordsRestored := records, reconciled := some (records, records)
     downgrade := none },
   { topic := "orders", partition := 0, targetTopic := "orders-restored", compared := true
     segments, segmentsVerified := segments, recordsDecoded := records, offsetHoles := 0
     replay := { expected := records, restored := records, matching := records }, findings := [] })

theorem rowsOf_eq_some (answer : Except DrillError CompleteOutcome) (covered : Bool)
    (rows : List Row) (ran : rowsOf answer = some (covered, rows)) :
    ∃ outcome, answer = .ok outcome ∧ outcome.block.covered = covered ∧
      outcome.verdicts.zip outcome.block.partitions = rows := by
  obtain ⟨outcome, answered, eq⟩ := Option.map_eq_some_iff.mp ran
  cases eq
  exact ⟨outcome, (toOption_eq_some _ _).mp answered, rfl, rfl⟩

theorem targetOf_reads (c : ConsumedRecord) (first : c.offset = 0) :
    Reads (targetOf [c]) "orders-restored" 0 1 0 [c] := by
  rw [← List.append_nil [c]]
  refine @Reads.more _ _ _ _ _ [c] [] c (by decide) ?_ rfl (List.pairwise_singleton _ _) ?_ (.done ?_)
  · simp [targetOf, first]
  · simp [first]
  · rw [first]
    decide

theorem complete_verification_one_record :
    (∃ r findings prober, replaySide storedHash (targetOf [restoredRecord]) "orders-restored" 0 1
        {(6, recordDigest storedHash restoredRecord)} {} none = .ok (r, findings, prober) ∧
      (r.isExact = true ↔
        ExactOutput storedHash {(6, recordDigest storedHash restoredRecord)} [restoredRecord])) ∧
    PartitionExact storedHash rawBlockStream (storeOf storedSegment.key oneRecordSegment)
      (ordersFacts [⟨0, [storedSegment], [], []⟩]) (fromPlan wholePlan) (windowOf wholePlan)
      (ordersRow 1 1) [restoredRecord] := by
  obtain ⟨comparison, lane⟩ := complete_verification_exact storedHash rawBlockStream
  constructor
  · obtain ⟨r, findings, prober, answered, _, _, faultless⟩ := comparison (targetOf [restoredRecord])
      "orders-restored" 0 1 {(6, recordDigest storedHash restoredRecord)} [restoredRecord] {} none
      (targetOf_reads restoredRecord rfl)
    exact ⟨r, findings, prober, answered, faultless⟩
  · obtain ⟨outcome, ran, _, rows⟩ := rowsOf_eq_some (run storedHash rawBlockStream
      (targetOf [restoredRecord]) (storeOf storedSegment.key oneRecordSegment)
      (ordersFacts [⟨0, [storedSegment], [], []⟩]) [("orders", 0)] wholePlan.topicMapping wholePlan
      none none) true [ordersRow 1 1] (by decide +kernel)
    obtain ⟨_, _, _, each⟩ := lane _ _ _ _ _ _ _ _ outcome ran
    rw [rows] at each
    obtain ⟨_, _, ends, answered, exactly⟩ := each _ (List.mem_singleton.mpr rfl) ⟨rfl, rfl⟩
    have high : (ends[(0 : Int)]?).getD 0 = 1 := by
      cases answered
      decide +kernel
    refine (exactly [restoredRecord] ?_).mpr fun _ => by decide +kernel
    rw [show (ordersRow 1 1).2.partition = 0 from rfl, high]
    exact targetOf_reads restoredRecord rfl

/-- The archive lists a record of `orders/0` in a second entry; the target holds
nothing, the partition passes both lanes and the run is covered. -/
theorem run_passes_second_entry :
    ∃ outcome row, run storedHash rawBlockStream (targetOf [])
        (storeOf storedSegment.key oneRecordSegment)
        (ordersFacts [⟨0, [], [], []⟩, ⟨0, [storedSegment], [], []⟩]) [("orders", 0)]
        wholePlan.topicMapping wholePlan none none = .ok outcome ∧
      outcome.block.covered = true ∧ row ∈ outcome.verdicts.zip outcome.block.partitions ∧
      Row.passes row ∧ Reads (targetOf []) row.2.targetTopic row.2.partition 0 0 [] ∧
      ¬ PartitionExact storedHash rawBlockStream (storeOf storedSegment.key oneRecordSegment)
        (ordersFacts [⟨0, [], [], []⟩, ⟨0, [storedSegment], [], []⟩]) (fromPlan wholePlan)
        (windowOf wholePlan) row [] := by
  obtain ⟨outcome, ran, covered, rows⟩ := rowsOf_eq_some (run storedHash rawBlockStream (targetOf [])
    (storeOf storedSegment.key oneRecordSegment)
    (ordersFacts [⟨0, [], [], []⟩, ⟨0, [storedSegment], [], []⟩]) [("orders", 0)]
    wholePlan.topicMapping wholePlan none none) true [ordersRow 0 0] (by decide +kernel)
  refine ⟨outcome, ordersRow 0 0, ran, covered, ?_, ⟨rfl, rfl⟩, .done (Int.le_refl 0), ?_⟩
  · rw [rows]
    exact List.mem_singleton.mpr rfl
  · intro exactly
    have picked : (fromPlan wholePlan).selectsPartition "orders" 0 = true := by decide +kernel
    rw [PartitionExact, show (ordersRow 0 0).2.topic = "orders" from rfl,
      show (ordersRow 0 0).2.partition = 0 from rfl, if_pos picked] at exactly
    exact absurd exactly.1 (by decide +kernel)

end Lane

end Logweir.Complete
