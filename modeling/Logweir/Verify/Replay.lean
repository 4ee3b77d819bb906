import Logweir.Verify.Complete
import Logweir.Library.TreeMaps

/-!
# The replay comparison

`replay_side` over every way the reader may cut the target's records up.  The
loop is the fold of one step over the records read; the fold's counters add up
after every record, and they show no fault exactly when the records are the
expected output in order.
-/

set_option autoImplicit false

namespace Logweir.Complete

open Std (ExtTreeMap ExtTreeSet)
open Logweir.Fingerprint Logweir.TreeMaps Logweir.Results
open Logweir.PositionsMapping (Prober)

/-- The records a reader hands out from target offset `start` on below `hi`:
chunk by chunk, each non-empty and ascending from the offset asked for. -/
inductive Reads (reader : ClusterReader) (target : String) (partition hi : Int) :
    Int → List ConsumedRecord → Prop
  | done {start : Int} (ended : hi ≤ start) : Reads reader target partition hi start []
  | more {start : Int} {chunk rest : List ConsumedRecord} {last : ConsumedRecord}
      (below : start < hi)
      (answered : reader.consumeRange target partition start targetReadChunk = .ok chunk)
      (final : chunk.getLast? = some last)
      (ascending : chunk.Pairwise fun a b => a.offset < b.offset)
      (asked : ∀ c ∈ chunk, start ≤ c.offset)
      (next : Reads reader target partition hi (last.offset + 1) rest) :
      Reads reader target partition hi start (chunk ++ rest)

section Fold
variable (sha256 : List UInt8 → Digest)

theorem replayLoop_reads (reader : ClusterReader) (target : String) (partition hi : Int)
    (expected : ExtTreeMap Int Digest) {start : Int} {log : List ConsumedRecord}
    (reads : Reads reader target partition hi start log) :
    ∀ (fuel : Nat) (st : ReplayState), (hi - start).toNat ≤ fuel →
      replayLoop sha256 reader target partition hi expected fuel start st =
        .ok (log.foldl (replayRecord sha256 expected) st) := by
  induction reads with
  | done ended =>
      intro fuel st _
      cases fuel <;> simp only [replayLoop, if_neg (Int.not_lt.mpr ended), List.foldl_nil]
  | @more start chunk rest last below answered final _ asked _ ih =>
      intro fuel st enough
      cases fuel with
      | zero => omega
      | succ fuel =>
          have forward := asked last (List.mem_of_getLast? final)
          simp only [replayLoop, if_pos below, answered, final, List.foldl_append]
          exact ih fuel _ (by omega)

variable (expected : ExtTreeMap Int Digest) (st : ReplayState) (c : ConsumedRecord)

theorem replayRecord_none (lineage : lineageOffset c.headers = none) :
    (replayRecord sha256 expected st c).counts =
        { st.counts with
          restored := st.counts.restored + 1
          unexpected := st.counts.unexpected + 1 } ∧
      (replayRecord sha256 expected st c).seen = st.seen ∧
      (replayRecord sha256 expected st c).maxSeen = st.maxSeen ∧
      (replayRecord sha256 expected st c).prober = st.prober := by
  simp only [replayRecord, lineage]
  exact ⟨trivial, trivial, trivial, trivial⟩

def below (maxSeen : Option Int) (o : Int) : Bool := maxSeen.any fun m => decide (o < m)

theorem noteOrder_spec (o : Int) :
    (noteOrder st c o).counts =
        { st.counts with
          outOfOrder := st.counts.outOfOrder + if below st.maxSeen o then 1 else 0 } ∧
      (noteOrder st c o).seen = st.seen.insert o ∧
      (noteOrder st c o).maxSeen = some ((st.maxSeen.map fun m => max m o).getD o) ∧
      (noteOrder st c o).prober = st.prober := by
  unfold noteOrder below
  by_cases before : (st.maxSeen.any fun m => decide (o < m)) = true
  · simp [before]
  · simp [before]

theorem compareRecord_spec (o : Int) :
    (compareRecord sha256 expected st c o).counts =
        { st.counts with
          unexpected := st.counts.unexpected + if expected[o]? = none then 1 else 0
          matching := st.counts.matching +
            if expected[o]? = some (recordDigest sha256 c) then 1 else 0
          mismatched := st.counts.mismatched +
            if expected[o]? ≠ none ∧ expected[o]? ≠ some (recordDigest sha256 c) then 1 else 0 } ∧
      (compareRecord sha256 expected st c o).seen = st.seen ∧
      (compareRecord sha256 expected st c o).maxSeen = st.maxSeen ∧
      (compareRecord sha256 expected st c o).prober = st.prober := by
  unfold compareRecord
  cases want : expected[o]? with
  | none => simp
  | some d =>
      by_cases same : recordDigest sha256 c = d
      · subst same
        simp
      · have ne : d ≠ recordDigest sha256 c := fun h => same h.symm
        simp [same, ne]

theorem replayRecord_prober (o : Int) (lineage : lineageOffset c.headers = some o) :
    (replayRecord sha256 expected st c).prober =
      st.prober.map fun (p : Prober) => p.observe c.offset o := by
  simp only [replayRecord, lineage]
  split
  · rfl
  · rw [(compareRecord_spec sha256 expected _ c o).2.2.2, (noteOrder_spec _ c o).2.2.2]

theorem replayRecord_repeat (o : Int) (lineage : lineageOffset c.headers = some o)
    (again : st.seen.contains o = true) :
    (replayRecord sha256 expected st c).counts =
        { st.counts with
          restored := st.counts.restored + 1
          duplicates := st.counts.duplicates + 1 } ∧
      (replayRecord sha256 expected st c).seen = st.seen ∧
      (replayRecord sha256 expected st c).maxSeen = st.maxSeen := by
  simp only [replayRecord, lineage, again, if_true]
  exact ⟨trivial, trivial, trivial⟩

theorem replayRecord_fresh (o : Int) (lineage : lineageOffset c.headers = some o)
    (fresh : st.seen.contains o = false) :
    (replayRecord sha256 expected st c).counts =
        { st.counts with
          restored := st.counts.restored + 1
          outOfOrder := st.counts.outOfOrder + if below st.maxSeen o then 1 else 0
          unexpected := st.counts.unexpected + if expected[o]? = none then 1 else 0
          matching := st.counts.matching +
            if expected[o]? = some (recordDigest sha256 c) then 1 else 0
          mismatched := st.counts.mismatched +
            if expected[o]? ≠ none ∧ expected[o]? ≠ some (recordDigest sha256 c) then 1 else 0 } ∧
      (replayRecord sha256 expected st c).seen = st.seen.insert o ∧
      (replayRecord sha256 expected st c).maxSeen =
        some ((st.maxSeen.map fun m => max m o).getD o) := by
  simp only [replayRecord, lineage, fresh, Bool.false_eq_true, if_false]
  obtain ⟨counts, seen, maxSeen, _⟩ := compareRecord_spec sha256 expected (noteOrder
    { st with
      counts := { st.counts with restored := st.counts.restored + 1 }
      prober := st.prober.map fun (p : Prober) => p.observe c.offset o } c o) c o
  obtain ⟨counts', seen', maxSeen', _⟩ := noteOrder_spec
    { st with
      counts := { st.counts with restored := st.counts.restored + 1 }
      prober := st.prober.map fun (p : Prober) => p.observe c.offset o } c o
  rw [counts, counts', seen, seen', maxSeen, maxSeen']
  exact ⟨rfl, rfl, rfl⟩

def lineageDigest (c : ConsumedRecord) : Option Int × Digest :=
  (lineageOffset c.headers, recordDigest sha256 c)

def lineages (log : List ConsumedRecord) : List Int := log.filterMap fun c => lineageOffset c.headers

/-- The records so far are expected ones, unchanged, in ascending source order. -/
def InOrder (log : List ConsumedRecord) : Prop :=
  ∃ pairs : List (Int × Digest),
    log.map (lineageDigest sha256) = pairs.map (fun p => (some p.1, p.2)) ∧
      pairs.Pairwise (fun a b => a.1 < b.1) ∧ ∀ p ∈ pairs, expected[p.1]? = some p.2

theorem inOrder_append (log : List ConsumedRecord) (c : ConsumedRecord) :
    InOrder sha256 expected (log ++ [c]) ↔
      InOrder sha256 expected log ∧ ∃ o, lineageOffset c.headers = some o ∧
        (∀ p ∈ lineages log, p < o) ∧ expected[o]? = some (recordDigest sha256 c) := by
  constructor
  · rintro ⟨pairs, same, ascending, held⟩
    rw [List.map_append] at same
    obtain ⟨front, back, rfl, hfront, hback⟩ := List.map_eq_append_iff.mp same.symm
    obtain ⟨last, rfl, hlast⟩ : ∃ last, back = [last] ∧
        (some last.1, last.2) = lineageDigest sha256 c := by
      cases back with
      | nil => cases hback
      | cons last more =>
          simp only [List.map_cons, List.map_nil, List.cons.injEq, List.map_eq_nil_iff] at hback
          exact ⟨last, by rw [hback.2], hback.1⟩
    simp only [lineageDigest, Prod.mk.injEq] at hlast
    obtain ⟨sorted, _, below⟩ := List.pairwise_append.mp ascending
    refine ⟨⟨front, hfront.symm, sorted, fun p hp => held p (List.mem_append_left _ hp)⟩, last.1,
      hlast.1.symm, fun o ho => ?_, ?_⟩
    · obtain ⟨d, hd, lineage⟩ := List.mem_filterMap.mp ho
      have member : lineageDigest sha256 d ∈ front.map fun p => (some p.1, p.2) := by
        rw [hfront]
        exact List.mem_map_of_mem hd
      obtain ⟨q, hq, eq⟩ := List.mem_map.mp member
      have first := congrArg Prod.fst eq
      simp only [lineageDigest, lineage, Option.some.injEq] at first
      exact first ▸ below q hq last (List.mem_singleton.mpr rfl)
    · rw [← hlast.2]
      exact held last (List.mem_append_right _ (List.mem_singleton.mpr rfl))
  · rintro ⟨⟨pairs, same, ascending, held⟩, o, lineage, above, want⟩
    refine ⟨pairs ++ [(o, recordDigest sha256 c)], ?_, ?_, ?_⟩
    · simp [same, lineageDigest, lineage]
    · refine List.pairwise_append.mpr ⟨ascending, List.pairwise_singleton _ _, ?_⟩
      intro p hp q hq
      rw [List.mem_singleton.mp hq]
      apply above
      have member : (some p.1, p.2) ∈ log.map (lineageDigest sha256) := by
        rw [same]
        exact List.mem_map_of_mem (f := fun p => (some p.1, p.2)) hp
      obtain ⟨d, hd, eq⟩ := List.mem_map.mp member
      exact List.mem_filterMap.mpr ⟨d, hd, congrArg Prod.fst eq⟩
    · intro p hp
      rcases List.mem_append.mp hp with hp | hp
      · exact held p hp
      · rw [List.mem_singleton.mp hp]
        exact want

/-- What the loop variables say of the records folded so far. -/
structure Ledger (log : List ConsumedRecord) (st : ReplayState) : Prop where
  size : st.counts.expected = expected.size
  none_missing : st.counts.missing = 0
  restored : st.counts.restored = log.length
  exits : st.counts.restored = st.counts.matching + st.counts.mismatched +
    st.counts.unexpected + st.counts.duplicates
  seen : ∀ o, st.seen.contains o = true ↔ o ∈ lineages log
  highest : ∀ o, below st.maxSeen o = true ↔ ∃ p ∈ lineages log, o < p
  hits : st.counts.matching + st.counts.mismatched =
    expected.keys.countP fun o => st.seen.contains o
  clean : (st.counts.unexpected = 0 ∧ st.counts.duplicates = 0 ∧ st.counts.outOfOrder = 0 ∧
    st.counts.mismatched = 0) ↔ InOrder sha256 expected log

theorem lineages_append (log : List ConsumedRecord) (c : ConsumedRecord) :
    lineages (log ++ [c]) = lineages log ++ (lineageOffset c.headers).toList := by
  unfold lineages
  rw [List.filterMap_append]
  cases lineage : lineageOffset c.headers <;> simp [lineage]

theorem contains_insert (seen : ExtTreeSet Int) (o p : Int) :
    (seen.insert o).contains p = (seen.contains p || p == o) := by
  rw [ExtTreeSet.contains_insert, Bool.or_comm]
  by_cases same : p = o
  · subst same
    simp
  · have apart : compare o p ≠ .eq := fun h => same (Std.compare_eq_iff_eq.mp h).symm
    rw [beq_eq_false_iff_ne.mpr same, beq_eq_false_iff_ne.mpr apart]

theorem below_max (maxSeen : Option Int) (o p : Int) :
    below (some ((maxSeen.map fun m => max m o).getD o)) p =
      (below maxSeen p || decide (p < o)) := by
  cases maxSeen with
  | none => simp [below]
  | some m =>
      simp only [below, Option.any_some, Option.map_some, Option.getD_some, ← Bool.decide_or,
        decide_eq_decide]
      omega

theorem ledger_none (log : List ConsumedRecord) (ledger : Ledger sha256 expected log st)
    (lineage : lineageOffset c.headers = none) :
    Ledger sha256 expected (log ++ [c]) (replayRecord sha256 expected st c) := by
  obtain ⟨counts, seen, maxSeen, _⟩ := replayRecord_none sha256 expected st c lineage
  have same : lineages (log ++ [c]) = lineages log := by simp [lineages_append, lineage]
  have exits := ledger.exits
  refine ⟨?_, ?_, ?_, ?_, ?_, ?_, ?_, ?_⟩
  · rw [counts]
    exact ledger.size
  · rw [counts]
    exact ledger.none_missing
  · rw [counts, List.length_append, List.length_singleton, ← ledger.restored]
  · rw [counts]
    simp only
    omega
  · rw [seen, same]
    exact ledger.seen
  · rw [maxSeen, same]
    exact ledger.highest
  · rw [counts, seen]
    exact ledger.hits
  · rw [counts, inOrder_append]
    constructor
    · rintro ⟨unexpected, _⟩
      simp only at unexpected
      omega
    · rintro ⟨_, o, found, _⟩
      rw [lineage] at found
      cases found

theorem ledger_repeat (log : List ConsumedRecord) (ledger : Ledger sha256 expected log st) (o : Int)
    (lineage : lineageOffset c.headers = some o) (again : st.seen.contains o = true) :
    Ledger sha256 expected (log ++ [c]) (replayRecord sha256 expected st c) := by
  obtain ⟨counts, seen, maxSeen⟩ := replayRecord_repeat sha256 expected st c o lineage again
  have known := (ledger.seen o).mp again
  have exits := ledger.exits
  refine ⟨?_, ?_, ?_, ?_, ?_, ?_, ?_, ?_⟩
  · rw [counts]
    exact ledger.size
  · rw [counts]
    exact ledger.none_missing
  · rw [counts, List.length_append, List.length_singleton, ← ledger.restored]
  · rw [counts]
    simp only
    omega
  · intro p
    rw [seen, lineages_append, lineage, List.mem_append, ledger.seen p]
    constructor
    · exact Or.inl
    · rintro (old | new)
      · exact old
      · rw [List.mem_singleton.mp new]
        exact known
  · intro p
    rw [maxSeen, lineages_append, lineage, ledger.highest p]
    constructor
    · rintro ⟨q, hq, less⟩
      exact ⟨q, List.mem_append_left _ hq, less⟩
    · rintro ⟨q, hq, less⟩
      rcases List.mem_append.mp hq with old | new
      · exact ⟨q, old, less⟩
      · rw [List.mem_singleton.mp new] at less
        exact ⟨o, known, less⟩
  · rw [counts, seen]
    exact ledger.hits
  · rw [counts, inOrder_append]
    constructor
    · rintro ⟨_, duplicates, _⟩
      simp only at duplicates
      omega
    · rintro ⟨_, p, found, above, _⟩
      cases lineage.symm.trans found
      exact absurd (above o known) (Int.lt_irrefl o)

theorem ledger_fresh (log : List ConsumedRecord) (ledger : Ledger sha256 expected log st) (o : Int)
    (lineage : lineageOffset c.headers = some o) (fresh : st.seen.contains o = false) :
    Ledger sha256 expected (log ++ [c]) (replayRecord sha256 expected st c) := by
  obtain ⟨counts, seen, maxSeen⟩ := replayRecord_fresh sha256 expected st c o lineage fresh
  have exits := ledger.exits
  have hits := ledger.hits
  have unknown : ¬ o ∈ lineages log := fun h => by
    rw [(ledger.seen o).mpr h] at fresh
    cases fresh
  have key : o ∈ expected.keys ↔ expected[o]? ≠ none := by
    rw [ExtTreeMap.mem_keys, ← ExtTreeMap.isSome_getElem?_iff_mem, Option.isSome_iff_ne_none]
  refine ⟨?_, ?_, ?_, ?_, ?_, ?_, ?_, ?_⟩
  · rw [counts]
    exact ledger.size
  · rw [counts]
    exact ledger.none_missing
  · rw [counts, List.length_append, List.length_singleton, ← ledger.restored]
  · rw [counts]
    cases want : expected[o]? with
    | none => simp; omega
    | some d => by_cases match' : d = recordDigest sha256 c <;> simp [match'] <;> omega
  · intro p
    rw [seen, lineages_append, lineage, List.mem_append, contains_insert, Bool.or_eq_true,
      ledger.seen p]
    simp
  · intro p
    rw [maxSeen, lineages_append, lineage, below_max, Bool.or_eq_true, ledger.highest p,
      decide_eq_true_iff]
    constructor
    · rintro (⟨q, hq, less⟩ | less)
      · exact ⟨q, List.mem_append_left _ hq, less⟩
      · exact ⟨o, List.mem_append_right _ (List.mem_singleton.mpr rfl), less⟩
    · rintro ⟨q, hq, less⟩
      rcases List.mem_append.mp hq with old | new
      · exact .inl ⟨q, old, less⟩
      · rw [List.mem_singleton.mp new] at less
        exact .inr less
  · rw [counts, seen]
    rw [countP_insert (fun p => st.seen.contains p) (fun p => (st.seen.insert o).contains p) o fresh
      (fun p => contains_insert st.seen o p) expected.keys (keys_nodup expected)]
    cases want : expected[o]? with
    | none => simp [key, want]; omega
    | some d =>
        by_cases match' : d = recordDigest sha256 c <;> simp [key, want, match'] <;> omega
  · have ordered : below st.maxSeen o = false ↔ ∀ p ∈ lineages log, p < o := by
      rw [Bool.eq_false_iff, ne_eq, ledger.highest o]
      constructor
      · intro none p hp
        have apart : p ≠ o := fun h => unknown (h ▸ hp)
        have atMost : ¬ o < p := fun less => none ⟨p, hp, less⟩
        omega
      · rintro above ⟨p, hp, less⟩
        have := above p hp
        omega
    rw [counts, inOrder_append, ← ledger.clean, lineage]
    simp only [Option.some.injEq, exists_eq_left', ← ordered]
    cases want : expected[o]? with
    | none => simp
    | some d =>
        by_cases match' : d = recordDigest sha256 c <;> cases below st.maxSeen o <;>
          simp [match']

theorem ledger_step (log : List ConsumedRecord) (ledger : Ledger sha256 expected log st) :
    Ledger sha256 expected (log ++ [c]) (replayRecord sha256 expected st c) := by
  cases lineage : lineageOffset c.headers with
  | none => exact ledger_none sha256 expected st c log ledger lineage
  | some o =>
      cases seen : st.seen.contains o with
      | true => exact ledger_repeat sha256 expected st c log ledger o lineage seen
      | false => exact ledger_fresh sha256 expected st c log ledger o lineage seen

theorem ledger_fold (log : List ConsumedRecord) : ∀ (done : List ConsumedRecord) (st : ReplayState),
    Ledger sha256 expected done st →
      Ledger sha256 expected (done ++ log) (log.foldl (replayRecord sha256 expected) st) := by
  induction log with
  | nil =>
      intro done st ledger
      rw [List.append_nil]
      exact ledger
  | cons c log ih =>
      intro done st ledger
      rw [List.foldl_cons, List.append_cons]
      exact ih _ _ (ledger_step sha256 expected st c done ledger)

theorem ledger_start (findings : Findings) (prober : Option Prober) :
    Ledger sha256 expected [] { counts := { expected := expected.size }, findings, prober } where
  size := rfl
  none_missing := rfl
  restored := rfl
  exits := rfl
  seen := by intro o; simp [lineages]
  highest := by intro o; simp [lineages, below]
  hits := by simp
  clean := ⟨fun _ => ⟨[], rfl, List.Pairwise.nil, by simp⟩, fun _ => ⟨rfl, rfl, rfl, rfl⟩⟩

/-- The restored records are the expected output: source offsets ascending, each
with its digest, none missing and none besides. -/
def ExactOutput (log : List ConsumedRecord) : Prop :=
  log.map (lineageDigest sha256) = expected.toList.map fun p => (some p.1, p.2)

theorem exactOutput_iff (log : List ConsumedRecord) :
    ExactOutput sha256 expected log ↔
      InOrder sha256 expected log ∧ log.length = expected.size := by
  constructor
  · intro same
    refine ⟨⟨expected.toList, same, ?_, ?_⟩, ?_⟩
    · exact ExtTreeMap.ordered_keys_toList.imp fun {a b} h => Std.compare_eq_lt.mp h
    · exact fun p hp => ExtTreeMap.mem_toList_iff_getElem?_eq_some.mp hp
    · have size := congrArg List.length same
      rwa [List.length_map, List.length_map, ExtTreeMap.length_toList] at size
  · rintro ⟨⟨pairs, same, ascending, held⟩, full⟩
    have size := congrArg List.length same
    rw [List.length_map, List.length_map, full] at size
    rw [ExactOutput, same, eq_toList_of_sorted expected pairs
      (ascending.imp fun {a b} h => Std.compare_eq_lt.mpr h) held size.symm]

theorem countP_filter_not (p : Int → Bool) (l : List Int) :
    l.countP p + (l.filter fun o => !p o).length = l.length := by
  rw [← List.countP_eq_length_filter, List.length_eq_countP_add_countP p]
  congr 2
  funext o
  cases p o <;> rfl

def probeLog (p : Prober) (log : List ConsumedRecord) : Prober :=
  log.foldl (fun p c => match lineageOffset c.headers with
    | some o => p.observe c.offset o
    | none => p) p

theorem prober_fold (log : List ConsumedRecord) : ∀ st : ReplayState,
    (log.foldl (replayRecord sha256 expected) st).prober = st.prober.map fun p => probeLog p log := by
  induction log with
  | nil =>
      intro st
      cases prober : st.prober <;> simp [probeLog, prober]
  | cons c log ih =>
      intro st
      rw [List.foldl_cons, ih]
      cases lineage : lineageOffset c.headers with
      | none =>
          rw [(replayRecord_none sha256 expected st c lineage).2.2.2]
          simp [probeLog, lineage]
      | some o =>
          rw [replayRecord_prober sha256 expected st c o lineage, Option.map_map]
          congr 1
          funext p
          simp [probeLog, lineage]

theorem replaySide_reads (reader : ClusterReader) (target : String) (partition hi : Int)
    (log : List ConsumedRecord) (findings : Findings) (prober : Option Prober)
    (reads : Reads reader target partition hi 0 log) :
    ∃ r findings', replaySide sha256 reader target partition hi expected findings prober =
        .ok (r, findings', prober.map fun p => probeLog p log) ∧
      r.restored = r.matching + r.mismatched + r.unexpected + r.duplicates ∧
      r.expected = r.matching + r.mismatched + r.missing ∧
      r.restored = log.length ∧ r.expected = expected.size ∧
      (r.isExact = true ↔ ExactOutput sha256 expected log) := by
  have loop := replayLoop_reads sha256 reader target partition hi expected reads hi.toNat
    { counts := { expected := expected.size }, findings, prober } (by omega)
  have ledger := ledger_fold sha256 expected log [] _ (ledger_start sha256 expected findings prober)
  have probed := prober_fold sha256 expected log
    { counts := { expected := expected.size }, findings, prober }
  rw [List.nil_append] at ledger
  generalize log.foldl (replayRecord sha256 expected) _ = st at loop ledger probed
  have partition' := countP_filter_not (fun o => st.seen.contains o) expected.keys
  rw [length_keys, ← ledger.hits] at partition'
  simp only [replaySide, loop, bind, Except.bind, pure, Except.pure, probed]
  refine ⟨_, _, rfl, ledger.exits, ?_, ledger.restored, ledger.size, ?_⟩
  · simp only [ledger.size, ledger.none_missing]
    omega
  · have exits := ledger.exits
    rw [exactOutput_iff, ← ledger.clean, ← ledger.restored]
    simp only [ReplayComparison.isExact, ledger.size, ledger.none_missing, Bool.and_eq_true,
      beq_iff_eq]
    omega

end Fold

end Logweir.Complete
