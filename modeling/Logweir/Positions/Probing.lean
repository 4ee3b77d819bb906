import Logweir.Positions.Rule
import Logweir.Library.TreeMaps

/-!
# The prober and the counts

One pass over the target's records answers every pending position with the first
record at or above it, whatever the records' order; the two counts over a sorted
list and over ranges are what their names say.
-/

set_option autoImplicit false

namespace Logweir.PositionsMapping

open Std (ExtTreeMap ExtTreeSet)
open Logweir.TreeMaps

abbrev Observation := Int × Int

def firstAtOrAbove (seen : List Observation) (q : Int) : Found :=
  match seen.find? fun o => decide (q ≤ o.2) with
  | some o => .record o.1 o.2
  | none => .end

def observeAll (p : Prober) (seen : List Observation) : Prober :=
  seen.foldl (fun p o => p.observe o.1 o.2) p

/-- The positions resolved so far and those still open. -/
structure Probing (pending : List Int) (seen : List Observation) (p : Prober)
    (resolved waiting : List Int) : Prop where
  asked : p.pending = pending
  split : pending = resolved ++ waiting
  next : p.next = resolved.length
  ascending : pending.Pairwise (· < ·)
  answered : ∀ q ∈ resolved, p.found[q]? = some (firstAtOrAbove seen q) ∧ ∃ o ∈ seen, q ≤ o.2
  waits : ∀ q ∈ waiting, ∀ o ∈ seen, o.2 < q

theorem firstAtOrAbove_append (seen : List Observation) (o : Observation) (q : Int) :
    firstAtOrAbove (seen ++ [o]) q =
      if (∃ s ∈ seen, q ≤ s.2) then firstAtOrAbove seen q
      else if q ≤ o.2 then .record o.1 o.2 else .end := by
  unfold firstAtOrAbove
  rw [List.find?_append]
  cases found : seen.find? fun o => decide (q ≤ o.2) with
  | some s =>
      have at' : q ≤ s.2 := of_decide_eq_true
        (List.find?_some (p := fun o : Observation => decide (q ≤ o.2)) found)
      rw [if_pos ⟨s, List.mem_of_find?_eq_some found, at'⟩]
      rfl
  | none =>
      have no : ¬ ∃ s ∈ seen, q ≤ s.2 := by
        rintro ⟨s, hs, le⟩
        exact List.find?_eq_none.mp found s hs (decide_eq_true le)
      rw [if_neg no, Option.none_or, List.find?_singleton]
      by_cases le : q ≤ o.2
      · simp [le]
      · simp [le]

theorem dropWhile_above (lineage : Int) : ∀ l : List Int, l.Pairwise (· < ·) →
    ∀ q ∈ l.dropWhile (fun q => decide (q ≤ lineage)), lineage < q := by
  intro l
  induction l with
  | nil => intro _ q hq; cases hq
  | cons a l ih =>
      intro ascending q hq
      obtain ⟨first, rest⟩ := List.pairwise_cons.mp ascending
      by_cases le : a ≤ lineage
      · rw [List.dropWhile_cons, if_pos (decide_eq_true le)] at hq
        exact ih rest q hq
      · rw [List.dropWhile_cons, if_neg (by simpa using le)] at hq
        rcases List.mem_cons.mp hq with rfl | later
        · omega
        · have := first q later
          omega

theorem probing_observe (pending : List Int) (seen : List Observation) (p : Prober)
    (resolved waiting : List Int) (o : Observation)
    (probing : Probing pending seen p resolved waiting) :
    Probing pending (seen ++ [o]) (p.observe o.1 o.2)
      (resolved ++ waiting.takeWhile fun q => decide (q ≤ o.2))
      (waiting.dropWhile fun q => decide (q ≤ o.2)) := by
  have rest : p.pending.drop p.next = waiting := by
    rw [probing.asked, probing.next, probing.split, List.drop_left]
  obtain ⟨_, ascending, between⟩ := List.pairwise_append.mp (probing.split ▸ probing.ascending)
  refine ⟨probing.asked, ?_, ?_, probing.ascending, fun q hq => ?_, fun q hq s hs => ?_⟩
  · rw [List.append_assoc, List.takeWhile_append_dropWhile]
    exact probing.split
  · simp only [Prober.observe, rest, List.length_append]
    rw [probing.next]
  · simp only [Prober.observe, rest, getElem?_foldl_insert]
    rw [firstAtOrAbove_append]
    rcases List.mem_append.mp hq with old | new
    · obtain ⟨held, some'⟩ := probing.answered q old
      have apart : q ∉ waiting.takeWhile fun q => decide (q ≤ o.2) := fun h =>
        Int.lt_irrefl q (between q old q ((List.takeWhile_sublist _).mem h))
      rw [if_neg apart, if_pos some']
      obtain ⟨s, hs, le⟩ := some'
      exact ⟨held, s, List.mem_append_left _ hs, le⟩
    · have le : q ≤ o.2 := of_decide_eq_true
        (List.all_eq_true.mp List.all_takeWhile q new)
      have none : ¬ ∃ s ∈ seen, q ≤ s.2 := by
        rintro ⟨s, hs, at'⟩
        have := probing.waits q ((List.takeWhile_sublist _).mem new) s hs
        omega
      rw [if_pos new, if_neg none, if_pos le]
      exact ⟨rfl, o, List.mem_append_right _ (List.mem_singleton.mpr rfl), le⟩
  · rcases List.mem_append.mp hs with old | new
    · exact probing.waits q ((List.dropWhile_sublist _).mem hq) s old
    · rw [List.mem_singleton.mp new]
      exact dropWhile_above o.2 waiting ascending q hq

theorem probing_observeAll (pending : List Int) : ∀ (more seen : List Observation) (p : Prober)
    (resolved waiting : List Int), Probing pending seen p resolved waiting →
      ∃ resolved' waiting', Probing pending (seen ++ more) (observeAll p more) resolved' waiting' := by
  intro more
  induction more with
  | nil =>
      intro seen p resolved waiting probing
      rw [List.append_nil]
      exact ⟨resolved, waiting, probing⟩
  | cons o more ih =>
      intro seen p resolved waiting probing
      rw [List.append_cons]
      exact ih _ _ _ _ (probing_observe pending seen p resolved waiting o probing)

theorem prober_finds (positions : List Int) (seen : List Observation) (q : Int)
    (probed : q ∈ positions) :
    ((observeAll (Prober.new positions) seen).finish)[q]? = some (firstAtOrAbove seen q) := by
  have start : Probing (ExtTreeSet.ofList positions).toList [] (Prober.new positions) []
      (ExtTreeSet.ofList positions).toList := by
    refine ⟨rfl, rfl, rfl, ?_, by simp, by simp⟩
    exact ExtTreeSet.ordered_toList.imp fun less => Std.compare_eq_lt.mp less
  obtain ⟨resolved, waiting, probing⟩ := probing_observeAll _ seen [] _ _ _ start
  rw [List.nil_append] at probing
  have rest : (observeAll (Prober.new positions) seen).pending.drop
      (observeAll (Prober.new positions) seen).next = waiting := by
    rw [probing.asked, probing.next, probing.split, List.drop_left]
  have member : q ∈ resolved ++ waiting := by
    rw [← probing.split, ExtTreeSet.mem_toList, ExtTreeSet.mem_ofList]
    simpa using probed
  rw [Prober.finish, rest, getElem?_foldl_insert]
  by_cases waits : q ∈ waiting
  · rw [if_pos waits, firstAtOrAbove, List.find?_eq_none.mpr]
    intro o ho
    have := probing.waits q waits o ho
    simp only [decide_eq_true_eq]
    omega
  · rw [if_neg waits]
    exact (probing.answered q ((List.mem_append.mp member).resolve_right waits)).1

theorem observeAll_foreign {q : Int} (seen : List Observation) : ∀ {p : Prober}, q ∉ p.pending →
    (observeAll p seen).pending = p.pending ∧ (observeAll p seen).found[q]? = p.found[q]? := by
  induction seen with
  | nil => exact fun _ => ⟨rfl, rfl⟩
  | cons o seen ih =>
      intro p foreign
      obtain ⟨pending, found⟩ := ih (p := p.observe o.1 o.2) foreign
      refine ⟨pending, found.trans ?_⟩
      have apart : q ∉ (p.pending.drop p.next).takeWhile fun q => decide (q ≤ o.2) := fun ready =>
        foreign (List.mem_of_mem_drop ((List.takeWhile_sublist _).mem ready))
      rw [Prober.observe, getElem?_foldl_insert, if_neg apart]

theorem prober_ignores (positions : List Int) (seen : List Observation) (q : Int)
    (foreign : q ∉ positions) :
    ((observeAll (Prober.new positions) seen).finish)[q]? = none := by
  have unasked : q ∉ (Prober.new positions).pending := by
    rw [Prober.new, ExtTreeSet.mem_toList, ExtTreeSet.mem_ofList]
    simpa using foreign
  obtain ⟨pending, found⟩ := observeAll_foreign seen unasked
  have apart : q ∉ (observeAll (Prober.new positions) seen).pending.drop
      (observeAll (Prober.new positions) seen).next := fun late =>
    unasked (pending ▸ List.mem_of_mem_drop late)
  rw [Prober.finish, getElem?_foldl_insert, if_neg apart, found]
  exact ExtTreeMap.getElem?_empty

theorem firstAtOrAbove_record_iff (seen : List Observation) (q t l : Int) :
    firstAtOrAbove seen q = .record t l ↔
      ∃ before after, seen = before ++ (t, l) :: after ∧ q ≤ l ∧ ∀ o ∈ before, o.2 < q := by
  have first : firstAtOrAbove seen q = .record t l ↔
      seen.find? (fun o => decide (q ≤ o.2)) = some (t, l) := by
    unfold firstAtOrAbove
    cases found : seen.find? fun o => decide (q ≤ o.2) with
    | none => exact iff_of_false Found.noConfusion (Option.some_ne_none _).symm
    | some o => simp [Prod.ext_iff]
  rw [first, List.find?_eq_some_iff_append]
  constructor
  · rintro ⟨le, before, after, parts, under⟩
    exact ⟨before, after, parts, of_decide_eq_true le, fun o early => by simpa using under o early⟩
  · rintro ⟨before, after, parts, le, under⟩
    exact ⟨decide_eq_true le, before, after, parts, fun o early => by simpa using under o early⟩

theorem firstAtOrAbove_end_iff (seen : List Observation) (q : Int) :
    firstAtOrAbove seen q = .end ↔ ∀ o ∈ seen, o.2 < q := by
  unfold firstAtOrAbove
  cases found : seen.find? fun o => decide (q ≤ o.2) with
  | none =>
      refine iff_of_true rfl fun o member => ?_
      simpa using List.find?_eq_none.mp found o member
  | some o =>
      refine iff_of_false Found.noConfusion fun below => ?_
      have above : q ≤ o.2 := of_decide_eq_true
        (List.find?_some (p := fun o : Observation => decide (q ≤ o.2)) found)
      have := below o (List.mem_of_find?_eq_some found)
      omega

/-- The answers are to the positions that were asked: each the first observation at or above it,
the end where there is none. -/
theorem prober_answers (positions : List Int) (seen : List Observation) (q : Int) :
    let answers := (observeAll (Prober.new positions) seen).finish
    (q ∈ answers ↔ q ∈ positions) ∧
      (∀ t l, answers[q]? = some (.record t l) ↔ q ∈ positions ∧
        ∃ before after, seen = before ++ (t, l) :: after ∧ q ≤ l ∧ ∀ o ∈ before, o.2 < q) ∧
      (answers[q]? = some .end ↔ q ∈ positions ∧ ∀ o ∈ seen, o.2 < q) := by
  intro answers
  by_cases asked : q ∈ positions
  · have answer : answers[q]? = some (firstAtOrAbove seen q) := prober_finds positions seen q asked
    refine ⟨iff_of_true ?_ asked, fun t l => ?_, ?_⟩
    · exact ExtTreeMap.mem_iff_isSome_getElem?.mpr (by rw [answer]; rfl)
    · rw [answer, Option.some.injEq, firstAtOrAbove_record_iff, and_iff_right asked]
    · rw [answer, Option.some.injEq, firstAtOrAbove_end_iff, and_iff_right asked]
  · have answer : answers[q]? = none := prober_ignores positions seen q asked
    refine ⟨iff_of_false ?_ asked, fun t l => ?_, ?_⟩
    · rw [ExtTreeMap.mem_iff_isSome_getElem?, answer]
      exact Bool.false_ne_true
    · rw [answer]
      exact iff_of_false (Option.some_ne_none _).symm fun both => asked both.1
    · rw [answer]
      exact iff_of_false (Option.some_ne_none _).symm fun both => asked both.1

def Found.upper : Found → Int
  | .record _ lineage => lineage
  | .end => i64Max

def Found.target (highWatermark : Int) : Found → Int
  | .record targetOffset _ => targetOffset
  | .end => highWatermark

theorem firstAtOrAbove_end (seen : List Observation) (q : Int)
    (unresolved : firstAtOrAbove seen q = .end) : ∀ o ∈ seen, o.2 < q := by
  exact (firstAtOrAbove_end_iff seen q).mp unresolved

theorem firstAtOrAbove_record (seen : List Observation) (q t l : Int)
    (ascending : seen.Pairwise fun a b => a.1 < b.1 ∧ a.2 < b.2)
    (resolved : firstAtOrAbove seen q = .record t l) :
    ∀ o ∈ seen, (q ≤ o.2 ↔ t ≤ o.1) ∧ (q ≤ o.2 → l ≤ o.2) := by
  unfold firstAtOrAbove at resolved
  split at resolved
  · rename_i first found
    cases resolved
    obtain ⟨le, before, after, rfl, under⟩ := List.find?_eq_some_iff_append.mp found
    have above : q ≤ first.2 := of_decide_eq_true le
    obtain ⟨_, later, cross⟩ := List.pairwise_append.mp ascending
    intro o ho
    rcases List.mem_append.mp ho with early | late
    · have low : ¬ q ≤ o.2 := by simpa using under o early
      have := cross o early first List.mem_cons_self
      omega
    · rcases List.mem_cons.mp late with rfl | late
      · omega
      · have := (List.pairwise_cons.mp later).1 o late
        omega
  · cases resolved

theorem length_takeWhile_lt (x : Int) : ∀ l : List Int, l.Pairwise (· ≤ ·) →
    (l.takeWhile fun o => decide (o < x)).length = l.countP fun o => decide (o < x) := by
  intro l
  induction l with
  | nil => exact fun _ => rfl
  | cons a l ih =>
      intro sorted
      obtain ⟨first, rest⟩ := List.pairwise_cons.mp sorted
      by_cases less : a < x
      · rw [List.takeWhile_cons, if_pos (decide_eq_true less), List.length_cons, ih rest,
          List.countP_cons, if_pos (decide_eq_true less)]
      · have none : l.countP (fun o => decide (o < x)) = 0 := by
          refine List.countP_eq_zero.mpr fun o ho => ?_
          have := first o ho
          simp only [decide_eq_true_eq]
          omega
        simp [less, none]

def within (lo hi o : Int) : Bool := decide (lo ≤ o) && decide (o < hi)

theorem countP_lt_add (lo hi : Int) (less : lo < hi) (l : List Int) :
    l.countP (fun o => decide (o < lo)) + l.countP (within lo hi) =
      l.countP fun o => decide (o < hi) := by
  induction l with
  | nil => rfl
  | cons a l ih =>
      simp only [List.countP_cons, within, Bool.and_eq_true, decide_eq_true_eq]
      rw [← ih]
      split <;> split <;> split <;> omega

theorem countIn_sorted (offsets : List Int) (sorted : offsets.Pairwise (· ≤ ·)) (lo hi : Int) :
    countIn offsets lo hi = offsets.countP (within lo hi) := by
  unfold countIn
  by_cases empty : hi ≤ lo
  · rw [if_pos empty, eq_comm, List.countP_eq_zero]
    intro o _
    simp only [within, Bool.and_eq_true, decide_eq_true_eq]
    omega
  · rw [if_neg empty, length_takeWhile_lt lo offsets sorted, length_takeWhile_lt hi offsets sorted,
      ← countP_lt_add lo hi (by omega) offsets]
    exact Nat.add_sub_cancel_left _ _

theorem overlaps_iff (ranges : List (Int × Int)) (lo hi : Int) :
    overlaps ranges lo hi = true ↔ ∃ g ∈ ranges, g.1 < hi ∧ lo ≤ g.2 := by
  simp [overlaps]

end Logweir.PositionsMapping
