import Logweir.CatalogSync.Window
import Logweir.CatalogSync.Whole

/-!
# The window and the order of the walk

What a walk lists is right whatever it met, and is the same set in every order exactly when every
point fits, or no entry keeps its place and the points with a record fill the window.
-/

set_option autoImplicit false

namespace Logweir.CatalogSync

open Logweir.Catalog
open Std (TreeMap)

instance : Std.TransCmp bodyCompare :=
  inferInstanceAs (Std.TransCmp (compareLex
    (fun a b => compareOn (fun o : Observation => (rankOf o).recoveryPointAtMs) b a)
    (compareOn fun o : Observation => (rankOf o).pointId)))

theorem bodyCompare_antisymm {a b : Observation} (ab : (bodyCompare a b).isLE = true)
    (ba : (bodyCompare b a).isLE = true) : (rankOf a).pointId = (rankOf b).pointId := by
  have same : bodyCompare a b = .eq := by
    have swap : bodyCompare b a = (bodyCompare a b).swap := Std.OrientedCmp.eq_swap
    rw [swap] at ba
    cases order : bodyCompare a b with
    | lt => rw [order] at ba; exact Bool.noConfusion ba
    | eq => rfl
    | gt => rw [order] at ab; exact Bool.noConfusion ab
  simp only [bodyCompare, Ordering.then_eq_eq, Std.compare_eq_iff_eq] at same
  exact same.2

theorem bodyCompare_total (a b : Observation) :
    ((bodyCompare a b).isLE || (bodyCompare b a).isLE) = true := by
  have swap : bodyCompare b a = (bodyCompare a b).swap := Std.OrientedCmp.eq_swap
  rw [swap]
  cases bodyCompare a b <;> rfl

theorem Walk.listed_sorted (w : Walk) :
    w.listed.Pairwise fun a b => (bodyCompare a b).isLE = true := by
  refine List.pairwise_mergeSort (fun a b c ab bc => ?_) bodyCompare_total _
  have le : (bodyCompare a b).isLE = true := ab
  have le' : (bodyCompare b c).isLE = true := bc
  exact Std.TransCmp.isLE_trans le le'

variable {env : Env}

def viewLimitOf (env : Env) : Nat := env.req.viewLimit.toNat

theorem Met.rank_inj {met : Met} {o o' : Observation} (mem : o ∈ met.observations)
    (mem' : o' ∈ met.observations) (same : (rankOf o).pointId = (rankOf o').pointId) : o = o' := by
  rw [rankOf_pointId (met.ids o mem), rankOf_pointId (met.ids o' mem')] at same
  exact List.inj_on_of_nodup_map met.distinct mem mem' same

def Met.reorder (met : Met) (observations : List Observation)
    (perm : observations.Perm met.observations) : Met where
  observations := observations
  ids := fun o mem => met.ids o (perm.mem_iff.mp mem)
  distinct := (perm.map entryId).nodup_iff.mpr met.distinct

theorem fed_fold (viewLimit : Nat) {all : List Observation}
    (apart : ∀ o ∈ all, ∀ o' ∈ all, rankOf o = rankOf o' → o = o') (nodup : all.Nodup) :
    ∀ (rest met : List Observation) (window : Window), all = met ++ rest →
      Fed viewLimit met window → Fed viewLimit all (rest.foldl (placed viewLimit) window) := by
  intro rest
  induction rest with
  | nil =>
      intro met window split fed
      rw [split, List.append_nil]
      exact fed
  | cons o rest ih =>
      intro met window split fed
      rw [List.foldl_cons]
      refine ih (met ++ [o]) _ (by rw [split, List.append_assoc]; rfl) (fed.placed fun m mem same => ?_)
      have twice := apart m (by rw [split]; exact List.mem_append_left _ mem) o
        (by rw [split]; exact List.mem_append_right _ List.mem_cons_self) same
      rw [split, List.nodup_append] at nodup
      exact nodup.2.2 m mem o List.mem_cons_self twice

theorem Met.fed (met : Met) (env : Env) :
    Fed (viewLimitOf env) met.observations (pushed env met.observations).window := by
  rw [pushed_window]
  refine fed_fold _ (fun o mem o' mem' same => ?_) (List.Nodup.of_map _ met.distinct) _ [] ∅ rfl
    (Fed.empty _)
  exact met.rank_inj mem mem' (congrArg Rank.pointId same)

section
variable {viewLimit : Nat} {met : List Observation} {w : Walk}

theorem mem_listed (fed : Fed viewLimit met w.window) {o : Observation} :
    o ∈ w.listed ↔ w.window[rankOf o]? = some o := by
  rw [Walk.listed, List.mem_mergeSort, List.mem_map]
  constructor
  · rintro ⟨⟨k, o'⟩, mem, rfl⟩
    have found := TreeMap.mem_toList_iff_getElem?_eq_some.mp mem
    rw [← (fed.own k o' found).1]
    exact found
  · exact fun found => ⟨(rankOf o, o), TreeMap.mem_toList_iff_getElem?_eq_some.mpr found, rfl⟩

theorem length_listed (fed : Fed viewLimit met w.window) :
    w.listed.length = min viewLimit met.length := by
  rw [Walk.listed, List.length_mergeSort, List.length_map, TreeMap.length_toList, fed.size_eq]

theorem nodup_listed (fed : Fed viewLimit met w.window) : w.listed.Nodup := by
  rw [Walk.listed, (List.mergeSort_perm _ _).nodup_iff]
  refine List.pairwise_map.mpr (TreeMap.distinct_keys_toList.imp_of_mem ?_)
  intro a b memA memB apart same
  have keyA := (fed.own _ _ (TreeMap.mem_toList_iff_getElem?_eq_some.mp memA)).1
  have keyB := (fed.own _ _ (TreeMap.mem_toList_iff_getElem?_eq_some.mp memB)).1
  rw [keyA, keyB, same] at apart
  exact apart Std.ReflCmp.compare_self

theorem listed_subset (fed : Fed viewLimit met w.window) : w.listed ⊆ met := by
  intro o mem
  exact (fed.own _ _ ((mem_listed fed).mp mem)).2

end

section
variable (met : Met) (env : Env)

def Met.listed : List Observation := (pushed env met.observations).listed

theorem Met.above {r : Observation} (mem : r ∈ met.observations)
    (record : standingOf r = .record) (absent : r ∉ met.listed env) :
    ∀ o ∈ met.listed env, standingOf o = .kept ∨
      (standingOf o = .record ∧ (rankOf r).compare (rankOf o) = .lt) := by
  have fed := met.fed env
  intro o held
  refine fed.above r mem record ?_ (rankOf o) o ((mem_listed fed).mp held)
  cases found : (pushed env met.observations).window[rankOf r]? with
  | none => rfl
  | some m =>
      obtain ⟨key, mem'⟩ := fed.own _ _ found
      obtain rfl := met.rank_inj mem mem' (congrArg Rank.pointId key)
      exact absurd ((mem_listed fed).mpr found) absent

theorem Met.length_listed :
    (met.listed env).length = min (viewLimitOf env) met.observations.length :=
  CatalogSync.length_listed (met.fed env)

theorem Met.listed_congr {met met' : Met} (same : ∀ o, o ∈ met'.observations ↔ o ∈ met.observations)
    (held : ∀ o, o ∈ met'.listed env ↔ o ∈ met.listed env) :
    met'.listed env = met.listed env := by
  have nodup := nodup_listed (met.fed env)
  have nodup' := nodup_listed (met'.fed env)
  refine List.Perm.eq_of_pairwise ?_ (Walk.listed_sorted _) (Walk.listed_sorted _)
    ((List.perm_ext_iff_of_nodup nodup' nodup).mpr held)
  intro a b memA memB ab ba
  exact met.rank_inj ((same a).mp (listed_subset (met'.fed env) memA))
    (listed_subset (met.fed env) memB) (bodyCompare_antisymm ab ba)

end

def recordsOf (observations : List Observation) : List Observation :=
  observations.filter fun o => decide (standingOf o = .record)

/-- Every point fits, none is listed at all, or no entry keeps its place and the points with a
record fill the window. -/
def Settled (env : Env) (met : Met) : Prop :=
  met.observations.length ≤ viewLimitOf env ∨ viewLimitOf env = 0 ∨
    ((∀ o ∈ met.observations, standingOf o ≠ .kept) ∧
      viewLimitOf env ≤ (recordsOf met.observations).length)

section
variable {met : Met} {env : Env}

theorem mem_recordsOf {observations : List Observation} {o : Observation} :
    o ∈ recordsOf observations ↔ o ∈ observations ∧ standingOf o = .record := by
  rw [recordsOf, List.mem_filter, decide_eq_true_iff]

theorem listed_record (plain : ∀ o ∈ met.observations, standingOf o ≠ .kept)
    (fill : viewLimitOf env ≤ (recordsOf met.observations).length) {o : Observation}
    (held : o ∈ met.listed env) : standingOf o = .record := by
  by_contra other
  have fed := met.fed env
  have inside := listed_subset fed held
  -- Every record is listed, and this entry too, so there are fewer of them than places.
  have all : o :: recordsOf met.observations ⊆ met.listed env := by
    intro r mem
    rcases List.mem_cons.mp mem with rfl | record
    · exact held
    · by_contra absent
      rw [mem_recordsOf] at record
      rcases met.above env record.1 record.2 absent o held with kept | ⟨here, _⟩
      · exact plain o inside kept
      · exact other here
  have nodup : (o :: recordsOf met.observations).Nodup := by
    refine List.nodup_cons.mpr ⟨fun mem => other (mem_recordsOf.mp mem).2, ?_⟩
    exact (List.Nodup.of_map _ met.distinct).filter _
  have count := (nodup.subperm all).length_le
  rw [met.length_listed, List.length_cons] at count
  omega

theorem settled_held {met' : Met} (perm : met'.observations.Perm met.observations)
    (settled : Settled env met) : ∀ o ∈ met'.listed env, o ∈ met.listed env := by
  have fed := met.fed env
  have fed' := met'.fed env
  have same : ∀ o, o ∈ met'.observations ↔ o ∈ met.observations := fun o => perm.mem_iff
  have count := met.length_listed env
  have count' := met'.length_listed env
  rw [perm.length_eq] at count'
  rcases settled with fits | none_ | ⟨plain, fill⟩
  · intro o held
    exact (mem_listed fed).mpr (fed.room fits o ((same o).mp (listed_subset fed' held)))
  · intro o held
    rw [none_, Nat.zero_min] at count'
    rw [List.eq_nil_of_length_eq_zero count'] at held
    exact absurd held List.not_mem_nil
  · intro a held
    by_contra absent
    have plain' : ∀ o ∈ met'.observations, standingOf o ≠ .kept :=
      fun o mem => plain o ((same o).mp mem)
    have fill' : viewLimitOf env ≤ (recordsOf met'.observations).length := by
      rw [recordsOf, (perm.filter _).length_eq]
      exact fill
    have inside := (same a).mp (listed_subset fed' held)
    -- As many are listed, so another one stands in its stead.
    obtain ⟨b, heldB, absentB⟩ : ∃ b ∈ met.listed env, b ∉ met'.listed env := by
      by_contra none_
      push Not at none_
      have fewer := ((nodup_listed fed).subperm none_).perm_of_length_le
        (by rw [show (pushed env met.observations).listed.length = _ from count]; omega)
      exact absent (fewer.mem_iff.mpr held)
    have insideB := (same b).mpr (listed_subset fed heldB)
    have below := met.above env inside (listed_record plain' fill' held) absent b heldB
    have above := met'.above env insideB (listed_record plain fill heldB) absentB a held
    rcases below with kept | ⟨_, lt⟩
    · exact plain b (listed_subset fed heldB) kept
    · rcases above with kept | ⟨_, gt⟩
      · exact plain a inside kept
      · have twice : (rankOf a).compare (rankOf a) = .lt := Std.TransCmp.lt_trans lt gt
        have self : (rankOf a).compare (rankOf a) = .eq := Std.ReflCmp.compare_self
        rw [self] at twice
        exact Ordering.noConfusion twice

theorem settled_order {met' : Met} (perm : met'.observations.Perm met.observations)
    (settled : Settled env met) : met'.listed env = met.listed env := by
  have settled' : Settled env met' := by
    rcases settled with fits | none_ | ⟨plain, fill⟩
    · exact .inl (by rw [perm.length_eq]; exact fits)
    · exact .inr (.inl none_)
    · refine .inr (.inr ⟨fun o mem => plain o (perm.mem_iff.mp mem), ?_⟩)
      rw [recordsOf, (perm.filter _).length_eq]
      exact fill
  exact Met.listed_congr env (fun o => perm.mem_iff) fun o =>
    ⟨settled_held perm settled o, settled_held perm.symm settled' o⟩

theorem last_absent {first : List Observation} {o : Observation}
    (split : met.observations = first ++ [o]) (full : viewLimitOf env ≤ first.length)
    (other : standingOf o ≠ .record) : o ∉ met.listed env := by
  have apart : ∀ a ∈ met.observations, ∀ b ∈ met.observations, rankOf a = rankOf b → a = b :=
    fun a memA b memB same => met.rank_inj memA memB (congrArg Rank.pointId same)
  have nodup := List.Nodup.of_map _ met.distinct
  rw [split] at apart nodup
  have before := fed_fold (viewLimitOf env)
    (fun a memA b memB same => apart a (List.mem_append_left _ memA) b
      (List.mem_append_left _ memB) same) (List.nodup_append.mp nodup).1 first [] ∅ rfl
    (Fed.empty _)
  have fresh := (List.nodup_append.mp nodup).2.2
  have same : (pushed env met.observations).window =
      first.foldl (placed (viewLimitOf env)) ∅ := by
    have size := before.size_eq
    rw [pushed_window, split]
    change (first ++ [o]).foldl (placed (viewLimitOf env)) ∅ = _
    rw [List.foldl_append, List.foldl_cons, List.foldl_nil, placed, if_neg (by omega)]
    split
    · rfl
    · rw [if_neg fun lower => other lower.1]
  intro held
  rw [Met.listed, mem_listed (met.fed env), same] at held
  exact fresh o (before.own _ _ held).2 o List.mem_cons_self rfl

theorem placed_other {window : Window} {viewLimit : Nat} {o m : Observation} {k : Rank}
    (other : standingOf o ≠ .record) (apart : rankOf o ≠ k) (held : window[k]? = some m) :
    (placed viewLimit window o)[k]? = some m := by
  unfold placed
  split
  · rw [TreeMap.getElem?_insert, if_neg fun same => apart (Std.LawfulEqCmp.eq_of_compare same)]
    exact held
  · split
    · exact held
    · rw [if_neg fun lower => other lower.1]
      exact held

theorem placed_kept {window : Window} {viewLimit : Nat} {o m : Observation} {k : Rank}
    (kept : k.standing = .kept) (apart : rankOf o ≠ k) (held : window[k]? = some m) :
    (placed viewLimit window o)[k]? = some m := by
  have other : ¬ Rank.compare (rankOf o) k = .eq :=
    fun same => apart (Std.LawfulEqCmp.eq_of_compare same)
  unfold placed
  split
  · rw [TreeMap.getElem?_insert, if_neg other]
    exact held
  · split
    · exact held
    · rename_i least min
      split
      · rename_i lower
        have unlike : ¬ least.compare k = .eq := by
          intro same
          obtain rfl := Std.LawfulEqCmp.eq_of_compare same
          have place := Rank.place_le (Rank.le_of_lt lower.2)
          rw [kept] at place
          change 2 ≤ (standingOf o).place at place
          rw [lower.1] at place
          exact absurd place (by decide)
        rw [TreeMap.getElem?_insert, if_neg other, TreeMap.getElem?_erase, if_neg unlike]
        exact held
      · exact held

theorem foldl_held {viewLimit : Nat} {k : Rank} {m : Observation} (rest : List Observation)
    (keeps : ∀ o ∈ rest, ∀ window : Window, window[k]? = some m →
      (placed viewLimit window o)[k]? = some m) :
    ∀ window : Window, window[k]? = some m →
      (rest.foldl (placed viewLimit) window)[k]? = some m := by
  induction rest with
  | nil => exact fun _ held => held
  | cons o rest ih =>
      intro window held
      exact ih (fun o' mem => keeps o' (List.mem_cons_of_mem _ mem)) _
        (keeps o List.mem_cons_self window held)

theorem early_held {first rest : List Observation} {o : Observation}
    (split : met.observations = first ++ o :: rest) (room : first.length < viewLimitOf env)
    (keeps : ∀ o' ∈ rest, ∀ window : Window, window[rankOf o]? = some o →
      (placed (viewLimitOf env) window o')[rankOf o]? = some o) : o ∈ met.listed env := by
  have apart : ∀ a ∈ met.observations, ∀ b ∈ met.observations, rankOf a = rankOf b → a = b :=
    fun a memA b memB same => met.rank_inj memA memB (congrArg Rank.pointId same)
  have nodup := List.Nodup.of_map _ met.distinct
  rw [split, ← List.singleton_append, ← List.append_assoc] at apart nodup
  have begun := fed_fold (viewLimitOf env)
    (fun a memA b memB same => apart a (List.mem_append_left _ memA) b
      (List.mem_append_left _ memB) same) (List.nodup_append.mp nodup).1 (first ++ [o]) [] ∅ rfl
    (Fed.empty _)
  have here := begun.room (by rw [List.length_append, List.length_singleton]; omega) o
    (List.mem_append_right _ List.mem_cons_self)
  rw [Met.listed, mem_listed (met.fed env), pushed_window, split, ← List.singleton_append,
    ← List.append_assoc, List.foldl_append]
  exact foldl_held rest keeps _ here

theorem settled_of_order (order : ∀ met' : Met, met'.observations.Perm met.observations →
    met'.listed env = met.listed env) : Settled env met := by
  have nodup := List.Nodup.of_map _ met.distinct
  by_contra unsettled
  rw [Settled, not_or, not_or, not_and, Nat.not_le] at unsettled
  obtain ⟨over_, some_, short⟩ := unsettled
  by_cases keeping : ∃ o ∈ met.observations, standingOf o = .kept
  · -- An entry that keeps its place, met first and met last.
    obtain ⟨o, mem, kept⟩ := keeping
    have perm := (List.perm_cons_erase mem).symm
    have perm' : (met.observations.erase o ++ [o]).Perm met.observations :=
      List.perm_append_comm.trans perm
    have length := perm'.length_eq
    rw [List.length_append, List.length_singleton] at length
    have apart : o ∉ met.observations.erase o := fun again => (nodup.mem_erase_iff.mp again).1 rfl
    have early : o ∈ (met.reorder _ perm).listed env := by
      refine early_held (show (met.reorder _ perm).observations =
        [] ++ o :: met.observations.erase o from rfl) (Nat.pos_of_ne_zero some_)
        fun o' mem' window held => placed_kept kept (fun same => ?_) held
      have inside := (nodup.mem_erase_iff.mp mem').2
      exact apart (met.rank_inj inside mem (congrArg Rank.pointId same) ▸ mem')
    have late : o ∉ (met.reorder _ perm').listed env :=
      last_absent rfl (by omega) (by rw [kept]; exact Standing.noConfusion)
    rw [order _ perm] at early
    rw [order _ perm'] at late
    exact late early
  · -- Too few points with a record: another entry, met right behind them and met last.
    have plain : ∀ o ∈ met.observations, standingOf o ≠ .kept :=
      fun o mem kept => keeping ⟨o, mem, kept⟩
    have few := Nat.not_le.mp (short plain)
    let others := met.observations.filter fun o => !decide (standingOf o = .record)
    have parts : (recordsOf met.observations ++ others).Perm met.observations :=
      List.filter_append_perm _ _
    have count := parts.length_eq
    rw [List.length_append] at count
    obtain ⟨o, mem⟩ := List.exists_mem_of_length_pos (show 0 < others.length by omega)
    have fresh : ∀ o' ∈ others, o' ∈ met.observations ∧ standingOf o' ≠ .record := by
      intro o' here
      obtain ⟨inside, other⟩ := List.mem_filter.mp here
      exact ⟨inside, by simpa using other⟩
    have apart : o ∉ others.erase o := fun again =>
      ((nodup.filter _).mem_erase_iff.mp again).1 rfl
    have inner := (List.perm_cons_erase mem).symm
    have perm : (recordsOf met.observations ++ o :: others.erase o).Perm met.observations :=
      (inner.append_left _).trans parts
    have perm' : ((recordsOf met.observations ++ others.erase o) ++ [o]).Perm
        met.observations := by
      rw [List.append_assoc]
      exact ((List.perm_append_comm.trans inner).append_left _).trans parts
    have length := perm'.length_eq
    rw [List.length_append, List.length_singleton] at length
    have early : o ∈ (met.reorder _ perm).listed env := by
      refine early_held (show (met.reorder _ perm).observations =
        recordsOf met.observations ++ o :: others.erase o from rfl) few
        fun o' mem' window held => placed_other (fresh o' (List.mem_of_mem_erase mem')).2
          (fun same => ?_) held
      have inside := (fresh o' (List.mem_of_mem_erase mem')).1
      exact apart (met.rank_inj inside (fresh o mem).1 (congrArg Rank.pointId same) ▸ mem')
    have late : o ∉ (met.reorder _ perm').listed env :=
      last_absent rfl (by omega) (fresh o mem).2
    rw [order _ perm] at early
    rw [order _ perm'] at late
    exact late early

end

/-- What the published list of a walk owes to its readers. -/
structure WindowRight (env : Env) (met : Met) : Prop where
  bounded : (met.listed env).length ≤ viewLimitOf env
  all : met.observations.length ≤ viewLimitOf env →
    ∀ o ∈ met.observations, o ∈ met.listed env
  /-- A point with a record is left out for a full list of such points that rank above it and of
  entries that never give their place. -/
  outranked : ∀ r ∈ met.observations, r.point.isSome = true → r ∉ met.listed env →
    (met.listed env).length = viewLimitOf env ∧
      ∀ o ∈ met.listed env, (o.point.isSome = true ∧ ranksAbove o r) ∨
        (o.point.isSome = false ∧ displaceable o = false)
  /-- No entry without facts is listed in its stead. -/
  factual : ∀ r ∈ met.observations, r.point.isSome = true → r ∉ met.listed env →
    ∀ o ∈ met.listed env, displaceable o = false
  ordered : ∀ met' : Met, met'.observations.Perm met.observations →
    met'.listed env = met.listed env

theorem standing_record {o : Observation} : standingOf o = .record ↔ o.point.isSome = true := by
  unfold standingOf
  split
  · simp [*]
  · split <;> simp [*]

theorem standing_kept {o : Observation} :
    standingOf o = .kept ↔ o.point.isSome = false ∧ displaceable o = false := by
  unfold standingOf
  split
  · simp [*]
  · split <;> simp_all

theorem ranksAbove_of_lt {met : Met} {r o : Observation} (memR : r ∈ met.observations)
    (memO : o ∈ met.observations) (recordR : standingOf r = .record)
    (recordO : standingOf o = .record) (lt : (rankOf r).compare (rankOf o) = .lt) :
    ranksAbove o r := by
  have standing : (rankOf r).standing = (rankOf o).standing := recordR.trans recordO.symm
  rw [Rank.compare, standing, Std.ReflOrd.compare_self, Ordering.eq_then,
    rankOf_pointId (met.ids r memR), rankOf_pointId (met.ids o memO)] at lt
  rcases Ordering.then_eq_lt.mp lt with newer | ⟨same, id⟩
  · exact .inl (Std.compare_eq_lt.mp newer)
  · exact .inr ⟨(Std.compare_eq_iff_eq.mp same).symm, compareOfLessAndEq_eq_lt.mp id⟩

/-- The window is right whatever was met but for the order, and there exactly when it is settled. -/
theorem window_right_iff (env : Env) (met : Met) : WindowRight env met ↔ Settled env met := by
  refine ⟨fun right => settled_of_order right.ordered, fun settled => ?_⟩
  have fed := met.fed env
  have count := met.length_listed env
  have above : ∀ r ∈ met.observations, r.point.isSome = true → r ∉ met.listed env →
      ∀ o ∈ met.listed env, (o.point.isSome = true ∧ ranksAbove o r) ∨
        (o.point.isSome = false ∧ displaceable o = false) := by
    intro r mem record absent o held
    have recorded := standing_record.mpr record
    rcases met.above env mem recorded absent o held with kept | ⟨here, lt⟩
    · exact .inr (standing_kept.mp kept)
    · exact .inl ⟨standing_record.mp here,
        ranksAbove_of_lt mem (listed_subset fed held) recorded here lt⟩
  refine ⟨by omega, fun fits o mem => (mem_listed fed).mpr (fed.room fits o mem),
    fun r mem record absent => ⟨?_, above r mem record absent⟩,
    fun r mem record absent o held => ?_, fun met' perm => settled_order perm settled⟩
  · by_contra space
    exact absent ((mem_listed fed).mpr (fed.room (by omega) r mem))
  · rcases above r mem record absent o held with ⟨recorded, _⟩ | ⟨_, stays⟩
    · rw [displaceable, if_pos recorded]
    · exact stays

def narrowEnv : Env :=
  let env := exampleEnv twoPoints .full none 100
  { env with req := { env.req with viewLimit := 1 } }

def torn : Observation :=
  .withoutRecord { recordKey := firstKey, pointId := "lwp1-00000000000000000000000000000000" }
    .unreadable (.of .record .malformed)

def sound : Observation :=
  Found.nothing.observed examplePoint { recordKey := secondKey, pointId := exampleId }

/-- Whichever of the two is met first is the one that is listed. -/
theorem order_decides : ¬ ∀ (env : Env) (met : Met), WindowRight env met := by
  intro right
  have ids : ∀ o ∈ [torn, sound], isPointId (entryId o) = true := by
    rintro o (_ | ⟨_, _ | ⟨_, mem⟩⟩)
    · decide +kernel
    · decide +kernel
    · exact absurd mem List.not_mem_nil
  let met : Met := { observations := [torn, sound], ids, distinct := by decide +kernel }
  have settled : Settled narrowEnv met := settled_of_order (right narrowEnv met).ordered
  have limit : viewLimitOf narrowEnv = 1 := rfl
  have kept : standingOf torn = .kept := rfl
  rcases settled with fits | none_ | ⟨plain, _⟩
  · rw [limit] at fits
    have both : met.observations.length = 2 := rfl
    omega
  · rw [limit] at none_
    exact absurd none_ (by decide)
  · exact plain torn List.mem_cons_self kept

end Logweir.CatalogSync
