import Logweir.CatalogSync.Resume
import Logweir.Library.TreeMaps

/-!
# The bounded window

The points that a walk lists, whatever it met: never more than the limit, all of them while they
fit, and no point with a record left out for one that ranks below it or gave no facts.  Which
points without a record are listed can depend on the order in which they were met.
-/

set_option autoImplicit false

namespace Logweir.CatalogSync

open Logweir.Catalog
open Std (TreeMap)

instance : Std.TransCmp Rank.compare :=
  inferInstanceAs (Std.TransCmp (compareLex (compareOn fun r : Rank => r.standing.place)
    (compareLex (compareOn Rank.recoveryPointAtMs) fun a b => compareOn Rank.pointId b a)))

theorem Standing.place_inj {s s' : Standing} (same : s.place = s'.place) : s = s' := by
  cases s <;> cases s' <;> first | rfl | exact absurd same (by decide)

instance : Std.LawfulEqCmp Rank.compare where
  eq_of_compare {a b} same := by
    simp only [Rank.compare, Ordering.then_eq_eq, Std.compare_eq_iff_eq] at same
    cases a
    cases b
    obtain ⟨standing, instant, id⟩ := same
    rw [Rank.mk.injEq]
    exact ⟨Standing.place_inj standing, instant, id.symm⟩

def entryId (o : Observation) : String := (o.point.map CatalogPoint.pointId).getD o.pointId

theorem redact_pointId {id : String} (valid : isPointId id = true) : Redaction.redact id = id := by
  obtain ⟨hex, chars, length, legal⟩ := isPointId_hex valid
  have front : ("lwp1-".toList.all fun c => c.isLower || c.isDigit || ['/', '-', '.'].contains c) =
      true := by decide
  have runs : ("lwp1-".toList.all Redaction.isRunChar) = true := by decide
  have plain : Redaction.PlainKey id.toList := by
    intro c mem
    rw [chars, List.mem_append] at mem
    rcases mem with fixed | digits
    · exact List.all_eq_true.mp front c fixed
    · rw [legal c digits, Bool.true_or]
  have run : ∀ c ∈ id.toList, Redaction.isRunChar c = true := by
    intro c mem
    rw [chars, List.mem_append] at mem
    rcases mem with fixed | digits
    · exact List.all_eq_true.mp runs c fixed
    · unfold Redaction.isRunChar Char.isAlphanum Char.isAlpha
      rcases Bool.or_eq_true _ _ ▸ legal c digits with lower | number
      · simp [lower]
      · simp [number]
  have size : id.toList.length = 37 := by
    rw [chars, List.length_append, length]
    rfl
  have short : Redaction.redactLongRuns id.toList = id.toList := by
    unfold Redaction.redactLongRuns Redaction.redactRunsAt
    have whole := Redaction.redactRunsFrom_run (fun start run =>
      (Redaction.topicNameSpans id.toList).any (fun r => decide (r.1 ≤ start ∧ start < r.2)) ||
        Redaction.isPublicIdentifier run) run 0 0 [] []
    rw [List.append_nil] at whole
    rw [whole, Redaction.redactRunsFrom, Redaction.writtenRun, List.nil_append, size,
      if_neg (by rw [Redaction.longRunMin]; omega)]
  rw [Redaction.redact, Redaction.applyRules, Redaction.redactShapes_plain plain, short,
    Redaction.cap, size, if_pos (by decide), String.ofList_toList]

structure Met where
  observations : List Observation
  ids : ∀ o ∈ observations, isPointId (entryId o) = true
  distinct : (observations.map entryId).Nodup

theorem rankOf_pointId {o : Observation} (valid : isPointId (entryId o) = true) :
    (rankOf o).pointId = entryId o := redact_pointId valid

def pushed (env : Env) (observations : List Observation) : Walk :=
  observations.foldl (fun w o => w.push env o) Walk.new

def bodyCompare (a b : Observation) : Ordering :=
  (Ord.compare (rankOf b).recoveryPointAtMs (rankOf a).recoveryPointAtMs).then
    (Ord.compare (rankOf a).pointId (rankOf b).pointId)

def Walk.listed (w : Walk) : List Observation :=
  (w.window.toList.map Prod.snd).mergeSort fun a b => (bodyCompare a b).isLE

/-- A newer recovery point, then a smaller id. -/
def ranksAbove (a b : Observation) : Prop :=
  (rankOf b).recoveryPointAtMs < (rankOf a).recoveryPointAtMs ∨
    ((rankOf a).recoveryPointAtMs = (rankOf b).recoveryPointAtMs ∧ entryId a < entryId b)

abbrev Window := TreeMap Rank Observation Rank.compare

def placed (viewLimit : Nat) (window : Window) (o : Observation) : Window :=
  if window.size < viewLimit then window.insert (rankOf o) o
  else
    match window.minKey? with
    | none => window
    | some least =>
        if standingOf o = .record ∧ least.compare (rankOf o) = .lt then
          (window.erase least).insert (rankOf o) o
        else window

theorem push_window (w : Walk) (env : Env) (o : Observation) :
    (w.push env o).window = placed env.req.viewLimit.toNat w.window o := by
  have same : (w.counted env o).window = w.window := rfl
  unfold Walk.push Walk.place placed
  simp only [same]
  split
  · rfl
  · cases w.window.minKey? with
    | none => rfl
    | some least =>
        simp only
        split
        · rfl
        · rfl

theorem pushed_window (env : Env) (observations : List Observation) :
    (pushed env observations).window =
      observations.foldl (placed env.req.viewLimit.toNat) ∅ := by
  suffices ∀ w : Walk, (observations.foldl (fun w o => w.push env o) w).window =
      observations.foldl (placed env.req.viewLimit.toNat) w.window from this Walk.new
  induction observations with
  | nil => exact fun _ => rfl
  | cons o observations ih =>
      intro w
      rw [List.foldl_cons, List.foldl_cons, ih, push_window]

/-- A window behind the points met so far. -/
structure Fed (viewLimit : Nat) (met : List Observation) (window : Window) : Prop where
  own : ∀ (k : Rank) (o : Observation), window[k]? = some o → k = rankOf o ∧ o ∈ met
  size_eq : window.size = min viewLimit met.length
  room : met.length ≤ viewLimit → ∀ o ∈ met, window[rankOf o]? = some o
  above : ∀ r ∈ met, standingOf r = .record → window[rankOf r]? = none →
    ∀ (k : Rank) (o : Observation), window[k]? = some o → standingOf o = .kept ∨
      (standingOf o = .record ∧ (rankOf r).compare (rankOf o) = .lt)

theorem Rank.place_le {a b : Rank} (le : (a.compare b).isLE = true) :
    a.standing.place ≤ b.standing.place := by
  by_contra above
  have gt : Ord.compare a.standing.place b.standing.place = .gt :=
    Nat.compare_eq_gt.mpr (Nat.lt_of_not_le above)
  rw [Rank.compare, gt] at le
  exact Bool.noConfusion le

theorem Rank.lt_of_le_of_ne {a b : Rank} (le : (a.compare b).isLE = true) (apart : a ≠ b) :
    a.compare b = .lt := by
  cases order : a.compare b with
  | lt => rfl
  | eq => exact absurd (Std.LawfulEqCmp.eq_of_compare order) apart
  | gt => rw [order] at le; exact Bool.noConfusion le

theorem Rank.le_of_lt {a b : Rank} (lt : a.compare b = .lt) : (a.compare b).isLE = true := by
  rw [lt]
  rfl

theorem Rank.not_lt {a b : Rank} (not : ¬ a.compare b = .lt) : (b.compare a).isLE = true := by
  have swap : b.compare a = (a.compare b).swap := Std.OrientedCmp.eq_swap
  rw [swap]
  cases order : a.compare b with
  | lt => exact absurd order not
  | eq => rfl
  | gt => rfl

theorem Fed.empty (viewLimit : Nat) : Fed viewLimit [] ∅ where
  own := fun k o found => by simp at found
  size_eq := by simp
  room := fun _ o mem => by simp at mem
  above := fun r mem => by simp at mem

section
variable {viewLimit : Nat} {met : List Observation} {window : Window} {o : Observation}

theorem Fed.insert (fed : Fed viewLimit met window) (fresh : ∀ m ∈ met, rankOf m ≠ rankOf o)
    (space : window.size < viewLimit) :
    Fed viewLimit (met ++ [o]) (window.insert (rankOf o) o) := by
  have size := fed.size_eq
  have short : met.length < viewLimit := by omega
  have absent : rankOf o ∉ window := by
    intro mem
    obtain ⟨m, found⟩ := Option.isSome_iff_exists.mp (TreeMap.mem_iff_isSome_getElem?.mp mem)
    obtain ⟨same, member⟩ := fed.own _ _ found
    exact fresh m member same.symm
  have all : ∀ m ∈ met ++ [o], (window.insert (rankOf o) o)[rankOf m]? = some m := by
    intro m mem
    rw [TreeMap.getElem?_insert]
    rcases List.mem_append.mp mem with before | last
    · have apart : ¬ Rank.compare (rankOf o) (rankOf m) = .eq :=
        fun same => fresh m before (Std.LawfulEqCmp.eq_of_compare same).symm
      rw [if_neg apart]
      exact fed.room (Nat.le_of_lt short) m before
    · obtain rfl := List.mem_singleton.mp last
      rw [if_pos Std.ReflCmp.compare_self]
  refine ⟨fun k m found => ?_, ?_, fun _ => all, fun r mem _ none_ => ?_⟩
  · rw [TreeMap.getElem?_insert] at found
    split at found
    · rename_i same
      obtain rfl := Option.some.inj found
      exact ⟨(Std.LawfulEqCmp.eq_of_compare same).symm, List.mem_append_right _ (by simp)⟩
    · obtain ⟨key, member⟩ := fed.own k m found
      exact ⟨key, List.mem_append_left _ member⟩
  · rw [TreeMap.size_insert, if_neg (mt TreeMap.mem_iff_contains.mpr absent), List.length_append,
      List.length_singleton]
    omega
  · rw [all r mem] at none_
    exact absurd none_ (Option.some_ne_none _)

theorem Fed.skip (fed : Fed viewLimit met window) (full : viewLimit ≤ met.length)
    (fresh : ∀ m ∈ met, rankOf m ≠ rankOf o)
    (outranked : standingOf o = .record → ∀ (k : Rank) (m : Observation), window[k]? = some m →
      ((rankOf o).compare (rankOf m)).isLE = true) :
    Fed viewLimit (met ++ [o]) window := by
  refine ⟨fun k m found => ?_, ?_, fun short => ?_, fun r mem record none_ k m found => ?_⟩
  · obtain ⟨key, member⟩ := fed.own k m found
    exact ⟨key, List.mem_append_left _ member⟩
  · rw [fed.size_eq, List.length_append, List.length_singleton]
    omega
  · rw [List.length_append, List.length_singleton] at short
    omega
  · rcases List.mem_append.mp mem with before | last
    · exact fed.above r before record none_ k m found
    · obtain rfl := List.mem_singleton.mp last
      have le := outranked record k m found
      have lt := Rank.lt_of_le_of_ne le (Ne.symm (fresh m (fed.own k m found).2))
      have place : (standingOf r).place ≤ (standingOf m).place := Rank.place_le le
      rw [record] at place
      cases standing : standingOf m with
      | givesWay => rw [standing] at place; exact absurd place (by decide)
      | record => exact .inr ⟨rfl, lt⟩
      | kept => exact .inl rfl

theorem Fed.displace (fed : Fed viewLimit met window) (fresh : ∀ m ∈ met, rankOf m ≠ rankOf o)
    (full : viewLimit ≤ met.length) {least : Rank} (min : window.minKey? = some least)
    (record : standingOf o = .record) (lower : least.compare (rankOf o) = .lt) :
    Fed viewLimit (met ++ [o]) ((window.erase least).insert (rankOf o) o) := by
  obtain ⟨held, lowest⟩ := TreeMap.minKey?_eq_some_iff_mem_and_forall.mp min
  obtain ⟨m₀, found₀⟩ := Option.isSome_iff_exists.mp (TreeMap.mem_iff_isSome_getElem?.mp held)
  obtain ⟨key₀, met₀⟩ := fed.own _ _ found₀
  have least_le : ∀ (k : Rank) (m : Observation), window[k]? = some m → (least.compare k).isLE = true := fun k m found =>
    lowest k (TreeMap.mem_iff_isSome_getElem?.mpr (by rw [found]; rfl))
  have absent : rankOf o ∉ window.erase least := by
    intro mem
    obtain ⟨m, found⟩ := Option.isSome_iff_exists.mp (TreeMap.mem_iff_isSome_getElem?.mp
      (TreeMap.mem_of_mem_erase mem))
    obtain ⟨same, member⟩ := fed.own _ _ found
    exact fresh m member same.symm
  have held_new : ∀ (k : Rank) (m : Observation), ((window.erase least).insert (rankOf o) o)[k]? = some m →
      (k = rankOf o ∧ m = o) ∨ (window[k]? = some m ∧ k ≠ least) := by
    intro k m found
    rw [TreeMap.getElem?_insert] at found
    split at found
    · rename_i same
      exact .inl ⟨(Std.LawfulEqCmp.eq_of_compare same).symm, (Option.some.inj found).symm⟩
    · rw [TreeMap.getElem?_erase] at found
      split at found
      · exact absurd found.symm (Option.some_ne_none _)
      · rename_i apart
        exact .inr ⟨found, fun same => apart (same ▸ Std.ReflCmp.compare_self)⟩
  -- The least one gives way, so it is no kept entry.
  have place₀ : least.standing.place ≤ 1 := by
    have le : least.standing.place ≤ (standingOf o).place := Rank.place_le (Rank.le_of_lt lower)
    rw [record] at le
    exact le
  have pos : 0 < window.size := by
    rw [Nat.pos_iff_ne_zero]
    intro none_
    have empty : window.isEmpty = true := by rw [TreeMap.isEmpty_eq_size_eq_zero, none_]; rfl
    rw [TreeMap.minKey?_eq_none_iff.mpr empty] at min
    exact absurd min.symm (Option.some_ne_none _)
  have size := fed.size_eq
  refine ⟨fun k m found => ?_, ?_, fun short => ?_, fun r mem recorded none_ k m found => ?_⟩
  · rcases held_new k m found with ⟨rfl, rfl⟩ | ⟨before, _⟩
    · exact ⟨rfl, List.mem_append_right _ (by simp)⟩
    · obtain ⟨key, member⟩ := fed.own k m before
      exact ⟨key, List.mem_append_left _ member⟩
  · rw [TreeMap.size_insert, if_neg (mt TreeMap.mem_iff_contains.mpr absent), TreeMap.size_erase,
      if_pos (TreeMap.mem_iff_contains.mp held), List.length_append, List.length_singleton]
    omega
  · rw [List.length_append, List.length_singleton] at short
    omega
  · have ranked : ∀ m', window[k]? = some m' → k ≠ least →
        (standingOf r = .record → least = rankOf r → standingOf m' = .kept ∨
          (standingOf m' = .record ∧ (rankOf r).compare (rankOf m') = .lt)) := by
      rintro m' before apart recorded rfl
      obtain ⟨rfl, _⟩ := fed.own k m' before
      have le := least_le _ _ before
      have place : (standingOf r).place ≤ (standingOf m').place := Rank.place_le le
      rw [recorded] at place
      cases standing : standingOf m' with
      | givesWay => rw [standing] at place; exact absurd place (by decide)
      | record => exact .inr ⟨rfl, Rank.lt_of_le_of_ne le (Ne.symm apart)⟩
      | kept => exact .inl rfl
    rcases List.mem_append.mp mem with before | last
    · by_cases displaced : least = rankOf r
      · rcases held_new k m found with ⟨rfl, rfl⟩ | ⟨here, apart⟩
        · exact .inr ⟨record, displaced ▸ lower⟩
        · exact ranked m here apart recorded displaced
      · -- It was absent before, so what stood lowest ranked above it already.
        have gone : window[rankOf r]? = none := by
          have apart : ¬ Rank.compare (rankOf o) (rankOf r) = .eq :=
            fun same => fresh r before (Std.LawfulEqCmp.eq_of_compare same).symm
          have apart' : ¬ Rank.compare least (rankOf r) = .eq :=
            fun same => displaced (Std.LawfulEqCmp.eq_of_compare same)
          rw [TreeMap.getElem?_insert, if_neg apart, TreeMap.getElem?_erase, if_neg apart'] at none_
          exact none_
        rcases held_new k m found with ⟨rfl, rfl⟩ | ⟨here, _⟩
        · rcases fed.above r before recorded gone least m₀ found₀ with kept | ⟨_, lt⟩
          · rw [key₀] at place₀
            change (standingOf m₀).place ≤ 1 at place₀
            rw [kept] at place₀
            exact absurd place₀ (by decide)
          · rw [← key₀] at lt
            exact .inr ⟨record, Std.TransCmp.lt_trans lt lower⟩
        · exact fed.above r before recorded gone k m here
    · obtain rfl := List.mem_singleton.mp last
      rw [TreeMap.getElem?_insert, if_pos Std.ReflCmp.compare_self] at none_
      exact absurd none_ (Option.some_ne_none _)

theorem Fed.placed (fed : Fed viewLimit met window) (fresh : ∀ m ∈ met, rankOf m ≠ rankOf o) :
    Fed viewLimit (met ++ [o]) (placed viewLimit window o) := by
  have size := fed.size_eq
  unfold CatalogSync.placed
  split
  · rename_i space
    exact fed.insert fresh space
  · rename_i full
    split
    · rename_i none_
      have empty := TreeMap.minKey?_eq_none_iff.mp none_
      refine fed.skip (by omega) fresh fun _ k m found => ?_
      rw [TreeMap.getElem?_of_isEmpty empty] at found
      exact absurd found.symm (Option.some_ne_none _)
    · rename_i least min
      split
      · rename_i lower
        exact fed.displace fresh (by omega) min lower.1 lower.2
      · rename_i stays
        refine fed.skip (by omega) fresh fun record k m found => ?_
        have lowest := (TreeMap.minKey?_eq_some_iff_mem_and_forall.mp min).2
        obtain ⟨rfl, _⟩ := fed.own k m found
        have under := Rank.not_lt fun lt => stays ⟨record, lt⟩
        exact Std.TransCmp.isLE_trans under
          (lowest _ (TreeMap.mem_iff_isSome_getElem?.mpr (by rw [found]; rfl)))

end

end Logweir.CatalogSync
