import Logweir.Retention.Evaluated

/-!
# The order of the input

What an evaluation finds of distinct points is a function of the set of points and of the set of
holds: neither the order the points are listed in nor that of the holds shows in it.  The groups'
roots do depend on the order, which rows they join does not.
-/

set_option autoImplicit false

namespace Logweir.Retention

open Logweir.Grouping Logweir.Ordered
open Relation (EqvGen)

/-- The same input, its points and its holds listed in another order. -/
structure Reordered (a b : Input) : Prop where
  points : a.points.Perm b.points
  holds : a.holds.Perm b.holds
  distinct : (a.points.map PointFacts.pointId).Nodup
  rest : b = { a with points := b.points, holds := b.holds }

section

variable {a b : Input} {r s r' s' : Row}

theorem Reordered.destination (re : Reordered a b) : b.destination = a.destination :=
  by
  rw [re.rest]

theorem Reordered.rules (re : Reordered a b) : b.rules = a.rules := by
  rw [re.rest]

theorem Reordered.protection (re : Reordered a b) : b.protection = a.protection :=
  by
  rw [re.rest]

theorem Reordered.now (re : Reordered a b) : b.now = a.now := by
  rw [re.rest]

theorem Reordered.ceiling (re : Reordered a b) : b.maxDeletionsPerRun = a.maxDeletionsPerRun :=
  by
  rw [re.rest]

theorem Reordered.symm (re : Reordered a b) : Reordered b a := by
  refine ⟨re.points.symm, re.holds.symm, ((re.points.map _).nodup_iff).mp re.distinct, ?_⟩
  rw [re.rest]

theorem row_of_reordered (re : Reordered a b) (member : r ∈ rowsOf a) :
    ∃ r' ∈ rowsOf b, r'.point = r.point := by
  refine row_of_point (re.points.mem_iff.mp ?_)
  rw [← points_rowsOf a]
  exact List.mem_map_of_mem member

theorem here_of_reordered (re : Reordered a b) (member : r ∈ here a) :
    ∃ r' ∈ here b, r'.point = r.point := by
  obtain ⟨row, located⟩ := mem_here.mp member
  obtain ⟨r', row', same⟩ := row_of_reordered re row
  exact ⟨r', mem_here.mpr ⟨row', by rwa [same, re.destination]⟩, same⟩

theorem locationLess_of_reordered (re : Reordered a b) (member : r ∈ locationLess a) :
    ∃ r' ∈ locationLess b, r'.point = r.point := by
  obtain ⟨row, none_⟩ := mem_locationLess.mp member
  obtain ⟨r', row', same⟩ := row_of_reordered re row
  exact ⟨r', mem_locationLess.mpr ⟨row', by rwa [same]⟩, same⟩

theorem grouped_of_reordered (re : Reordered a b) (member : r ∈ grouped a) :
    ∃ r' ∈ grouped b, r'.point = r.point := by
  rcases List.mem_append.mp member with held | none_
  · obtain ⟨r', held', same⟩ := here_of_reordered re held
    exact ⟨r', List.mem_append_left _ held', same⟩
  · obtain ⟨r', none_', same⟩ := locationLess_of_reordered re none_
    exact ⟨r', List.mem_append_right _ none_', same⟩

theorem eq_of_point (distinct : (a.points.map PointFacts.pointId).Nodup) (member : r ∈ grouped a)
    (member' : s ∈ grouped a) (same : r.point = s.point) : r = s :=
  row_eq distinct (mem_grouped.mp member).1 (mem_grouped.mp member').1 (congrArg PointFacts.pointId same)

theorem points_filter (input : Input) (keep : PointFacts → Bool) :
    ((rowsOf input).filter fun r => keep r.point).map Row.point = input.points.filter keep := by
  rw [← points_rowsOf input, List.filter_map]
  rfl

theorem points_here (input : Input) : (here input).map Row.point =
    input.points.filter fun p => p.locations.contains input.destination.locationId :=
  points_filter input fun p => p.locations.contains input.destination.locationId

theorem perm_here (re : Reordered a b) : ((here a).map Row.point).Perm ((here b).map Row.point) := by
  rw [points_here, points_here, re.destination]
  exact re.points.filter _

theorem perm_grouped (re : Reordered a b) :
    ((grouped a).map Row.point).Perm ((grouped b).map Row.point) := by
  have none_ (input : Input) : (locationLess input).map Row.point =
      input.points.filter fun p => p.locations.isEmpty :=
    points_filter input fun p => p.locations.isEmpty
  unfold grouped
  rw [List.map_append, List.map_append, none_, none_]
  exact (perm_here re).append (re.points.filter _)

/-- `newer`, of points. -/
def newerPoint (p q : PointFacts) : Prop :=
  q.recoveryPointAtMs < p.recoveryPointAtMs ∨
    (q.recoveryPointAtMs = p.recoveryPointAtMs ∧ p.pointId ≤ q.pointId)

instance : DecidableRel newerPoint := fun p q => by
  unfold newerPoint
  infer_instance

instance : Std.Total newerPoint where
  total p q := by
    unfold newerPoint
    rcases lt_trichotomy p.recoveryPointAtMs q.recoveryPointAtMs with lt | same | lt
    · exact .inr (.inl lt)
    · exact (le_total p.pointId q.pointId).imp (fun le => .inr ⟨same.symm, le⟩)
        fun le => .inr ⟨same, le⟩
    · exact .inl (.inl lt)

instance : IsTrans PointFacts newerPoint where
  trans p q s first second := by
    unfold newerPoint at *
    rcases first with lt | ⟨same, le⟩
    · rcases second with lt' | ⟨same', -⟩
      · exact .inl (lt'.trans lt)
      · exact .inl (same' ▸ lt)
    · rcases second with lt' | ⟨same', le'⟩
      · exact .inl (same ▸ lt')
      · exact .inr ⟨same'.trans same, le.trans le'⟩

theorem points_usable (input : Input) : (usable input).map Row.point =
    ((((here input).map Row.point).filter fun p => (skipReason p).isNone)).insertionSort newerPoint := by
  unfold usable
  rw [List.map_insertionSort newer newerPoint Row.point _ fun r _ s _ => Iff.rfl, List.filter_map]
  rfl

theorem nodup_ids_here (distinct : (a.points.map PointFacts.pointId).Nodup) :
    (((here a).map Row.point).map PointFacts.pointId).Nodup := by
  rw [points_here]
  exact distinct.sublist (List.filter_sublist.map _)

theorem usable_reordered (re : Reordered a b) :
    (usable a).map Row.point = (usable b).map Row.point := by
  rw [points_usable, points_usable]
  refine insertionSort_perm ((perm_here re).filter _) fun p member q member' first second => ?_
  refine List.inj_on_of_nodup_map (nodup_ids_here re.distinct) (List.mem_filter.mp member).1
    (List.mem_filter.mp member').1 ?_
  unfold newerPoint at first second
  rcases first with lt | ⟨same, le⟩
  · rcases second with lt' | ⟨same', -⟩
    · exact absurd lt' lt.not_gt
    · exact absurd same' lt.ne'
  · rcases second with lt' | ⟨-, le'⟩
    · exact absurd same lt'.ne'
    · exact le_antisymm le le'

theorem ruled_reordered (re : Reordered a b) (rank : Nat) (p : PointFacts) :
    ruled a rank p = ruled b rank p := by
  have held : (b.holds.any fun h => h.inForce a.now && h.pointId == p.pointId) =
      a.holds.any fun h => h.inForce a.now && h.pointId == p.pointId := re.holds.symm.any_eq
  unfold ruled beyondRank tooOld cutoffMs
  rw [re.rules, re.protection, re.now, held]

def reading (v : Row × Mark) : PointFacts × Mark := (v.1.point, v.2)

theorem verdicts_reading (input : Input) : (verdicts input).map reading =
    ((usable input).map Row.point).zipIdx.map fun e => (e.1, ruled input e.2 e.1) := by
  rw [List.zipIdx_map, verdicts, List.map_map, List.map_map]
  rfl

theorem verdicts_reordered (re : Reordered a b) :
    (verdicts a).map reading = (verdicts b).map reading := by
  rw [verdicts_reading, verdicts_reading, usable_reordered re]
  exact List.map_congr_left fun e _ => by rw [ruled_reordered re]

theorem mem_of_linked {rows : List Row} (linked : EqvGen (Linked rows) r s) : r ∈ rows ↔ s ∈ rows := by
  induction linked with
  | rel r s related => exact iff_of_true related.1 related.2.1
  | refl r => exact Iff.rfl
  | symm r s _ ih => exact ih.symm
  | trans r m s _ _ first second => exact first.trans second

theorem linked_reordered (re : Reordered a b) (linked : EqvGen (Linked (grouped a)) r s)
    (member' : r' ∈ grouped b) (same : r'.point = r.point) (other' : s' ∈ grouped b)
    (alike : s'.point = s.point) (member : r ∈ grouped a) : EqvGen (Linked (grouped b)) r' s' := by
  induction linked generalizing r' s' with
  | rel r s related =>
      obtain ⟨-, -, link, mine, yours⟩ := related
      exact .rel r' s' ⟨member', other', link, same ▸ mine, alike ▸ yours⟩
  | refl r =>
      have one := eq_of_point re.symm.distinct member' other' (same.trans alike.symm)
      exact one ▸ .refl r'
  | symm r s joined ih =>
      exact (ih other' alike member' same ((mem_of_linked joined).mpr member)).symm
  | trans r m s first _ ih ih' =>
      have middle := (mem_of_linked first).mp member
      obtain ⟨m', there, equal⟩ := grouped_of_reordered re middle
      exact (ih member' same there equal member).trans _ _ _ (ih' there equal other' alike middle)

/-- Rows of the same point, each grouped in its own order. -/
def Twin (a b : Input) (r r' : Row) : Prop := r ∈ grouped a ∧ r' ∈ grouped b ∧ r.point = r'.point

theorem Twin.symm (twin : Twin a b r r') : Twin b a r' r := ⟨twin.2.1, twin.1, twin.2.2.symm⟩

theorem group_reordered (re : Reordered a b) (twin : Twin a b r r') (twin' : Twin a b s s') :
    ofPoint (inputGroups a) r = ofPoint (inputGroups a) s ↔
      ofPoint (inputGroups b) r' = ofPoint (inputGroups b) s' := by
  unfold inputGroups
  rw [ofPoint_eq_iff (addrs_grouped a) twin.1 twin'.1,
    ofPoint_eq_iff (addrs_grouped b) twin.2.1 twin'.2.1]
  constructor
  · exact fun linked => linked_reordered re linked twin.2.1 twin.2.2.symm twin'.2.1 twin'.2.2.symm twin.1
  · exact fun linked => linked_reordered re.symm linked twin.1 twin.2.2 twin'.1 twin'.2.2 twin.2.1

theorem grouped_of_verdict {v : Row × Mark} (member : v ∈ verdicts a) : v.1 ∈ grouped a :=
  List.mem_append_left _ (mem_usable.mp (mem_verdicts member).1).1

def Alike (a b : Input) (v v' : Row × Mark) : Prop := Twin a b v.1 v'.1 ∧ v.2 = v'.2

theorem alike_verdicts (re : Reordered a b) :
    List.Forall₂ (Alike a b) (verdicts a) (verdicts b) := by
  refine (forall₂_of_map_eq (verdicts_reordered re)).imp fun v v' ⟨member, member', same⟩ => ?_
  obtain ⟨point, mark⟩ := Prod.mk.inj same
  exact ⟨⟨grouped_of_verdict member, grouped_of_verdict member', point⟩, mark⟩

/-- A row that stays whatever the rules say. -/
def Stays (a : Input) (r : Row) : Prop :=
  (∃ mark, (r, mark) ∈ verdicts a ∧ mark.isCandidate = false) ∨
    (r ∈ here a ∧ skipReason r.point ≠ none) ∨ r ∈ locationLess a

theorem mem_retainedGroups {group : Nat} : group ∈ retainedGroups a (inputGroups a) ↔
    ∃ r, Stays a r ∧ ofPoint (inputGroups a) r = group := by
  unfold retainedGroups
  rw [List.mem_map]
  refine exists_congr fun r => and_congr_left fun _ => ?_
  simp only [List.mem_append, List.mem_map, List.mem_filter, Prod.exists, exists_and_right,
    exists_eq_right, Stays, or_assoc, Option.isSome_iff_ne_none, Bool.not_eq_true']

theorem stays_reordered (re : Reordered a b) (stays : Stays a r) : ∃ r', Stays b r' ∧ Twin a b r r' := by
  rcases stays with ⟨mark, member, plain⟩ | ⟨held, skipped⟩ | none_
  · have there : reading (r, mark) ∈ (verdicts b).map reading :=
      verdicts_reordered re ▸ List.mem_map_of_mem member
    obtain ⟨⟨r', mark'⟩, member', same⟩ := List.mem_map.mp there
    obtain ⟨point, rfl⟩ := Prod.mk.inj same
    exact ⟨r', .inl ⟨_, member', plain⟩, grouped_of_verdict member, grouped_of_verdict member',
      point.symm⟩
  · obtain ⟨r', held', same⟩ := here_of_reordered re held
    exact ⟨r', .inr (.inl ⟨held', by rwa [same]⟩), List.mem_append_left _ held,
      List.mem_append_left _ held', same.symm⟩
  · obtain ⟨r', none_', same⟩ := locationLess_of_reordered re none_
    exact ⟨r', .inr (.inr none_'), List.mem_append_right _ none_, List.mem_append_right _ none_',
      same.symm⟩

theorem retained_of_reordered (re : Reordered a b) (twin : Twin a b r r')
    (retained : ofPoint (inputGroups a) r ∈ retainedGroups a (inputGroups a)) :
    ofPoint (inputGroups b) r' ∈ retainedGroups b (inputGroups b) := by
  obtain ⟨s, stays, one⟩ := mem_retainedGroups.mp retained
  obtain ⟨s', stays', twin'⟩ := stays_reordered re stays
  exact mem_retainedGroups.mpr ⟨s', stays', (group_reordered re twin' twin).mp one⟩

theorem retained_reordered (re : Reordered a b) (twin : Twin a b r r') :
    (retainedGroups a (inputGroups a)).contains (ofPoint (inputGroups a) r) =
      (retainedGroups b (inputGroups b)).contains (ofPoint (inputGroups b) r') := by
  rw [Bool.eq_iff_iff, List.contains_iff_mem, List.contains_iff_mem]
  exact ⟨retained_of_reordered re twin, retained_of_reordered re.symm twin.symm⟩

theorem alike_marked (re : Reordered a b) : List.Forall₂ (Alike a b) (marked a) (marked b) := by
  unfold marked sharedVerdicts
  rw [List.forall₂_map_left_iff, List.forall₂_map_right_iff]
  refine (alike_verdicts re).imp fun v v' alike => ?_
  obtain ⟨row, mark⟩ := v
  obtain ⟨row', mark'⟩ := v'
  obtain ⟨twin, rfl⟩ : Twin a b row row' ∧ mark = mark' := alike
  dsimp only
  rw [retained_reordered re twin]
  split_ifs with shared
  · exact ⟨twin, rfl⟩
  · exact ⟨twin, rfl⟩

theorem groupSize_reordered (re : Reordered a b) (twin : Twin a b r r') :
    groupSize (inputGroups a) (marked a) (ofPoint (inputGroups a) r) =
      groupSize (inputGroups b) (marked b) (ofPoint (inputGroups b) r') := by
  refine countP_of_forall₂ (alike_marked re) fun v v' ⟨twin', mark⟩ => ?_
  rw [mark, decide_eq_decide.mpr (group_reordered re twin' twin)]

/-- Two projections that have found the same, and decided the same groups alike. -/
structure Abreast (a b : Input) (s s' : Selection) : Prop where
  kept : s.kept = s'.kept
  heldBack : s.heldBack = s'.heldBack
  protectedPoints : s.protectedPoints = s'.protectedPoints
  candidates : s.candidates = s'.candidates
  selected : s.selected = s'.selected
  taken : ∀ r r', Twin a b r r' →
    s.taken.lookup (ofPoint (inputGroups a) r) = s'.taken.lookup (ofPoint (inputGroups b) r')

variable {size size' : Nat → Nat} {cap : Nat} {t t' : Selection} {v v' : Row × Mark}

theorem lookup_decided (re : Reordered a b) (abreast : Abreast a b t t') (twin : Twin a b r r')
    (take : Bool) (twin' : Twin a b s s') :
    ((ofPoint (inputGroups a) r, take) :: t.taken).lookup (ofPoint (inputGroups a) s) =
      ((ofPoint (inputGroups b) r', take) :: t'.taken).lookup (ofPoint (inputGroups b) s') := by
  rw [List.lookup_cons, List.lookup_cons, abreast.taken s s' twin']
  have same : (ofPoint (inputGroups a) s == ofPoint (inputGroups a) r) =
      (ofPoint (inputGroups b) s' == ofPoint (inputGroups b) r') := by
    rw [Bool.eq_iff_iff, beq_iff_eq, beq_iff_eq]
    exact group_reordered re twin' twin
  rw [same]

theorem abreast_takeGroup (cap : Nat) (re : Reordered a b) (abreast : Abreast a b t t') (twin : Twin a b r r')
    (sizes : size (ofPoint (inputGroups a) r) = size' (ofPoint (inputGroups b) r')) :
    (takeGroup size cap t (ofPoint (inputGroups a) r)).1 =
        (takeGroup size' cap t' (ofPoint (inputGroups b) r')).1 ∧
      Abreast a b (takeGroup size cap t (ofPoint (inputGroups a) r)).2
        (takeGroup size' cap t' (ofPoint (inputGroups b) r')).2 := by
  unfold takeGroup
  rw [← abreast.taken r r' twin, ← sizes, ← abreast.selected]
  cases t.taken.lookup (ofPoint (inputGroups a) r) with
  | some take => exact ⟨rfl, abreast⟩
  | none =>
      dsimp only
      split_ifs with fits
      · exact ⟨rfl, abreast.kept, abreast.heldBack, abreast.protectedPoints, abreast.candidates,
          rfl, fun _ _ => lookup_decided re abreast twin true⟩
      · exact ⟨rfl, abreast.kept, abreast.heldBack, abreast.protectedPoints, abreast.candidates,
          rfl, fun _ _ => lookup_decided re abreast twin false⟩

theorem abreast_project (re : Reordered a b) (abreast : Abreast a b t t') (alike : Alike a b v v')
    (sizes : size (ofPoint (inputGroups a) v.1) = size' (ofPoint (inputGroups b) v'.1)) :
    Abreast a b (project (inputGroups a) size cap t v) (project (inputGroups b) size' cap t' v') := by
  obtain ⟨row, mark⟩ := v
  obtain ⟨row', mark'⟩ := v'
  obtain ⟨twin, rfl⟩ : Twin a b row row' ∧ mark = mark' := alike
  have point := twin.2.2
  unfold project
  dsimp only
  cases mark with
  | kept =>
      exact ⟨by rw [abreast.kept, point], abreast.heldBack, abreast.protectedPoints,
        abreast.candidates, abreast.selected, abreast.taken⟩
  | sheltered reason =>
      exact ⟨by rw [abreast.kept, point], abreast.heldBack, by rw [abreast.protectedPoints, point],
        abreast.candidates, abreast.selected, abreast.taken⟩
  | candidate reason =>
      obtain ⟨take, after⟩ := abreast_takeGroup cap re abreast twin sizes
      dsimp only
      rw [take]
      split_ifs with takes
      · exact ⟨after.kept, after.heldBack, after.protectedPoints, by rw [after.candidates, point],
          after.selected, after.taken⟩
      · exact ⟨after.kept, by rw [after.heldBack, point], after.protectedPoints, after.candidates,
          after.selected, after.taken⟩

theorem abreast_foldl (re : Reordered a b) {more more' : List (Row × Mark)}
    (alike : List.Forall₂ (Alike a b) more more') (abreast : Abreast a b t t')
    (sizes : ∀ r r', Twin a b r r' →
      size (ofPoint (inputGroups a) r) = size' (ofPoint (inputGroups b) r')) :
    Abreast a b (more.foldl (project (inputGroups a) size cap) t)
      (more'.foldl (project (inputGroups b) size' cap) t') := by
  induction alike generalizing t t' with
  | nil => exact abreast
  | cons head _ ih => exact ih (abreast_project re abreast head (sizes _ _ head.1))

theorem abreast_selection (re : Reordered a b) : Abreast a b (selection a) (selection b) := by
  have start : Abreast a b {} {} := ⟨rfl, rfl, rfl, rfl, rfl, fun _ _ _ => rfl⟩
  have ceiling : capOf b = capOf a := by unfold capOf; rw [re.ceiling]
  unfold selection
  dsimp only
  rw [ceiling]
  exact abreast_foldl re (alike_marked re) start fun r r' twin => groupSize_reordered re twin

theorem setOf_perm {texts texts' : List String} (same : texts.Perm texts') :
    setOf texts = setOf texts' := by
  unfold setOf
  rw [insertionSort_perm same fun _ _ _ _ => le_antisymm]

theorem byId_perm {α : Type} {listed listed' : List (String × α)} (same : listed.Perm listed')
    (distinct : (listed.map Prod.fst).Nodup) : byId listed = byId listed' := by
  have total : Std.Total fun x y : String × α => x.1 ≤ y.1 := ⟨fun x y => le_total x.1 y.1⟩
  have trans : IsTrans (String × α) fun x y => x.1 ≤ y.1 := ⟨fun x y z => le_trans⟩
  exact insertionSort_perm same fun x member y member' le ge =>
    List.inj_on_of_nodup_map distinct member member' (le_antisymm le ge)

def skipOf (p : PointFacts) : Option (String × SkipReason) :=
  (skipReason p).map fun why => (p.pointId, why)

theorem ids_skipped (points : List PointFacts) :
    ((points.filterMap skipOf).map Prod.fst).Sublist (points.map PointFacts.pointId) := by
  induction points with
  | nil => exact List.Sublist.refl _
  | cons p points ih =>
      cases why : skipReason p with
      | none =>
          rw [List.filterMap_cons_none (by simp [skipOf, why]), List.map_cons]
          exact ih.cons _
      | some reason =>
          rw [List.filterMap_cons_some (b := (p.pointId, reason)) (by simp [skipOf, why]), List.map_cons,
            List.map_cons]
          exact ih.cons_cons _

theorem skipped_reordered (re : Reordered a b) :
    byId ((here a).filterMap fun r => (skipReason r.point).map fun why => (r.point.pointId, why)) =
      byId ((here b).filterMap fun r => (skipReason r.point).map fun why => (r.point.pointId, why)) := by
  have listed (input : Input) : ((here input).filterMap fun r =>
      (skipReason r.point).map fun why => (r.point.pointId, why)) =
      ((here input).map Row.point).filterMap skipOf := by
    rw [List.filterMap_map]
    rfl
  rw [listed, listed]
  exact byId_perm ((perm_here re).filterMap skipOf)
    ((nodup_ids_here re.distinct).sublist (ids_skipped _))

theorem retainedOf_reordered (re : Reordered a b) (chosen : List String) :
    retainedOf (grouped a) chosen = retainedOf (grouped b) chosen := by
  have left (input : Input) :
      ((grouped input).filter fun r => !chosen.contains r.point.pointId).map Row.point =
        ((grouped input).map Row.point).filter fun p => !chosen.contains p.pointId := by
    rw [List.filter_map]
    rfl
  have same : (((grouped a).filter fun r => !chosen.contains r.point.pointId).map Row.point).Perm
      (((grouped b).filter fun r => !chosen.contains r.point.pointId).map Row.point) := by
    rw [left, left]
    exact (perm_grouped re).filter _
  have sets := setOf_perm (same.map PointFacts.backupId)
  have keys := setOf_perm (same.flatMap_right PointFacts.keys)
  rw [List.map_map, List.map_map] at sets
  rw [List.flatMap_map, List.flatMap_map] at keys
  unfold retainedOf
  exact congr (congrArg RetainedObjects.mk sets) keys

theorem evaluate_reordered (re : Reordered a b) : evaluate a = evaluate b := by
  have abreast := abreast_selection re
  have counted : (here a).length = (here b).length := by
    simpa using (perm_here re).length_eq
  unfold evaluate
  dsimp only
  rw [counted, abreast.kept, abreast.candidates, abreast.heldBack, abreast.protectedPoints,
    skipped_reordered re, retainedOf_reordered re]

end

end Logweir.Retention
