import Logweir.Library.Grouping
import Logweir.Retention.Writer
import Mathlib.Algebra.Order.BigOperators.Group.List
import Mathlib.Algebra.Ring.Nat

/-!
# Groups and the ceiling

Rows that share a set or a key are in one group, and the projection takes a group whole or
leaves it whole, within the ceiling.
-/

set_option autoImplicit false

namespace Logweir.Retention

open Logweir.UnionFind Logweir.Grouping
open Relation (EqvGen)

/-- Every element met so far has the root of the first one with its link. -/
structure Joined (done : List (Nat × String)) (s : Joining) (root depth : Nat → Nat) : Prop where
  forest : Forest s.parent root depth
  shallow : ∀ k, depth k ≤ done.length
  joined : ∀ i link, (i, link) ∈ done → ∃ j, s.firstWith.lookup link = some j ∧ root i = root j

/-- Two elements were met with one link. -/
def Touch (done : List (Nat × String)) (i j : Nat) : Prop := ∃ link, (i, link) ∈ done ∧ (j, link) ∈ done

structure JoinedOnly (done : List (Nat × String)) (s : Joining) (root depth : Nat → Nat) : Prop
    extends Joined done s root depth where
  met : ∀ link j, s.firstWith.lookup link = some j → (j, link) ∈ done
  only : ∀ k l, root k = root l → EqvGen (Touch done) k l

section

variable {done : List (Nat × String)} {s : Joining} {root depth : Nat → Nat} {fuel i : Nat}
  {link : String} {rows : List Row}

theorem touch_append {e : Nat × String} {k l : Nat} (joined : EqvGen (Touch done) k l) :
    EqvGen (Touch (done ++ [e])) k l :=
  joined.mono fun _ _ ⟨link, left, right⟩ =>
    ⟨link, List.mem_append_left _ left, List.mem_append_left _ right⟩

theorem joined_joinLink (held : JoinedOnly done s root depth) (enough : done.length ≤ fuel) :
    ∃ root' depth', JoinedOnly (done ++ [(i, link)]) (joinLink fuel s i link) root' depth' := by
  have last : (i, link) ∈ done ++ [(i, link)] := List.mem_append_right _ (List.mem_singleton_self _)
  unfold joinLink
  cases found : s.firstWith.lookup link with
  | some j =>
      obtain ⟨root', depth', forest, exactly, deeper⟩ := union_exact held.forest
        (fun k => Nat.le_trans (held.shallow k) enough) i j
      have one : root' i = root' j := (exactly i j).mpr (.inr (.inl ⟨rfl, rfl⟩))
      have met : EqvGen (Touch (done ++ [(i, link)])) i j :=
        .rel i j ⟨link, last, List.mem_append_left _ (held.met link j found)⟩
      refine ⟨root', depth', ⟨⟨forest, fun k => ?_, fun i' link' member => ?_⟩, fun link' j' first => ?_,
        fun k l alike => ?_⟩⟩
      · have before := held.shallow k
        have after := deeper k
        rw [List.length_append, List.length_singleton]
        omega
      · rcases List.mem_append.mp member with early | late
        · obtain ⟨j', first, same⟩ := held.joined i' link' early
          exact ⟨j', first, (exactly i' j').mpr (.inl same)⟩
        · obtain ⟨rfl, rfl⟩ := Prod.mk.inj (List.mem_singleton.mp late)
          exact ⟨j, found, one⟩
      · exact List.mem_append_left _ (held.met link' j' first)
      · rcases (exactly k l).mp alike with old | ⟨left, right⟩ | ⟨left, right⟩
        · exact touch_append (held.only k l old)
        · have before := touch_append (e := (i, link)) (held.only k i left)
          exact (before.trans _ _ _ met).trans _ _ _ (touch_append (held.only l j right)).symm
        · have before := touch_append (e := (i, link)) (held.only k j left)
          exact (before.trans _ _ _ met.symm).trans _ _ _ (touch_append (held.only l i right)).symm
  | none =>
      refine ⟨root, depth, ⟨⟨held.forest, fun k => ?_, fun i' link' member => ?_⟩,
        fun link' j' first => ?_, fun k l alike => touch_append (held.only k l alike)⟩⟩
      · exact Nat.le_trans (held.shallow k) (by simp)
      · rcases List.mem_append.mp member with early | late
        · obtain ⟨j', first, same⟩ := held.joined i' link' early
          have other : link' ≠ link := fun clash => by
            rw [clash, found] at first
            cases first
          refine ⟨j', ?_, same⟩
          rw [List.lookup_cons, beq_false_of_ne other]
          exact first
        · obtain ⟨rfl, rfl⟩ := Prod.mk.inj (List.mem_singleton.mp late)
          exact ⟨i', by simp, rfl⟩
      · by_cases new : link' = link
        · subst new
          rw [List.lookup_cons, beq_self_eq_true] at first
          cases first
          exact last
        · rw [List.lookup_cons, beq_false_of_ne new] at first
          exact List.mem_append_left _ (held.met link' j' first)

theorem joined_foldl (more : List (Nat × String)) (held : JoinedOnly done s root depth)
    (enough : done.length + more.length ≤ fuel) : ∃ root' depth',
      JoinedOnly (done ++ more) (more.foldl (fun s (i, link) => joinLink fuel s i link) s) root'
        depth' := by
  induction more generalizing done s root depth with
  | nil => exact ⟨root, depth, by simpa using held⟩
  | cons e more ih =>
      obtain ⟨i, link⟩ := e
      rw [List.length_cons] at enough
      obtain ⟨root₁, depth₁, held₁⟩ := joined_joinLink (i := i) held (by omega : done.length ≤ fuel)
      rw [List.append_cons]
      exact ih held₁ (by rw [List.length_append, List.length_singleton]; omega)

theorem joined_joinAll (rows : List Row) :
    ∃ root depth, JoinedOnly (rowLinks rows) (joinAll rows) root depth := by
  have start : JoinedOnly [] {} (fun i => i) (fun _ => 0) :=
    ⟨⟨forest_alone, by simp, by simp⟩, by simp, fun k l same => by cases same; exact .refl k⟩
  have all := joined_foldl (rowLinks rows) start (by simp : _ ≤ (rowLinks rows).length)
  rwa [List.nil_append] at all

theorem rootsFrom_eq {parent : Parents} (forest : Forest parent root depth)
    (enough : ∀ k, depth k ≤ fuel) (listed : List (Row × Nat)) :
    rootsFrom fuel parent listed = listed.map fun r => (r.1.addr, root r.2) := by
  induction listed generalizing parent with
  | nil => rfl
  | cons r listed ih =>
      obtain ⟨found, kept⟩ := find_spec forest (enough r.2)
      rw [rootsFrom, List.map_cons, found, ih kept]

theorem addrs_zipIdx (rows : List Row) : rows.zipIdx.map (fun r => r.1.addr) = rows.map Row.addr := by
  calc rows.zipIdx.map (fun r => r.1.addr)
      = (rows.zipIdx.map Prod.fst).map Row.addr := by rw [List.map_map]; rfl
    _ = rows.map Row.addr := by rw [List.zipIdx_map_fst]

theorem groups_eq (distinct : (rows.map Row.addr).Nodup) : ∃ root depth,
    JoinedOnly (rowLinks rows) (joinAll rows) root depth ∧
      ∀ r i, rows[i]? = some r → ofPoint (groupsOf rows) r = root i := by
  obtain ⟨root, depth, held⟩ := joined_joinAll rows
  have roots : groupsOf rows = rows.zipIdx.map fun r => (r.1.addr, root r.2) :=
    rootsFrom_eq held.forest held.shallow rows.zipIdx
  have keys : ((groupsOf rows).map Prod.fst).Nodup := by
    rw [roots, List.map_map]
    have firsts := addrs_zipIdx rows
    exact firsts ▸ distinct
  refine ⟨root, depth, held, fun r i at_ => ?_⟩
  have entry : (r.addr, root i) ∈ groupsOf rows := by
    rw [roots]
    exact List.mem_map.mpr ⟨(r, i), List.mk_mem_zipIdx_iff_getElem?.mpr at_, rfl⟩
  rw [ofPoint, lookup_of_mem keys entry, Option.getD_some]

theorem mem_rowLinks : (i, link) ∈ rowLinks rows ↔ ∃ r, rows[i]? = some r ∧ link ∈ links r.point := by
  unfold rowLinks
  simp only [List.mem_flatMap, List.mem_map, Prod.mk.injEq]
  constructor
  · rintro ⟨⟨r, j⟩, listed, link', shared, rfl, rfl⟩
    exact ⟨r, List.mk_mem_zipIdx_iff_getElem?.mp listed, shared⟩
  · rintro ⟨r, at_, shared⟩
    exact ⟨(r, i), List.mk_mem_zipIdx_iff_getElem?.mpr at_, link, shared, rfl, rfl⟩

def Linked (rows : List Row) (r r' : Row) : Prop :=
  r ∈ rows ∧ r' ∈ rows ∧ ∃ link ∈ links r.point, link ∈ links r'.point

theorem linked_of_touch {k l : Nat} (joined : EqvGen (Touch (rowLinks rows)) k l) :
    k = l ∨ ∃ r r', rows[k]? = some r ∧ rows[l]? = some r' ∧ EqvGen (Linked rows) r r' := by
  induction joined with
  | rel k l touch =>
      obtain ⟨link, left, right⟩ := touch
      obtain ⟨r, at_, mine⟩ := mem_rowLinks.mp left
      obtain ⟨r', at_', yours⟩ := mem_rowLinks.mp right
      exact .inr ⟨r, r', at_, at_', .rel r r' ⟨List.mem_of_getElem? at_, List.mem_of_getElem? at_',
        link, mine, yours⟩⟩
  | refl k => exact .inl rfl
  | symm k l _ ih =>
      rcases ih with same | ⟨r, r', at_, at_', linked⟩
      · exact .inl same.symm
      · exact .inr ⟨r', r, at_', at_, linked.symm⟩
  | trans k l m _ _ first second =>
      rcases first with rfl | ⟨r, r', at_, at_', linked⟩
      · exact second
      · rcases second with rfl | ⟨q, q', here, there, linked'⟩
        · exact .inr ⟨r, r', at_, at_', linked⟩
        · cases at_'.symm.trans here
          exact .inr ⟨r, q', at_, there, linked.trans _ _ _ linked'⟩

theorem ofPoint_eq_iff (distinct : (rows.map Row.addr).Nodup) {r r' : Row} (member : r ∈ rows)
    (member' : r' ∈ rows) : ofPoint (groupsOf rows) r = ofPoint (groupsOf rows) r' ↔
      EqvGen (Linked rows) r r' := by
  obtain ⟨root, depth, held, group⟩ := groups_eq distinct
  constructor
  · intro one
    obtain ⟨i, at_⟩ := List.mem_iff_getElem?.mp member
    obtain ⟨i', at_'⟩ := List.mem_iff_getElem?.mp member'
    rw [group r i at_, group r' i' at_'] at one
    rcases linked_of_touch (held.only i i' one) with rfl | ⟨q, q', here, there, linked⟩
    · cases at_.symm.trans at_'
      exact .refl r
    · cases at_.symm.trans here
      cases at_'.symm.trans there
      exact linked
  · intro linked
    clear member member'
    induction linked with
    | rel q q' related =>
        obtain ⟨member, member', link, mine, yours⟩ := related
        obtain ⟨i, at_⟩ := List.mem_iff_getElem?.mp member
        obtain ⟨i', at_'⟩ := List.mem_iff_getElem?.mp member'
        obtain ⟨j, first, same⟩ := held.joined i link (mem_rowLinks.mpr ⟨q, at_, mine⟩)
        obtain ⟨j', first', same'⟩ := held.joined i' link (mem_rowLinks.mpr ⟨q', at_', yours⟩)
        rw [first] at first'
        cases first'
        rw [group q i at_, group q' i' at_', same, same']
    | refl q => rfl
    | symm q q' _ ih => exact ih.symm
    | trans q q' q'' _ _ ih ih' => exact ih.trans ih'

theorem ofPoint_eq (distinct : (rows.map Row.addr).Nodup) {r r' : Row} (member : r ∈ rows)
    (member' : r' ∈ rows) (shared : link ∈ links r.point) (shared' : link ∈ links r'.point) :
    ofPoint (groupsOf rows) r = ofPoint (groupsOf rows) r' :=
  (ofPoint_eq_iff distinct member member').mpr (.rel r r' ⟨member, member', link, shared, shared'⟩)

end

theorem groupsOf_map {f : Row → Row} (addr : ∀ r, (f r).addr = r.addr)
    (same : ∀ r, links (f r).point = links r.point) (rows : List Row) :
    groupsOf (rows.map f) = groupsOf rows := by
  have linked : rowLinks (rows.map f) = rowLinks rows := by
    unfold rowLinks
    rw [List.zipIdx_map, List.flatMap_map]
    simp only [Prod.map_fst, Prod.map_snd, same, id_eq]
  have roots : ∀ (fuel : Nat) (listed : List (Row × Nat)) (parent : Parents),
      rootsFrom fuel parent (listed.map (Prod.map f id)) = rootsFrom fuel parent listed := by
    intro fuel listed
    induction listed with
    | nil => exact fun _ => rfl
    | cons r listed ih =>
        intro parent
        simp only [List.map_cons, rootsFrom, Prod.map_fst, Prod.map_snd, id_eq, addr, ih]
  unfold groupsOf joinAll
  rw [linked, List.zipIdx_map, roots]

section

variable {groups : List (Nat × Nat)} {size : Nat → Nat} {cap : Nat} {s : Selection}
  {done more : List (Row × Mark)} {v : Row × Mark}

def picked (groups : List (Nat × Nat)) (taken : List (Nat × Bool)) (v : Row × Mark) :
    Option Candidate :=
  match v.2 with
  | .candidate reason =>
      if taken.lookup (ofPoint groups v.1) = some true then some (candidateOf v.1.point reason)
      else none
  | _ => none

def takenSize (size : Nat → Nat) (taken : List (Nat × Bool)) : Nat :=
  ((taken.filter Prod.snd).map fun t => size t.1).sum

/-- What the projection has come to: every candidate met is decided by its group. -/
structure Projected (groups : List (Nat × Nat)) (size : Nat → Nat) (cap : Nat)
    (done : List (Row × Mark)) (s : Selection) : Prop where
  candidates : s.candidates = done.filterMap (picked groups s.taken)
  decided : ∀ v ∈ done, v.2.isCandidate = true → ofPoint groups v.1 ∈ s.taken.map Prod.fst
  distinct : (s.taken.map Prod.fst).Nodup
  counted : s.selected = takenSize size s.taken
  within : s.selected ≤ cap

theorem picked_cons {group : Nat} {take : Bool} {taken : List (Nat × Bool)}
    (other : v.2.isCandidate = true → ofPoint groups v.1 ≠ group) :
    picked groups ((group, take) :: taken) v = picked groups taken v := by
  obtain ⟨row, mark⟩ := v
  cases mark with
  | kept => rfl
  | sheltered reason => rfl
  | candidate reason => simp [picked, List.lookup_cons, beq_false_of_ne (other rfl)]

theorem projected_takeGroup (held : Projected groups size cap done s) (group : Nat) :
    Projected groups size cap done (takeGroup size cap s group).2 ∧
      (takeGroup size cap s group).2.taken.lookup group = some (takeGroup size cap s group).1 := by
  unfold takeGroup
  cases found : s.taken.lookup group with
  | some take => exact ⟨held, found⟩
  | none =>
      have new := lookup_eq_none.mp found
      have other : ∀ v ∈ done, v.2.isCandidate = true → ofPoint groups v.1 ≠ group :=
        fun v member isCandidate same => new (same ▸ held.decided v member isCandidate)
      have same : ∀ take, s.candidates = done.filterMap (picked groups ((group, take) :: s.taken)) :=
        fun take => by
          rw [held.candidates]
          exact (List.filterMap_congr fun v member => picked_cons (other v member)).symm
      have decided : ∀ take, ∀ v ∈ done, v.2.isCandidate = true →
          ofPoint groups v.1 ∈ ((group, take) :: s.taken).map Prod.fst :=
        fun take v member isCandidate => List.mem_cons_of_mem _ (held.decided v member isCandidate)
      dsimp only
      split_ifs with fits
      · refine ⟨⟨same true, decided true, List.nodup_cons.mpr ⟨new, held.distinct⟩, ?_, fits⟩, by simp⟩
        simp [takenSize, held.counted, Nat.add_comm]
      · refine ⟨⟨same false, decided false, List.nodup_cons.mpr ⟨new, held.distinct⟩, ?_, held.within⟩,
          by simp⟩
        simp [takenSize, held.counted]

theorem projected_project (held : Projected groups size cap done s) (v : Row × Mark) :
    Projected groups size cap (done ++ [v]) (project groups size cap s v) := by
  obtain ⟨row, mark⟩ := v
  have decided : mark.isCandidate = false → ∀ u ∈ done ++ [(row, mark)], u.2.isCandidate = true →
      ofPoint groups u.1 ∈ s.taken.map Prod.fst := fun plain u member isCandidate => by
    rcases List.mem_append.mp member with early | late
    · exact held.decided u early isCandidate
    · rw [List.mem_singleton.mp late, plain] at isCandidate
      cases isCandidate
  cases mark with
  | kept =>
      refine ⟨?_, decided rfl, held.distinct, held.counted, held.within⟩
      simp [project, held.candidates, picked]
  | sheltered reason =>
      refine ⟨?_, decided rfl, held.distinct, held.counted, held.within⟩
      simp [project, held.candidates, picked]
  | candidate reason =>
      obtain ⟨kept, found⟩ := projected_takeGroup held (ofPoint groups row)
      unfold project
      dsimp only
      generalize takeGroup size cap s (ofPoint groups row) = taken at kept found ⊢
      obtain ⟨take, s'⟩ := taken
      replace kept : Projected groups size cap done s' := kept
      have decided' : ∀ u ∈ done ++ [(row, Mark.candidate reason)], u.2.isCandidate = true →
          ofPoint groups u.1 ∈ s'.taken.map Prod.fst := fun u member isCandidate => by
        rcases List.mem_append.mp member with early | late
        · exact kept.decided u early isCandidate
        · rw [List.mem_singleton.mp late]
          by_contra absent
          rw [lookup_eq_none.mpr absent] at found
          cases found
      dsimp only at found ⊢
      cases take with
      | true =>
          refine ⟨?_, decided', kept.distinct, kept.counted, kept.within⟩
          simpa [picked, found] using kept.candidates
      | false =>
          refine ⟨?_, decided', kept.distinct, kept.counted, kept.within⟩
          simpa [picked, found] using kept.candidates

theorem projected_foldl (more : List (Row × Mark)) (held : Projected groups size cap done s) :
    Projected groups size cap (done ++ more) (more.foldl (project groups size cap) s) := by
  induction more generalizing done s with
  | nil => rwa [List.append_nil]
  | cons v more ih =>
      rw [List.append_cons]
      exact ih (projected_project held v)

theorem length_picked_le (taken : List (Nat × Bool)) (marked : List (Row × Mark)) :
    (marked.filterMap (picked groups taken)).length ≤ takenSize (groupSize groups marked) taken := by
  induction marked with
  | nil => simp
  | cons v marked ih =>
      obtain ⟨row, mark⟩ := v
      have grown : takenSize (groupSize groups ((row, mark) :: marked)) taken =
          takenSize (groupSize groups marked) taken +
            takenSize (fun g => if mark.isCandidate && decide (ofPoint groups row = g) then 1 else 0)
              taken := by
        unfold takenSize
        rw [← List.sum_map_add]
        congr 1
        exact List.map_congr_left fun t _ => by rw [groupSize, List.countP_cons]; rfl
      rw [grown, List.filterMap_cons]
      split
      · omega
      · next c chosen =>
          have one : 1 ≤ takenSize
              (fun g => if mark.isCandidate && decide (ofPoint groups row = g) then 1 else 0) taken := by
            unfold picked at chosen
            cases mark with
            | kept => cases chosen
            | sheltered reason => cases chosen
            | candidate reason =>
                dsimp only at chosen
                split_ifs at chosen with took
                obtain ⟨early, late, shape, -⟩ := List.lookup_eq_some_iff.mp took
                have entry : (ofPoint groups row, true) ∈ taken := by simp [shape]
                refine List.single_le_sum (by simp) 1 (List.mem_map.mpr ⟨_, List.mem_filter.mpr ⟨entry, rfl⟩, ?_⟩)
                simp [Mark.isCandidate]
          rw [List.length_cons]
          omega

end

end Logweir.Retention
