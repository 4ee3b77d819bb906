import Logweir.Retention.Groups

/-!
# What an evaluation chooses

Which rows become candidates, that a group is chosen whole or not at all, and what the
evaluation retains.
-/

set_option autoImplicit false

namespace Logweir.Retention

open Logweir.Text Logweir.Grouping

/-- Held at the destination, or nowhere known. -/
def Seen (input : Input) (p : PointFacts) : Prop :=
  input.destination.locationId ∈ p.locations ∨ p.locations = []

/-- Deleting the one removes something of the other: a set, a manifest or a segment. -/
def Shares (p q : PointFacts) : Prop :=
  (p.backupId = q.backupId ∧ p.backupId ≠ "") ∨ ∃ key ∈ p.keys, key ∈ q.keys

def inputGroups (input : Input) : List (Nat × Nat) := groupsOf (grouped input)

def marked (input : Input) : List (Row × Mark) := sharedVerdicts input (inputGroups input)

variable {input : Input} {r r' row : Row} {mark : Mark} {reason : CandidateReason}

theorem points_rowsOf (input : Input) : (rowsOf input).map Row.point = input.points := by
  calc (rowsOf input).map Row.point = input.points.zipIdx.map Prod.fst := by
        rw [rowsOf, List.map_map]
        rfl
    _ = input.points := List.zipIdx_map_fst 0 input.points

theorem addrs_rowsOf (input : Input) : ((rowsOf input).map Row.addr).Nodup := by
  have numbered : (rowsOf input).map Row.addr = List.range' 0 input.points.length := by
    calc (rowsOf input).map Row.addr = input.points.zipIdx.map Prod.snd := by
          rw [rowsOf, List.map_map]
          rfl
      _ = List.range' 0 input.points.length := List.zipIdx_map_snd 0 input.points
  rw [numbered]
  exact List.nodup_range'

theorem row_of_point {p : PointFacts} (member : p ∈ input.points) :
    ∃ r ∈ rowsOf input, r.point = p := by
  rw [← points_rowsOf input] at member
  exact List.mem_map.mp member

theorem row_eq (distinct : (input.points.map PointFacts.pointId).Nodup) (member : r ∈ rowsOf input)
    (member' : r' ∈ rowsOf input) (same : r.point.pointId = r'.point.pointId) : r = r' := by
  rw [← points_rowsOf input, List.map_map] at distinct
  exact List.inj_on_of_nodup_map distinct member member' same

theorem mem_here : r ∈ here input ↔
    r ∈ rowsOf input ∧ input.destination.locationId ∈ r.point.locations := by
  simp [here]

theorem mem_locationLess : r ∈ locationLess input ↔ r ∈ rowsOf input ∧ r.point.locations = [] := by
  simp [locationLess]

theorem mem_grouped : r ∈ grouped input ↔ r ∈ rowsOf input ∧ Seen input r.point := by
  rw [grouped, List.mem_append, mem_here, mem_locationLess, Seen, ← and_or_left]

theorem addrs_grouped (input : Input) : ((grouped input).map Row.addr).Nodup := by
  have rows : (rowsOf input).Nodup := (addrs_rowsOf input).of_map
  have apart : (here input).Disjoint (locationLess input) := List.disjoint_left.mpr
    fun r held none => by
      have empty := (mem_locationLess.mp none).2
      have member := (mem_here.mp held).2
      rw [empty] at member
      cases member
  have once : (grouped input).Nodup :=
    List.nodup_append'.mpr ⟨rows.filter _, rows.filter _, apart⟩
  exact once.map_on fun r member r' member' same =>
    List.inj_on_of_nodup_map (addrs_rowsOf input) (mem_grouped.mp member).1 (mem_grouped.mp member').1
      same

theorem mem_usable : r ∈ usable input ↔ r ∈ here input ∧ skipReason r.point = none := by
  rw [usable, List.mem_insertionSort, List.mem_filter, Option.isNone_iff_eq_none]

theorem mem_verdicts (member : (row, mark) ∈ verdicts input) :
    row ∈ usable input ∧ ∃ rank, mark = ruled input rank row.point := by
  obtain ⟨⟨r, rank⟩, listed, same⟩ := List.mem_map.mp member
  cases same
  exact ⟨(List.mem_zipIdx' listed).2 ▸ List.getElem_mem _, rank, rfl⟩

theorem verdict_of_usable (member : r ∈ usable input) : ∃ mark, (r, mark) ∈ verdicts input := by
  obtain ⟨i, at_, found⟩ := List.mem_iff_getElem.mp member
  refine ⟨ruled input i r.point, List.mem_map.mpr ⟨(r, i), ?_, rfl⟩⟩
  rw [List.mk_mem_zipIdx_iff_getElem?, List.getElem?_eq_getElem at_, found]

theorem mem_marked : (row, Mark.candidate reason) ∈ marked input ↔
    (row, Mark.candidate reason) ∈ verdicts input ∧
      ofPoint (inputGroups input) row ∉ retainedGroups input (inputGroups input) := by
  unfold marked sharedVerdicts
  rw [List.mem_map]
  constructor
  · rintro ⟨⟨r, mark⟩, listed, same⟩
    dsimp only at same
    split_ifs at same with shared
    · cases same
    · cases same
      exact ⟨listed, by simpa [Mark.isCandidate] using shared⟩
  · rintro ⟨listed, apart⟩
    refine ⟨_, listed, ?_⟩
    simp [apart]

theorem marked_of_group (member : r ∈ grouped input)
    (free : ofPoint (inputGroups input) r ∉ retainedGroups input (inputGroups input)) :
    ∃ reason, (r, Mark.candidate reason) ∈ marked input := by
  have unkept : r ∉ ((verdicts input).filter fun v => !v.2.isCandidate).map Prod.fst :=
    fun stays => free (List.mem_map_of_mem (List.mem_append_left _ (List.mem_append_left _ stays)))
  have unskipped : r ∉ (here input).filter fun r => (skipReason r.point).isSome :=
    fun stays => free (List.mem_map_of_mem (List.mem_append_left _ (List.mem_append_right _ stays)))
  have located : r ∉ locationLess input :=
    fun stays => free (List.mem_map_of_mem (List.mem_append_right _ stays))
  rcases List.mem_append.mp member with held | none
  · have read : skipReason r.point = none := by
      by_contra skipped
      exact unskipped (List.mem_filter.mpr ⟨held, Option.isSome_iff_ne_none.mpr skipped⟩)
    obtain ⟨mark, listed⟩ := verdict_of_usable (mem_usable.mpr ⟨held, read⟩)
    have isCandidate : mark.isCandidate = true := by
      by_contra other
      rw [Bool.not_eq_true] at other
      refine unkept (List.mem_map.mpr ⟨(r, mark), List.mem_filter.mpr ⟨listed, ?_⟩, rfl⟩)
      rw [other, Bool.not_false]
    cases mark with
    | kept => cases isCandidate
    | sheltered why => cases isCandidate
    | candidate reason => exact ⟨reason, mem_marked.mpr ⟨listed, free⟩⟩
  · exact absurd none located

theorem projected_selection (input : Input) : Projected (inputGroups input)
    (groupSize (inputGroups input) (marked input)) (capOf input) (marked input) (selection input) := by
  have start : Projected (inputGroups input) (groupSize (inputGroups input) (marked input))
      (capOf input) [] {} := ⟨rfl, by simp, List.nodup_nil, rfl, Nat.zero_le _⟩
  exact projected_foldl (marked input) start

theorem mem_candidates {c : Candidate} : c ∈ (evaluate input).candidates ↔
    ∃ row reason, (row, Mark.candidate reason) ∈ marked input ∧
      (selection input).taken.lookup (ofPoint (inputGroups input) row) = some true ∧
      c = candidateOf row.point reason := by
  change c ∈ (selection input).candidates ↔ _
  rw [(projected_selection input).candidates, List.mem_filterMap]
  constructor
  · rintro ⟨⟨row, mark⟩, listed, chosen⟩
    cases mark with
    | kept => cases chosen
    | sheltered why => cases chosen
    | candidate reason =>
        simp only [picked] at chosen
        split_ifs at chosen with took
        cases chosen
        exact ⟨row, reason, listed, took, rfl⟩
  · rintro ⟨row, reason, listed, took, rfl⟩
    exact ⟨_, listed, by simp [picked, took]⟩

theorem length_candidates_le (input : Input) : (evaluate input).candidates.length ≤ capOf input := by
  have projected := projected_selection input
  change (selection input).candidates.length ≤ _
  rw [projected.candidates]
  exact (length_picked_le _ (marked input)).trans (projected.counted ▸ projected.within)

def Chosen (input : Input) (p : PointFacts) : Prop :=
  p.pointId ∈ (evaluate input).candidates.map Candidate.pointId

theorem chosen_row (distinct : (input.points.map PointFacts.pointId).Nodup)
    (member : r ∈ rowsOf input) (chosen : Chosen input r.point) :
    ∃ reason, (r, Mark.candidate reason) ∈ marked input ∧
      (selection input).taken.lookup (ofPoint (inputGroups input) r) = some true := by
  obtain ⟨c, listed, same⟩ := List.mem_map.mp chosen
  obtain ⟨row, reason, found, took, rfl⟩ := mem_candidates.mp listed
  have here_ := (mem_usable.mp (mem_verdicts (mem_marked.mp found).1).1).1
  obtain rfl := row_eq distinct (mem_here.mp here_).1 member same
  exact ⟨reason, found, took⟩

theorem chosen_of_group (distinct : (input.points.map PointFacts.pointId).Nodup)
    (member : r ∈ grouped input) (member' : r' ∈ grouped input)
    (one : ofPoint (inputGroups input) r = ofPoint (inputGroups input) r')
    (chosen : Chosen input r.point) : Chosen input r'.point := by
  obtain ⟨reason, found, took⟩ := chosen_row distinct (mem_grouped.mp member).1 chosen
  have free := (mem_marked.mp found).2
  rw [one] at free took
  obtain ⟨reason', found'⟩ := marked_of_group member' free
  exact List.mem_map.mpr ⟨_, mem_candidates.mpr ⟨r', reason', found', took, rfl⟩, rfl⟩

theorem link_of_shares {p q : PointFacts} (shares : Shares p q) :
    ∃ link, link ∈ links p ∧ link ∈ links q := by
  rcases shares with ⟨set, named⟩ | ⟨key, mine, yours⟩
  · have filled : q.backupId ≠ "" := set ▸ named
    refine ⟨"set:" ++ p.backupId, List.mem_append_left _ ?_, List.mem_append_left _ ?_⟩
    · simp [named]
    · simp [filled, set]
  · exact ⟨"key:" ++ key, List.mem_append_right _ (List.mem_map_of_mem mine),
      List.mem_append_right _ (List.mem_map_of_mem yours)⟩

theorem chosen_of_shares (distinct : (input.points.map PointFacts.pointId).Nodup) {p q : PointFacts}
    (member : p ∈ input.points) (seen : Seen input p) (member' : q ∈ input.points)
    (seen' : Seen input q) (shares : Shares p q) : Chosen input p ↔ Chosen input q := by
  obtain ⟨r, row, rfl⟩ := row_of_point member
  obtain ⟨r', row', rfl⟩ := row_of_point member'
  have listed := mem_grouped.mpr ⟨row, seen⟩
  have listed' := mem_grouped.mpr ⟨row', seen'⟩
  obtain ⟨link, mine, yours⟩ := link_of_shares shares
  have one := ofPoint_eq (addrs_grouped input) listed listed' mine yours
  exact ⟨chosen_of_group distinct listed listed' one, chosen_of_group distinct listed' listed one.symm⟩

theorem mem_setOf {texts : List String} {text : String} : text ∈ setOf texts ↔ text ∈ texts := by
  rw [setOf, Ordered.mem_dedup, List.mem_insertionSort]

theorem retained_of_not_chosen {p : PointFacts} (member : p ∈ input.points) (seen : Seen input p)
    (left : ¬ Chosen input p) : p.backupId ∈ (evaluate input).retained.backupIds ∧
      ∀ key ∈ p.keys, key ∈ (evaluate input).retained.keys := by
  obtain ⟨r, row, rfl⟩ := row_of_point member
  have stays : r ∈ (grouped input).filter
      fun r => !((evaluate input).candidates.map Candidate.pointId).contains r.point.pointId := by
    rw [List.mem_filter]
    exact ⟨mem_grouped.mpr ⟨row, seen⟩, by simpa [Chosen] using left⟩
  constructor
  · exact mem_setOf.mpr (List.mem_map.mpr ⟨r, stays, rfl⟩)
  · intro key named
    exact mem_setOf.mpr (List.mem_flatMap.mpr ⟨r, stays, named⟩)

theorem plannable_of_ruled {rank : Nat} {p : PointFacts} (due : ruled input rank p = .candidate reason) :
    unplannable p = false := by
  cases plain : unplannable p with
  | false => rfl
  | true =>
      simp only [ruled, plain, if_true] at due
      split_ifs at due

theorem candidate_plain {c : Candidate} (listed : c ∈ (evaluate input).candidates) :
    c.backupId ≠ "" ∧ '/' ∉ c.backupId.toList := by
  obtain ⟨row, reason, found, -, rfl⟩ := mem_candidates.mp listed
  obtain ⟨-, rank, due⟩ := mem_verdicts (mem_marked.mp found).1
  have plain := plannable_of_ruled due.symm
  unfold unplannable at plain
  change row.point.backupId ≠ "" ∧ '/' ∉ row.point.backupId.toList
  cases manifest : row.point.manifestKey with
  | none => simp [manifest] at plain
  | some key =>
      rw [manifest] at plain
      simp only [Bool.or_eq_false_iff] at plain
      exact ⟨by simpa using plain.1.1.1, by simpa using plain.1.1.2⟩

theorem rows_marked (input : Input) : (marked input).map Prod.fst = usable input := by
  calc (marked input).map Prod.fst = (verdicts input).map Prod.fst := by
        unfold marked sharedVerdicts
        rw [List.map_map]
        refine List.map_congr_left fun v _ => ?_
        dsimp only [Function.comp_apply]
        split_ifs <;> rfl
    _ = (usable input).zipIdx.map Prod.fst := by
        rw [verdicts, List.map_map]
        rfl
    _ = usable input := List.zipIdx_map_fst 0 (usable input)

theorem picked_sublist (groups : List (Nat × Nat)) (taken : List (Nat × Bool))
    (listed : List (Row × Mark)) :
    ((listed.filterMap (picked groups taken)).map Candidate.pointId).Sublist
      ((listed.map Prod.fst).map fun r => r.point.pointId) := by
  induction listed with
  | nil => simp
  | cons v listed ih =>
      rw [List.filterMap_cons]
      split
      · exact ih.cons _
      · next c chosen =>
          have same : c.pointId = v.1.point.pointId := by
            obtain ⟨row, mark⟩ := v
            unfold picked at chosen
            cases mark with
            | kept => cases chosen
            | sheltered why => cases chosen
            | candidate reason =>
                dsimp only at chosen
                split_ifs at chosen
                cases chosen
                rfl
          rw [List.map_cons, List.map_cons, List.map_cons, same]
          exact ih.cons_cons _

theorem candidates_nodup (distinct : (input.points.map PointFacts.pointId).Nodup) :
    ((evaluate input).candidates.map Candidate.pointId).Nodup := by
  have rows : ((rowsOf input).map fun r => r.point.pointId).Nodup := by
    rw [← points_rowsOf input, List.map_map] at distinct
    exact distinct
  have usable_ : ((usable input).map fun r => r.point.pointId).Nodup := by
    refine (((List.perm_insertionSort newer _).map _).nodup_iff).mpr ?_
    exact rows.sublist ((List.filter_sublist.trans List.filter_sublist).map _)
  change ((selection input).candidates.map Candidate.pointId).Nodup
  rw [(projected_selection input).candidates]
  refine List.Nodup.sublist (picked_sublist _ _ _) ?_
  rwa [rows_marked]

end Logweir.Retention
