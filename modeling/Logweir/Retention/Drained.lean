import Logweir.Retention.Floor

/-!
# What stays held back

A plan that is executed deletes its candidates.  Evaluation and execution in turn come to rest,
and what is held back then is only what never fits: points that share, one with the other, with
more points than one run may delete.
-/

set_option autoImplicit false

namespace Logweir.Retention

open Logweir.Grouping

def afterPlan (input : Input) (p : PointFacts) : PointFacts :=
  if p.locations.contains input.destination.locationId &&
      ((evaluate input).candidates.map Candidate.pointId).contains p.pointId then
    { p with availability := .deleted }
  else p

def executed (input : Input) : Input := { input with points := input.points.map (afterPlan input) }

def rounds : Nat → Input → Input
  | 0, input => input
  | n + 1, input => rounds n (executed input)

def company (input : Input) (r : Row) : Nat :=
  (grouped input).countP fun r' => ofPoint (inputGroups input) r' = ofPoint (inputGroups input) r

/-- The point of the id shares with more points than one run may delete. -/
def Oversized (input : Input) (pointId : String) : Prop :=
  ∃ r ∈ grouped input, r.point.pointId = pointId ∧ input.maxDeletionsPerRun < company input r

/-- What evaluation and execution in turn come to. -/
structure Drains (input : Input) : Prop where
  progress : (∃ id ∈ (evaluate input).heldBack, ¬ Oversized input id) → (evaluate input).candidates ≠ []
  drained : ∃ n, (∀ m, n ≤ m → rounds m input = rounds n input) ∧
    ∀ id ∈ (evaluate (rounds n input)).heldBack, Oversized input id

section

variable {input : Input} {groups : List (Nat × Nat)} {size : Nat → Nat} {cap : Nat} {s : Selection}
  {done : List (Row × Mark)} {v : Row × Mark} {r : Row} {p : PointFacts}

/-- While nothing is chosen, every group decided is larger than the ceiling. -/
def Unchosen (size : Nat → Nat) (cap : Nat) (s : Selection) : Prop :=
  s.candidates = [] → s.selected = 0 ∧ ∀ t ∈ s.taken, t.2 = false ∧ cap < size t.1

/-- What is held back are ids of candidates met. -/
def HeldFrom (done : List (Row × Mark)) (s : Selection) : Prop :=
  ∀ id ∈ s.heldBack, ∃ row reason, (row, Mark.candidate reason) ∈ done ∧ row.point.pointId = id

theorem candidates_takeGroup (size : Nat → Nat) (cap : Nat) (s : Selection) (group : Nat) :
    (takeGroup size cap s group).2.candidates = s.candidates ∧
      (takeGroup size cap s group).2.heldBack = s.heldBack := by
  unfold takeGroup
  split
  · exact ⟨rfl, rfl⟩
  · split_ifs <;> exact ⟨rfl, rfl⟩

theorem unchosen_takeGroup (unchosen : Unchosen size cap s) (group : Nat)
    (left : (takeGroup size cap s group).1 = false) : Unchosen size cap (takeGroup size cap s group).2 := by
  intro none_
  rw [(candidates_takeGroup size cap s group).1] at none_
  obtain ⟨zero, small⟩ := unchosen none_
  unfold takeGroup at left ⊢
  split at left
  · exact ⟨zero, small⟩
  · split_ifs at left with fits
    · rename_i unmet
      rw [if_neg fits]
      refine ⟨zero, fun t member => ?_⟩
      rcases List.mem_cons.mp member with rfl | member
      · rw [zero, Nat.zero_add, not_le] at fits
        exact ⟨rfl, fits⟩
      · exact small t member

theorem unchosen_project (unchosen : Unchosen size cap s) (v : Row × Mark) :
    Unchosen size cap (project groups size cap s v) := by
  unfold project
  dsimp only
  cases v.2 with
  | kept => exact unchosen
  | sheltered reason => exact unchosen
  | candidate reason =>
      dsimp only
      split_ifs with take
      · intro none_
        simp at none_
      · exact unchosen_takeGroup unchosen _ (by simpa using take)

theorem unchosen_foldl (more : List (Row × Mark)) (unchosen : Unchosen size cap s) :
    Unchosen size cap (more.foldl (project groups size cap) s) := by
  induction more generalizing s with
  | nil => exact unchosen
  | cons v more ih => exact ih (unchosen_project unchosen v)

theorem heldFrom_project (held : HeldFrom done s) (v : Row × Mark) :
    HeldFrom (done ++ [v]) (project groups size cap s v) := by
  have before : HeldFrom (done ++ [v]) s := fun id member =>
    let ⟨row, reason, met, same⟩ := held id member
    ⟨row, reason, List.mem_append_left _ met, same⟩
  obtain ⟨row, mark⟩ := v
  unfold project
  dsimp only
  cases mark with
  | kept => exact before
  | sheltered reason => exact before
  | candidate reason =>
      have heldBack := (candidates_takeGroup size cap s (ofPoint groups row)).2
      dsimp only
      split_ifs with take
      · intro id member
        exact before id (heldBack ▸ member)
      · intro id member
        rcases List.mem_append.mp member with early | late
        · exact before id (heldBack ▸ early)
        · exact ⟨row, reason, List.mem_append_right _ (List.mem_singleton_self _),
            (List.mem_singleton.mp late).symm⟩

theorem heldFrom_foldl (more : List (Row × Mark)) (held : HeldFrom done s) :
    HeldFrom (done ++ more) (more.foldl (project groups size cap) s) := by
  induction more generalizing done s with
  | nil => rwa [List.append_nil]
  | cons v more ih =>
      rw [List.append_cons]
      exact ih (heldFrom_project held v)

theorem groupSize_le_company (r : Row) :
    groupSize (inputGroups input) (marked input) (ofPoint (inputGroups input) r) ≤ company input r := by
  have usable_ : (usable input).Subperm (grouped input) := by
    have sorted : (usable input).Subperm (here input) :=
      (List.perm_insertionSort newer _).subperm.trans List.filter_sublist.subperm
    exact sorted.trans (List.sublist_append_left _ _).subperm
  calc groupSize (inputGroups input) (marked input) (ofPoint (inputGroups input) r)
      ≤ (marked input).countP ((fun r' => decide
          (ofPoint (inputGroups input) r' = ofPoint (inputGroups input) r)) ∘ Prod.fst) :=
        List.countP_mono_left fun v _ both => (Bool.and_eq_true_iff.mp both).2
    _ = (usable input).countP fun r' => decide
          (ofPoint (inputGroups input) r' = ofPoint (inputGroups input) r) := by
        rw [← List.countP_map, rows_marked]
    _ ≤ company input r := usable_.countP_le _

theorem oversized_of_unchosen (none_ : (evaluate input).candidates = []) {id : String}
    (held : id ∈ (evaluate input).heldBack) : Oversized input id := by
  have start : HeldFrom [] {} := fun id member => absurd member (by simp)
  have from_ : HeldFrom ([] ++ marked input) (selection input) := heldFrom_foldl (marked input) start
  obtain ⟨row, reason, met, same⟩ := from_ id held
  rw [List.nil_append] at met
  have unchosen : Unchosen (groupSize (inputGroups input) (marked input)) (capOf input) (selection input) :=
    unchosen_foldl (marked input) fun _ => ⟨rfl, fun t member => absurd member (by simp)⟩
  obtain ⟨-, small⟩ := unchosen none_
  have decided := (projected_selection input).decided (row, .candidate reason) met rfl
  obtain ⟨t, member, group⟩ := List.mem_map.mp decided
  change t.1 = ofPoint (inputGroups input) row at group
  have larger := (small t member).2
  rw [group] at larger
  have here_ := (mem_usable.mp (mem_verdicts (mem_marked.mp met).1).1).1
  have le : groupSize (inputGroups input) (marked input) _ ≤ company input row := groupSize_le_company row
  refine ⟨row, List.mem_append_left _ here_, same, ?_⟩
  unfold capOf at larger
  omega

def afterRow (input : Input) (r : Row) : Row := { r with point := afterPlan input r.point }

theorem afterPlan_eq (input : Input) (p : PointFacts) :
    ∃ availability, afterPlan input p = { p with availability := availability } := by
  unfold afterPlan
  split_ifs
  · exact ⟨.deleted, rfl⟩
  · exact ⟨p.availability, rfl⟩

theorem pointId_afterPlan (input : Input) (p : PointFacts) :
    (afterPlan input p).pointId = p.pointId ∧ (afterPlan input p).locations = p.locations ∧
      links (afterPlan input p) = links p := by
  obtain ⟨availability, same⟩ := afterPlan_eq input p
  rw [same]
  exact ⟨rfl, rfl, rfl⟩

theorem rowsOf_executed (input : Input) :
    rowsOf (executed input) = (rowsOf input).map (afterRow input) := by
  unfold rowsOf executed
  dsimp only
  rw [List.zipIdx_map, List.map_map, List.map_map]
  rfl

theorem grouped_executed (input : Input) :
    grouped (executed input) = (grouped input).map (afterRow input) := by
  have place (r : Row) : (afterRow input r).point.locations = r.point.locations :=
    (pointId_afterPlan input r.point).2.1
  unfold grouped here locationLess
  rw [rowsOf_executed, List.filter_map, List.filter_map, List.map_append]
  congr 2
  · exact List.filter_congr fun r _ => by rw [Function.comp_apply, place]; rfl
  · exact List.filter_congr fun r _ => by rw [Function.comp_apply, place]

theorem groups_executed (input : Input) : inputGroups (executed input) = inputGroups input := by
  unfold inputGroups
  rw [grouped_executed]
  exact groupsOf_map (f := afterRow input) (fun r => rfl) (fun r => (pointId_afterPlan input r.point).2.2) _

theorem company_executed (input : Input) (r : Row) :
    company (executed input) (afterRow input r) = company input r := by
  unfold company
  rw [grouped_executed, groups_executed, List.countP_map]
  rfl

theorem oversized_of_executed {id : String} (oversized : Oversized (executed input) id) :
    Oversized input id := by
  obtain ⟨r, member, same, larger⟩ := oversized
  rw [grouped_executed] at member
  obtain ⟨before, member', rfl⟩ := List.mem_map.mp member
  refine ⟨before, member', ?_, ?_⟩
  · rw [← same]
    exact (pointId_afterPlan input before.point).1.symm
  · rwa [company_executed] at larger

theorem oversized_of_rounds {id : String} (n : Nat) (oversized : Oversized (rounds n input) id) :
    Oversized input id := by
  induction n generalizing input with
  | zero => exact oversized
  | succ n ih => exact oversized_of_executed (ih oversized)

def remaining (input : Input) : Nat := input.points.countP fun p => p.availability = .available

theorem executed_of_none (none_ : (evaluate input).candidates = []) : executed input = input := by
  have same : input.points.map (afterPlan input) = input.points := by
    have each : afterPlan input = id := funext fun p => by
      unfold afterPlan
      rw [none_]
      simp
    rw [each, List.map_id]
  unfold executed
  rw [same]

theorem rounds_of_none (none_ : (evaluate input).candidates = []) (n : Nat) : rounds n input = input := by
  induction n with
  | zero => rfl
  | succ n ih =>
      rw [rounds, executed_of_none none_]
      exact ih

theorem available_of_afterPlan (there : (afterPlan input p).availability = .available) :
    p.availability = .available ∧ afterPlan input p = p := by
  unfold afterPlan at there ⊢
  split_ifs at there ⊢ with chosen
  · exact ⟨there, rfl⟩

theorem remaining_executed (some_ : (evaluate input).candidates ≠ []) :
    remaining (executed input) < remaining input := by
  obtain ⟨c, listed⟩ := List.exists_mem_of_ne_nil _ some_
  obtain ⟨p, rank, reason, rfl, member, removable⟩ := removable_of_candidate listed
  have gone : (afterPlan input p).availability = .deleted := by
    have chosen : ((evaluate input).candidates.map Candidate.pointId).contains p.pointId = true := by
      rw [List.contains_iff_mem]
      exact List.mem_map.mpr ⟨_, listed, rfl⟩
    unfold afterPlan
    rw [chosen, List.contains_iff_mem.mpr removable.located]
    rfl
  unfold remaining executed
  rw [List.countP_map, List.countP_eq_length_filter, List.countP_eq_length_filter]
  have fewer : (input.points.filter ((fun p => p.availability = .available) ∘ afterPlan input)).Sublist
      (input.points.filter fun p => p.availability = .available) :=
    List.monotone_filter_right _ fun q there =>
      decide_eq_true (available_of_afterPlan (of_decide_eq_true there)).1
  refine lt_of_le_of_ne fewer.length_le fun same => ?_
  have kept : p ∈ input.points.filter fun q => q.availability = .available :=
    List.mem_filter.mpr ⟨member, decide_eq_true removable.usable.available⟩
  rw [← fewer.eq_of_length same] at kept
  have there := of_decide_eq_true (List.mem_filter.mp kept).2
  rw [gone] at there
  cases there

theorem rests (input : Input) : ∃ n, (evaluate (rounds n input)).candidates = [] := by
  induction left : remaining input using Nat.strong_induction_on generalizing input with
  | _ count ih =>
      by_cases none_ : (evaluate input).candidates = []
      · exact ⟨0, none_⟩
      · obtain ⟨n, rest⟩ := ih _ (left ▸ remaining_executed none_) (executed input) rfl
        exact ⟨n + 1, rest⟩

theorem rounds_add (m n : Nat) (input : Input) : rounds (n + m) input = rounds m (rounds n input) := by
  induction n generalizing input with
  | zero => rw [Nat.zero_add, rounds]
  | succ n ih => rw [Nat.succ_add, rounds, rounds, ih]

end

/-- Evaluation and execution in turn take what fits, and come to hold back only what never does. -/
theorem rounds_drain (input : Input) : Drains input where
  progress held none_ := by
    obtain ⟨id, member, fits⟩ := held
    exact fits (oversized_of_unchosen none_ member)
  drained := by
    obtain ⟨n, none_⟩ := rests input
    refine ⟨n, fun m le => ?_, fun id member => ?_⟩
    · obtain ⟨more, rfl⟩ := Nat.exists_eq_add_of_le le
      rw [rounds_add]
      exact rounds_of_none none_ more
    · exact oversized_of_rounds n (oversized_of_unchosen none_ member)

/-- Two receipts of one set, where a run may delete one point. -/
theorem shared_set_held_back : ¬ ∀ input : Input, 1 ≤ input.maxDeletionsPerRun →
    (evaluate input).heldBack ≠ [] → (evaluate input).candidates ≠ [] := by
  intro taken
  exact absurd (taken (archiveInput (some 0) 1
    [archivedPoint "new" 0, { archivedPoint "old" (-1) with backupId := "set" },
      { archivedPoint "older" (-2) with backupId := "set" }])) (by decide)

end Logweir.Retention
