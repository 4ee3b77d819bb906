import Logweir.Retention.Permuted

/-!
# The floor and the books of an evaluation

Whatever the input, a candidate is a usable point held at the destination that a rule puts out,
nothing protects and the floor does not cover; the candidates stay within the ceiling; every point
at the destination is accounted for once; and of distinct points the order does not show.
-/

set_option autoImplicit false

namespace Logweir.Retention

/-- `Evaluation::accounts_for_every_point` -/
def Evaluation.accountsForEveryPoint (e : Evaluation) : Bool :=
  decide (e.truncatedByCap = countOf e.heldBack.length) &&
    decide (e.pointsEvaluated =
      saturatingAdd (saturatingAdd (saturatingAdd (countOf e.kept.length) (countOf e.candidates.length))
        (countOf e.heldBack.length)) (countOf e.skipped.length))

/-- Available, verified, and not refused by the controller. -/
structure Usable (p : PointFacts) : Prop where
  available : p.availability = .available
  verified : p.verification.selectable = true
  unrefused : p.refusedByController = false

def standing (input : Input) : List PointFacts :=
  (input.points.filter fun p => p.locations.contains input.destination.locationId &&
    (skipReason p).isNone).insertionSort newerPoint

/-- An `i64` holds the number. -/
def FitsI64 (n : Int) : Prop := -I64_MAX - 1 ≤ n ∧ n ≤ I64_MAX

/-- Before the last `days` days, counted in saturated milliseconds. -/
def OlderThan (input : Input) (days : Int) (p : PointFacts) : Prop :=
  p.recoveryPointAtMs < input.now / 1000000 - saturatingMul days 86400000

/-- A rule puts the point of this rank out. -/
def Outside (input : Input) (rank : Nat) (p : PointFacts) : Prop :=
  (∃ n, input.rules.keepLast = some n ∧ n ≤ rank) ∨
    ∃ days, input.rules.keepDays = some days ∧
      (FitsI64 (input.now / 1000000 - saturatingMul days 86400000) → OlderThan input days p)

structure Removable (input : Input) (rank : Nat) (p : PointFacts) : Prop where
  ranked : (standing input)[rank]? = some p
  usable : Usable p
  located : input.destination.locationId ∈ p.locations
  floor : max input.rules.minUsablePoints 1 ≤ rank
  outside : Outside input rank p
  idle : p.pointId ∉ input.protection.activeRestore
  unheld : ∀ h ∈ input.holds, h.inForce input.now = true → h.pointId ≠ p.pointId
  allowed : input.protection.refused.lookup p.pointId = none

section

variable {input : Input} {p : PointFacts} {rank : Nat} {reason : CandidateReason} {row : Row} {mark : Mark}

theorem skipReason_eq_none : skipReason p = none ↔ Usable p := by
  constructor
  · intro read
    unfold skipReason at read
    cases available : p.availability with
    | available =>
        simp only [available] at read
        split_ifs at read with refused selectable
        exact ⟨available, selectable, by simpa using refused⟩
    | _ => simp [available] at read
  · rintro ⟨available, verified, unrefused⟩
    simp [skipReason, available, verified, unrefused]

theorem points_standing (input : Input) : (usable input).map Row.point = standing input := by
  rw [points_usable, points_here, List.filter_filter, standing]
  congr 1
  exact List.filter_congr fun p _ => Bool.and_comm _ _

theorem cutoff_of_fits {a b : Int} (fits : FitsI64 (a - b)) : wrappingSub a b = a - b := by
  unfold FitsI64 I64_MAX at fits
  unfold wrappingSub
  exact Int.bmod_eq_of_le (by omega) (by omega)

theorem tooOld_iff : tooOld input p = true ↔ ∃ days, input.rules.keepDays = some days ∧
    p.recoveryPointAtMs < wrappingSub (input.now / 1000000) (saturatingMul days 86400000) := by
  unfold tooOld cutoffMs
  cases input.rules.keepDays <;> simp

theorem beyondRank_iff : beyondRank input rank = true ↔
    ∃ n, input.rules.keepLast = some n ∧ (max n 0).toNat ≤ rank := by
  unfold beyondRank
  cases input.rules.keepLast <;> simp

/-- The rules and the protections, of a point that is a candidate by its rank. -/
structure Due (input : Input) (rank : Nat) (p : PointFacts) : Prop where
  floor : (max input.rules.minUsablePoints 1).toNat ≤ rank
  idle : input.protection.activeRestore.contains p.pointId = false
  unheld : (input.holds.any fun h => h.inForce input.now && h.pointId == p.pointId) = false
  allowed : (input.protection.refused.lookup p.pointId).isSome = false
  plannable : unplannable p = false
  outside : tooOld input p = true ∨ beyondRank input rank = true

theorem due_of_ruled (due : ruled input rank p = .candidate reason) : Due input rank p := by
  unfold ruled at due
  split_ifs at due with floor wanted active held refused plain old beyond
  · exact ⟨not_lt.mp floor, by simpa using active, by simpa using held, Bool.eq_false_iff.mpr refused,
      by simpa using plain, .inl old⟩
  · exact ⟨not_lt.mp floor, by simpa using active, by simpa using held, Bool.eq_false_iff.mpr refused,
      by simpa using plain, .inr beyond⟩

theorem ranked_of_verdict (member : (row, mark) ∈ verdicts input) :
    ∃ rank, (usable input)[rank]? = some row ∧ mark = ruled input rank row.point := by
  obtain ⟨⟨r, rank⟩, listed, same⟩ := List.mem_map.mp member
  cases same
  exact ⟨rank, List.mk_mem_zipIdx_iff_getElem?.mp listed, rfl⟩

theorem outside_of_due (due : Due input rank p) : Outside input rank p := by
  rcases due.outside with old | beyond
  · obtain ⟨days, given, before⟩ := tooOld_iff.mp old
    refine .inr ⟨days, given, fun fits => ?_⟩
    rwa [cutoff_of_fits fits] at before
  · obtain ⟨n, given, le⟩ := beyondRank_iff.mp beyond
    exact .inl ⟨n, given, by omega⟩

theorem removable_of_candidate {c : Candidate} (listed : c ∈ (evaluate input).candidates) :
    ∃ p rank reason, c = candidateOf p reason ∧ p ∈ input.points ∧ Removable input rank p := by
  obtain ⟨row, reason, found, -, rfl⟩ := mem_candidates.mp listed
  have member := (mem_marked.mp found).1
  obtain ⟨rank, at_, ruling⟩ := ranked_of_verdict member
  have due := due_of_ruled ruling.symm
  obtain ⟨held, read⟩ := mem_usable.mp (List.mem_of_getElem? at_)
  obtain ⟨row_, located⟩ := mem_here.mp held
  refine ⟨row.point, rank, reason, rfl, ?_, ?_, skipReason_eq_none.mp read, located, ?_,
    outside_of_due due, ?_, ?_, ?_⟩
  · rw [← points_rowsOf input]
    exact List.mem_map_of_mem row_
  · rw [← points_standing, List.getElem?_map, at_]
    rfl
  · have := due.floor
    omega
  · simpa using due.idle
  · intro h member_ inForce same
    have unheld := List.any_eq_false.mp due.unheld h member_
    simp [inForce, same] at unheld
  · simpa using due.allowed

def Selection.placed (s : Selection) : Nat := s.kept.length + s.candidates.length + s.heldBack.length

theorem placed_project (groups : List (Nat × Nat)) (size : Nat → Nat) (cap : Nat) (s : Selection)
    (v : Row × Mark) : (project groups size cap s v).placed = s.placed + 1 := by
  have decided (group : Nat) : (takeGroup size cap s group).2.placed = s.placed := by
    unfold takeGroup
    split
    · rfl
    · split_ifs <;> rfl
  unfold project
  dsimp only
  cases v.2 with
  | kept =>
      simp only [Selection.placed, List.length_append, List.length_singleton]
      omega
  | sheltered reason =>
      simp only [Selection.placed, List.length_append, List.length_singleton]
      omega
  | candidate reason =>
      rw [← decided (ofPoint groups v.1)]
      dsimp only
      split_ifs <;>
        simp only [Selection.placed, List.length_append, List.length_singleton] <;> omega

theorem placed_foldl (groups : List (Nat × Nat)) (size : Nat → Nat) (cap : Nat)
    (more : List (Row × Mark)) (s : Selection) :
    (more.foldl (project groups size cap) s).placed = s.placed + more.length := by
  induction more generalizing s with
  | nil => rfl
  | cons v more ih =>
      rw [List.foldl_cons, ih, placed_project, List.length_cons]
      omega

theorem placed_selection (input : Input) : (selection input).placed = (usable input).length := by
  have marked_ : (marked input).length = (usable input).length := by
    rw [← rows_marked, List.length_map]
  have placed := placed_foldl (inputGroups input) (groupSize (inputGroups input) (marked input))
    (capOf input) (marked input) {}
  have start : ({} : Selection).placed = 0 := rfl
  rw [marked_, start, Nat.zero_add] at placed
  exact placed

theorem length_skipped (input : Input) : (evaluate input).skipped.length =
    (here input).countP fun r => (skipReason r.point).isSome := by
  change (byId _).length = _
  rw [byId, List.length_insertionSort, List.length_filterMap_eq_countP]
  exact List.countP_congr fun r _ => by simp

theorem length_here (input : Input) :
    (here input).length = (usable input).length + (evaluate input).skipped.length := by
  rw [length_skipped, usable, List.length_insertionSort, ← List.countP_eq_length_filter]
  rw [List.length_eq_countP_add_countP fun r : Row => (skipReason r.point).isNone]
  congr 1
  exact List.countP_congr fun r _ => by cases skipReason r.point <;> simp

theorem accounts (input : Input) : (evaluate input).accountsForEveryPoint = true := by
  have placed := placed_selection input
  have split_ := length_here input
  have whole : (here input).length = (evaluate input).kept.length +
      (evaluate input).candidates.length + (evaluate input).heldBack.length +
      (evaluate input).skipped.length := by
    rw [split_, ← placed]
    rfl
  have counted : (evaluate input).pointsEvaluated = countOf (here input).length := rfl
  have truncated : (evaluate input).truncatedByCap = countOf (evaluate input).heldBack.length := rfl
  unfold Evaluation.accountsForEveryPoint
  rw [counted, whole, truncated, Bool.and_eq_true, decide_eq_true_iff, decide_eq_true_iff]
  refine ⟨rfl, ?_⟩
  unfold countOf saturatingAdd I64_MAX
  omega

structure FloorAndBooks (input : Input) : Prop where
  candidates : ∀ c ∈ (evaluate input).candidates, ∃ p rank reason,
    c = candidateOf p reason ∧ p ∈ input.points ∧ Removable input rank p
  ceiling : ((evaluate input).candidates.length : Int) ≤ max input.maxDeletionsPerRun 0
  books : (evaluate input).accountsForEveryPoint = true
  order : (input.points.map PointFacts.pointId).Nodup → ∀ points holds,
    input.points.Perm points → input.holds.Perm holds →
      evaluate { input with points := points, holds := holds } = evaluate input

/-- An evaluation keeps its floor and its books. -/
theorem evaluate_keeps_floor (input : Input) : FloorAndBooks input where
  candidates c listed := removable_of_candidate listed
  ceiling := by
    have within := length_candidates_le input
    unfold capOf at within
    omega
  books := accounts input
  order distinct points holds same same' :=
    (evaluate_reordered (b := { input with points := points, holds := holds })
      ⟨same, same', distinct, rfl⟩).symm

end

def archivedPoint (pointId : String) (recoveryPointAtMs : Int) : PointFacts where
  pointId := pointId
  backupId := pointId
  recoveryPointAtMs := recoveryPointAtMs
  locations := ["archive"]
  availability := .available
  verification := .verified
  manifestKey := some pointId
  segmentKeys := []
  bytes := none
  refusedByController := false

def archiveInput (keepDays : Option Int) (maxDeletionsPerRun : Int) (points : List PointFacts) : Input where
  destination := ⟨"archive", "backups"⟩
  points := points
  rules := ⟨none, keepDays, 1⟩
  now := 0
  maxDeletionsPerRun := maxDeletionsPerRun

def eons : Int := 106751991168

/-- No candidate is one more than a negative ceiling, and a point can be out that is not older. -/
theorem evaluate_past_width :
    (¬ ∀ input : Input, ((evaluate input).candidates.length : Int) ≤ input.maxDeletionsPerRun) ∧
      ¬ ∀ input : Input, input.rules.keepLast = none → ∀ days, input.rules.keepDays = some days →
        ∀ c ∈ (evaluate input).candidates, c.recoveryPointAtMs < input.now / 1000000 - days * 86400000 := by
  constructor
  · intro within
    exact absurd (within (archiveInput none (-1) [])) (by decide)
  · intro older
    have listed := older (archiveInput (some eons) 1
      [archivedPoint "new" 0, archivedPoint "old" (-9223372036854775808)]) rfl eons rfl
    exact absurd listed (by decide)

end Logweir.Retention
