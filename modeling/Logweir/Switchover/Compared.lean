import Logweir.Switchover.Plan

/-!
# What the comparison answers

The compare-and-set as its documentation reads: already applied where every planned partition
holds its planned offset, apply where every one holds what the plan expects, and otherwise
changed, naming the partitions that hold neither.  The code names every partition that does not
hold what is expected, those already at their planned offset with it.
-/

set_option autoImplicit false

namespace Logweir.Switchover

section

variable {p : PlannedPartition} {partitions : List PlannedPartition}

/-- The partition holds its planned offset. -/
def PlannedPartition.Applied (p : PlannedPartition) : Prop := p.current = some p.planned

/-- The partition holds what the plan expects. -/
def PlannedPartition.Awaited (p : PlannedPartition) : Prop := p.current = p.expected

instance : DecidablePred PlannedPartition.Applied := fun p =>
  inferInstanceAs (Decidable (p.current = some p.planned))

instance : DecidablePred PlannedPartition.Awaited := fun p =>
  inferInstanceAs (Decidable (p.current = p.expected))

def neither (partitions : List PlannedPartition) : List (String × Nat × Option Int) :=
  (partitions.filter fun p => ¬ p.Applied ∧ ¬ p.Awaited).map fun p =>
    (p.topic, p.partition, p.current)

/-- The comparison answers as its documentation reads. -/
structure Documented (partitions : List PlannedPartition) (decision : Decision) : Prop where
  already : decision = .alreadyApplied ↔ ∀ p ∈ partitions, p.Applied
  applies : decision = .apply ↔ (¬ ∀ p ∈ partitions, p.Applied) ∧ ∀ p ∈ partitions, p.Awaited
  changed : (¬ ∀ p ∈ partitions, p.Applied) → (¬ ∀ p ∈ partitions, p.Awaited) →
    decision = .changed (neither partitions) ∧ neither partitions ≠ []

/-- All partitions hold the planned offset, or all what is expected, or none the planned alone. -/
def Unmixed (partitions : List PlannedPartition) : Prop :=
  (∀ p ∈ partitions, p.Applied) ∨ (∀ p ∈ partitions, p.Awaited) ∨
    ∀ p ∈ partitions, p.Applied → p.Awaited

structure PlannedPartitions where
  all : List PlannedPartition
  some_ : all ≠ []

theorem compare_of_applied (some_ : partitions ≠ []) (applied : ∀ p ∈ partitions, p.Applied) :
    compare partitions = .alreadyApplied := by
  have shape : (!partitions.isEmpty) = true := by simpa using some_
  exact if_pos ⟨shape, applied⟩

theorem compare_of_awaited (unapplied : ¬ ∀ p ∈ partitions, p.Applied)
    (awaited : ∀ p ∈ partitions, p.Awaited) : compare partitions = .apply := by
  unfold compare
  rw [if_neg fun already => unapplied already.2]
  exact if_pos awaited

theorem compare_of_changed (unapplied : ¬ ∀ p ∈ partitions, p.Applied)
    (unawaited : ¬ ∀ p ∈ partitions, p.Awaited) :
    compare partitions = .changed ((partitions.filter fun p => ¬ p.Awaited).map fun p =>
      (p.topic, p.partition, p.current)) := by
  unfold compare
  rw [if_neg fun already => unapplied already.2]
  exact if_neg unawaited

theorem exists_unawaited (unawaited : ¬ ∀ p ∈ partitions, p.Awaited) :
    ∃ p ∈ partitions, ¬ p.Awaited := by
  simpa only [not_forall, exists_prop] using unawaited

theorem neither_eq_iff : (partitions.filter fun p => ¬ p.Awaited).map (fun p =>
      (p.topic, p.partition, p.current)) = neither partitions ↔
    ∀ p ∈ partitions, p.Applied → p.Awaited := by
  have fewer : partitions.filter (fun p => ¬ p.Applied ∧ ¬ p.Awaited) =
      (partitions.filter fun p => ¬ p.Awaited).filter fun p => ¬ p.Applied := by
    rw [List.filter_filter]
    exact List.filter_congr fun p _ => by simp
  constructor
  · intro same p member applied
    by_contra unawaited
    have lengths := congrArg List.length same
    unfold neither at lengths
    rw [List.length_map, List.length_map, fewer] at lengths
    have kept := List.length_filter_eq_length_iff.mp lengths.symm p
      (List.mem_filter.mpr ⟨member, by simpa using unawaited⟩)
    exact absurd applied (by simpa using kept)
  · intro unmixed
    have all : ∀ p ∈ partitions.filter fun p => ¬ p.Awaited, decide (¬ p.Applied) = true := by
      intro p kept
      obtain ⟨member, unawaited⟩ := List.mem_filter.mp kept
      exact decide_eq_true fun applied => of_decide_eq_true unawaited (unmixed p member applied)
    unfold neither
    rw [fewer, List.filter_eq_self.mpr all]

/-- The comparison is the documented one exactly where the partitions are all at their planned
offsets, all at what is expected, or none at its planned offset alone. -/
theorem compare_documented_iff (planned : PlannedPartitions) :
    Documented planned.all (compare planned.all) ↔ Unmixed planned.all := by
  obtain ⟨partitions, some_⟩ := planned
  change Documented partitions (compare partitions) ↔ Unmixed partitions
  by_cases applied : ∀ p ∈ partitions, p.Applied
  · rw [compare_of_applied some_ applied]
    refine iff_of_true ⟨iff_of_true rfl applied, iff_of_false Decision.noConfusion ?_, ?_⟩
      (.inl applied)
    · exact fun both => both.1 applied
    · exact fun unapplied => absurd applied unapplied
  by_cases awaited : ∀ p ∈ partitions, p.Awaited
  · rw [compare_of_awaited applied awaited]
    refine iff_of_true ⟨iff_of_false Decision.noConfusion applied, iff_of_true rfl
      ⟨applied, awaited⟩, ?_⟩ (.inr (.inl awaited))
    exact fun _ unawaited => absurd awaited unawaited
  rw [compare_of_changed applied awaited]
  constructor
  · intro documented
    obtain ⟨same, -⟩ := documented.changed applied awaited
    exact .inr (.inr (neither_eq_iff.mp (Decision.changed.inj same)))
  · rintro (all | all | unmixed)
    · exact absurd all applied
    · exact absurd all awaited
    · have same := neither_eq_iff.mpr unmixed
      refine ⟨iff_of_false Decision.noConfusion applied, iff_of_false Decision.noConfusion
        fun both => awaited both.2, fun _ _ => ⟨congrArg Decision.changed same, ?_⟩⟩
      rw [← same]
      obtain ⟨p, member, unawaited⟩ := exists_unawaited awaited
      exact List.ne_nil_of_mem (List.mem_map_of_mem
        (List.mem_filter.mpr ⟨member, by simpa using unawaited⟩))

/-- A partition a partial commit has reached is named beside the one a consumer has moved. -/
theorem compare_names_applied :
    ¬ ∀ planned : PlannedPartitions, Documented planned.all (compare planned.all) := by
  intro documented
  have mixed := (documented
    ⟨[⟨"r-orders", 0, 40, none, some 40⟩, ⟨"r-orders", 1, 10, none, some 45⟩], by decide⟩).changed
    (by decide) (by decide)
  exact absurd mixed.1 (by decide)

end

end Logweir.Switchover
