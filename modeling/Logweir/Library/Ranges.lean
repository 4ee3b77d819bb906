import Mathlib

/-!
# Inclusive ranges of integers

The points of a list of ranges, and how many there are when the ranges come in the order of
their starts: a range that meets the last one, or stands right behind it, makes it longer, any
other is disjoint from all before it.
-/

set_option autoImplicit false

namespace Logweir.Ranges

/-- The points of the ranges. -/
noncomputable def points (ranges : List (Int × Int)) : Finset Int :=
  ranges.toFinset.biUnion fun r => Finset.Icc r.1 r.2

theorem mem_points {ranges : List (Int × Int)} {o : Int} :
    o ∈ points ranges ↔ ∃ r ∈ ranges, r.1 ≤ o ∧ o ≤ r.2 := by
  simp [points]

@[simp] theorem points_nil : points [] = ∅ := rfl

theorem points_snoc (ranges : List (Int × Int)) (r : Int × Int) :
    points (ranges ++ [r]) = points ranges ∪ Finset.Icc r.1 r.2 := by
  ext o
  simp [mem_points, or_and_right, exists_or]

/-- The last merged range: it holds every point from its start on, and no point is behind it. -/
structure Last (seen : Finset Int) (start stop : Int) : Prop where
  ordered : start ≤ stop
  whole : ∀ o, start ≤ o → (o ∈ seen ↔ o ≤ stop)
  none_after : ∀ o ∈ seen, o ≤ stop

theorem Last.first (start stop : Int) (ordered : start ≤ stop) :
    Last (Finset.Icc start stop) start stop :=
  ⟨ordered, fun o after => by simp [after], fun o member => (Finset.mem_Icc.mp member).2⟩

section Extend
variable {seen : Finset Int} {start stop a b : Int}

/-- A range that meets the last one, or stands right behind it, makes it longer. -/
theorem Last.extend (last : Last seen start stop) (after : start ≤ a) (meets : a ≤ stop + 1) :
    Last (seen ∪ Finset.Icc a b) start (max stop b) ∧
      (seen ∪ Finset.Icc a b).card = seen.card + (max stop b - stop).toNat := by
  have ordered := last.ordered
  have same : seen ∪ Finset.Icc a b = seen ∪ Finset.Icc (stop + 1) (max stop b) := by
    ext o
    simp only [Finset.mem_union, Finset.mem_Icc]
    have inside := last.whole o
    by_cases early : start ≤ o
    · rw [inside early]
      omega
    · exact or_congr_right (by omega)
  have apart : Disjoint seen (Finset.Icc (stop + 1) (max stop b)) := by
    refine Finset.disjoint_left.mpr fun o member later => ?_
    have before := last.none_after o member
    rw [Finset.mem_Icc] at later
    omega
  refine ⟨⟨by omega, fun o early => ?_, fun o member => ?_⟩, ?_⟩
  · rw [same, Finset.mem_union, Finset.mem_Icc, last.whole o early]
    omega
  · rw [Finset.mem_union, Finset.mem_Icc] at member
    rcases member with old | new
    · have before := last.none_after o old
      omega
    · omega
  · rw [same, Finset.card_union_of_disjoint apart, Int.card_Icc]
    omega

theorem Last.append (last : Last seen start stop) (ordered : a ≤ b) (behind : stop + 1 < a) :
    Last (seen ∪ Finset.Icc a b) a b ∧
      (seen ∪ Finset.Icc a b).card = seen.card + (b - a + 1).toNat := by
  have apart : Disjoint seen (Finset.Icc a b) := by
    refine Finset.disjoint_left.mpr fun o member later => ?_
    have before := last.none_after o member
    rw [Finset.mem_Icc] at later
    omega
  refine ⟨⟨ordered, fun o early => ?_, fun o member => ?_⟩, ?_⟩
  · rw [Finset.mem_union, Finset.mem_Icc]
    constructor
    · rintro (old | new)
      · have before := last.none_after o old
        omega
      · exact new.2
    · exact fun within => .inr ⟨early, within⟩
  · rw [Finset.mem_union, Finset.mem_Icc] at member
    rcases member with old | new
    · have before := last.none_after o old
      omega
    · exact new.2
  · rw [Finset.card_union_of_disjoint apart, Int.card_Icc]
    omega

end Extend

end Logweir.Ranges
