import Mathlib.Data.Set.Card
import Mathlib.Order.Bounds.Basic

/-!
# The beginning of an ordered set

A list that holds the members of a set from the first on, up to a number of them or up to a bound,
and what the members of the list below the bound say about those of the set.
-/

set_option autoImplicit false

namespace Logweir.Enumerations

variable {α : Type} [LinearOrder α]

/-- A list of at most `n` members of a set, ascending, that leaves out none below the bound and one of
its own, and, being shorter, none below the bound. -/
structure Begins (S : Set α) (bound : α) (n : Nat) (l : List α) : Prop where
  ascending : l.Pairwise (· < ·)
  sound : ∀ x ∈ l, x ∈ S
  length_le : l.length ≤ n
  closed : ∀ x ∈ S, x < bound → ∀ y ∈ l, x ≤ y → x ∈ l
  full : l.length < n → ∀ x ∈ S, x < bound → x ∈ l

variable {S : Set α} {bound t : α} {n : Nat} {l : List α}

theorem begins_zero (S : Set α) (bound : α) : Begins S bound 0 [] where
  ascending := List.Pairwise.nil
  sound x member := absurd member List.not_mem_nil
  length_le := Nat.le_refl 0
  closed x _ _ y member := absurd member List.not_mem_nil
  full short := absurd short (Nat.lt_irrefl 0)

theorem begins_empty (none_ : S = ∅) (bound : α) (n : Nat) : Begins S bound n [] where
  ascending := List.Pairwise.nil
  sound x member := absurd member List.not_mem_nil
  length_le := Nat.zero_le n
  closed x _ _ y member := absurd member List.not_mem_nil
  full _ x member := absurd (none_ ▸ member) (Set.notMem_empty x)

theorem begins_stop (least : IsLeast S t) (past : bound ≤ t) (n : Nat) :
    Begins S bound (n + 1) [t] where
  ascending := List.pairwise_singleton _ t
  sound x member := List.mem_singleton.mp member ▸ least.1
  length_le := Nat.succ_le_succ (Nat.zero_le n)
  closed x member below := absurd (lt_of_lt_of_le below past) (not_lt_of_ge (least.2 member))
  full _ x member below := absurd (lt_of_lt_of_le below past) (not_lt_of_ge (least.2 member))

theorem begins_cons (least : IsLeast S t) (rest : Begins {x | x ∈ S ∧ t < x} bound n l) :
    Begins S bound (n + 1) (t :: l) where
  ascending := List.pairwise_cons.mpr ⟨fun x member => (rest.sound x member).2, rest.ascending⟩
  sound x member := by
    rcases List.mem_cons.mp member with rfl | later
    · exact least.1
    · exact (rest.sound x later).1
  length_le := Nat.succ_le_succ rest.length_le
  closed x member below y here le := by
    rcases lt_or_eq_of_le (least.2 member) with later | rfl
    · rcases List.mem_cons.mp here with rfl | there
      · exact absurd later (not_lt_of_ge le)
      · exact List.mem_cons_of_mem t (rest.closed x ⟨member, later⟩ below y there le)
    · exact List.mem_cons_self
  full short x member below := by
    rcases lt_or_eq_of_le (least.2 member) with later | rfl
    · exact List.mem_cons_of_mem t (rest.full (Nat.lt_of_succ_lt_succ short) x ⟨member, later⟩ below)
    · exact List.mem_cons_self

/-- The first `n` of an ascending list that leaves out no member below the bound and one of these. -/
theorem begins_take (ascending : l.Pairwise (· < ·)) (sound : ∀ x ∈ l, x ∈ S)
    (closed : ∀ x ∈ S, x < bound → ∀ y ∈ l.take n, x ≤ y → x ∈ l)
    (full : l.length < n → ∀ x ∈ S, x < bound → x ∈ l) : Begins S bound n (l.take n) where
  ascending := ascending.sublist (List.take_sublist n l)
  sound x member := sound x (List.mem_of_mem_take member)
  length_le := List.length_take_le n l
  closed x member below y here le := by
    have there := closed x member below y here le
    rw [← List.take_append_drop n l, List.mem_append] at there
    rcases there with early | late
    · exact early
    · rw [← List.take_append_drop n l, List.pairwise_append] at ascending
      exact absurd (ascending.2.2 y here x late) (not_lt_of_ge le)
  full short x member below := by
    have fewer : l.length < n := by
      rw [List.length_take] at short
      omega
    rw [List.take_of_length_le (Nat.le_of_lt fewer)]
    exact full fewer x member below

/-- The last of the first `n` is the greatest of them. -/
theorem le_of_mem_take (ascending : l.Pairwise (· < ·)) {x y : α} (last : l[n - 1]? = some y)
    (member : x ∈ l.take n) : x ≤ y := by
  obtain ⟨i, within, rfl⟩ := List.getElem_of_mem member
  obtain ⟨inside, rfl⟩ := List.getElem?_eq_some_iff.mp last
  rw [List.length_take] at within
  rw [List.getElem_take]
  rcases Nat.lt_or_eq_of_le (show i ≤ n - 1 by omega) with before | same
  · exact le_of_lt (List.pairwise_iff_getElem.mp ascending i (n - 1) (by omega) inside before)
  · simp only [same, le_refl]

theorem encard_mem {l : List α} (ascending : l.Pairwise (· < ·)) :
    {x | x ∈ l}.encard = l.length := by
  have same : {x | x ∈ l} = (l.toFinset : Set α) := by
    ext x
    simp
  rw [same, Set.encard_coe_eq_coe_finsetCard, List.toFinset_card_of_nodup (ascending.imp ne_of_lt)]

/-- How many of the list are below the bound. -/
def countBelow (bound : α) (l : List α) : Nat := l.countP fun x => decide (x < bound)

theorem countBelow_eq_length (below : ∀ y ∈ l, y < bound) : countBelow bound l = l.length :=
  List.countP_eq_length.mpr fun y member => decide_eq_true (below y member)

namespace Begins

variable (begins : Begins S bound n l)

include begins

theorem countBelow_le_encard : (countBelow bound l : ℕ∞) ≤ {x | x ∈ S ∧ x < bound}.encard := by
  rw [countBelow, List.countP_eq_length_filter,
    ← encard_mem (begins.ascending.sublist List.filter_sublist)]
  refine Set.encard_le_encard fun x member => ?_
  obtain ⟨there, below⟩ := List.mem_filter.mp member
  exact ⟨begins.sound x there, of_decide_eq_true below⟩

/-- A list that is short, or that has a member past the bound, holds all below the bound. -/
theorem encard_eq (whole : l.length < n ∨ ∃ y ∈ l, bound ≤ y) :
    {x | x ∈ S ∧ x < bound}.encard = countBelow bound l := by
  have held : ∀ x ∈ S, x < bound → x ∈ l := by
    intro x member below
    rcases whole with short | ⟨y, here, past⟩
    · exact begins.full short x member below
    · exact begins.closed x member below y here (le_of_lt (lt_of_lt_of_le below past))
  refine le_antisymm ?_ begins.countBelow_le_encard
  rw [countBelow, List.countP_eq_length_filter,
    ← encard_mem (begins.ascending.sublist List.filter_sublist)]
  refine Set.encard_le_encard fun x ⟨member, below⟩ => ?_
  exact List.mem_filter.mpr ⟨held x member below, decide_eq_true below⟩

end Begins

end Logweir.Enumerations
