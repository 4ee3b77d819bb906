import Mathlib.Tactic.ByContra
import Mathlib.Tactic.SplitIfs

/-!
# Union-find

Parents in an array, with path halving and no ranks.  A forest of parents is described by the
root of every element and by a depth that falls along the parents; a find keeps both, and a
union moves one root's elements under another root, one step deeper.
-/

set_option autoImplicit false

namespace Logweir.UnionFind

abbrev Parents := Nat → Nat

/-- `parent[i] = j`. -/
def set (parent : Parents) (i j : Nat) : Parents := fun k => if k = i then j else parent k

/-- The root of an element, halving the path to it. -/
def find : Nat → Parents → Nat → Nat × Parents
  | 0, parent, i => (i, parent)
  | fuel + 1, parent, i =>
      if parent i = i then (i, parent)
      else
        let parent := set parent i (parent (parent i))
        find fuel parent (parent i)

/-- The roots of two elements are made one. -/
def union (fuel : Nat) (parent : Parents) (i j : Nat) : Parents :=
  let (a, parent) := find fuel parent i
  let (b, parent) := find fuel parent j
  if a = b then parent else set parent a b

/-- `root` is the root of every element, and `depth` falls on the way there. -/
structure Forest (parent : Parents) (root depth : Nat → Nat) : Prop where
  up : ∀ i, root (parent i) = root i
  top : ∀ i, parent (root i) = root i
  settled : ∀ i, parent i = i → root i = i
  falls : ∀ i, parent i ≠ i → depth (parent i) < depth i
  ground : ∀ i, depth (root i) = 0

variable {parent : Parents} {root depth : Nat → Nat} {i j : Nat}

theorem forest_alone : Forest (fun i => i) (fun i => i) (fun _ => 0) where
  up := fun _ => rfl
  top := fun _ => rfl
  settled := fun _ _ => rfl
  falls := fun _ other => absurd rfl other
  ground := fun _ => rfl

theorem Forest.root_root (forest : Forest parent root depth) (i : Nat) : root (root i) = root i :=
  forest.settled (root i) (forest.top i)

theorem Forest.halve (forest : Forest parent root depth) (inner : parent i ≠ i) :
    Forest (set parent i (parent (parent i))) root depth where
  up := by
    intro k
    unfold set
    split_ifs with same
    · rw [forest.up, forest.up, same]
    · exact forest.up k
  top := by
    intro k
    unfold set
    rw [if_neg fun same => inner (by rw [← same]; exact forest.top k)]
    exact forest.top k
  settled := by
    intro k
    unfold set
    split_ifs with same
    · intro back
      subst same
      have below := forest.falls k inner
      by_cases halted : parent (parent k) = parent k
      · exact absurd (halted.symm.trans back) inner
      · have lower := forest.falls _ halted
        rw [back] at lower
        omega
    · exact forest.settled k
  falls := by
    intro k
    unfold set
    split_ifs with same
    · intro _
      subst same
      have below := forest.falls k inner
      by_cases halted : parent (parent k) = parent k
      · rwa [halted]
      · exact Nat.lt_trans (forest.falls _ halted) below
    · exact forest.falls k
  ground := forest.ground

theorem find_spec {fuel : Nat} (forest : Forest parent root depth) (enough : depth i ≤ fuel) :
    (find fuel parent i).1 = root i ∧ Forest (find fuel parent i).2 root depth := by
  induction fuel generalizing parent i with
  | zero =>
      refine ⟨?_, forest⟩
      by_contra other
      have inner : parent i ≠ i := fun same => other (forest.settled i same).symm
      have below := forest.falls i inner
      omega
  | succ fuel ih =>
      unfold find
      split_ifs with top
      · exact ⟨(forest.settled i top).symm, forest⟩
      · have halved := forest.halve top
        have inner : set parent i (parent (parent i)) i ≠ i := fun same => by
          have root_i := halved.settled i same
          exact top (by rw [← root_i]; exact forest.top i)
        have below := halved.falls i inner
        obtain ⟨found, kept⟩ := ih halved (Nat.le_of_lt_succ (Nat.lt_of_lt_of_le below enough))
        exact ⟨found.trans (halved.up i), kept⟩

theorem Forest.join {a b : Nat} (forest : Forest parent root depth) (root_a : root a = a)
    (root_b : root b = b) (apart : a ≠ b) :
    Forest (set parent a b) (fun k => if root k = a then b else root k)
      (fun k => if root k = a then depth k + 1 else depth k) := by
  have top_b : parent b = b := by
    rw [← root_b]
    exact forest.top b
  have ground_b : depth b = 0 := by
    rw [← root_b]
    exact forest.ground b
  constructor
  · intro k
    by_cases same : k = a
    · simp [set, same, root_a, root_b, apart.symm]
    · simp [set, same, forest.up]
  · intro k
    by_cases under : root k = a
    · simp [set, under, apart.symm, top_b]
    · simp [set, under, forest.top]
  · intro k back
    by_cases same : k = a
    · rw [set, if_pos same, same] at back
      exact absurd back.symm apart
    · rw [set, if_neg same] at back
      have root_k := forest.settled k back
      simp [root_k, same]
  · intro k inner
    by_cases same : k = a
    · simp [set, same, root_a, root_b, apart.symm, ground_b]
    · rw [set, if_neg same] at inner ⊢
      have below := forest.falls k inner
      simp only [forest.up]
      split_ifs <;> omega
  · intro k
    by_cases under : root k = a
    · simp [under, root_b, apart.symm, ground_b]
    · simp [under, forest.root_root, forest.ground]

/-- A union joins the sets of its two elements and no others, and deepens no path by more than a
step. -/
theorem union_exact {fuel : Nat} (forest : Forest parent root depth)
    (enough : ∀ k, depth k ≤ fuel) (i j : Nat) : ∃ root' depth',
      Forest (union fuel parent i j) root' depth' ∧
      (∀ k l, root' k = root' l ↔ root k = root l ∨ (root k = root i ∧ root l = root j) ∨
        (root k = root j ∧ root l = root i)) ∧
      ∀ k, depth' k ≤ depth k + 1 := by
  obtain ⟨found, kept⟩ := find_spec forest (enough i)
  obtain ⟨found', kept'⟩ := find_spec kept (enough j)
  unfold union
  simp only [found, found']
  split_ifs with same
  · refine ⟨root, depth, kept', fun k l => ⟨.inl, ?_⟩, fun k => Nat.le_succ _⟩
    rintro (alike | ⟨left, right⟩ | ⟨left, right⟩)
    · exact alike
    · rw [left, right, same]
    · rw [left, right, same]
  · refine ⟨_, _, kept'.join (forest.root_root i) (forest.root_root j) same, fun k l => ?_, fun k => ?_⟩
    · by_cases left : root k = root i
      · by_cases right : root l = root i
        · simp [left, right]
        · simp only [left, right, if_true, if_false, true_and]
          constructor
          · exact fun alike => .inr (.inl alike.symm)
          · rintro (alike | alike | ⟨-, alike⟩)
            · exact absurd alike.symm right
            · exact alike.symm
            · exact alike.elim
      · by_cases right : root l = root i
        · simp only [left, right, if_true, if_false, false_and, and_true, false_or]
        · simp only [left, right, if_false, false_and, and_false, or_false]
    · split_ifs <;> omega

end Logweir.UnionFind
