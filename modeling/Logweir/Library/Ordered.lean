import Mathlib.Data.String.Basic
import Mathlib.Data.List.Forall2
import Mathlib.Data.List.Perm.Lattice
import Mathlib.Data.List.Sort
import Mathlib

/-!
# Sorting and removing repetitions

A vector sorted and then rid of consecutive repetitions is the one ascending list of
its members: it depends on neither their order nor how often each is there.
-/

set_option autoImplicit false

namespace Logweir.Ordered

variable {α : Type} [LinearOrder α]

/-- `Vec::dedup`: of consecutive equal elements the first stays. -/
def dedup : List α → List α
  | [] => []
  | [a] => [a]
  | a :: b :: l => if a = b then dedup (b :: l) else a :: dedup (b :: l)

/-- `sort` and `dedup`. -/
def sortDedup (l : List α) : List α := dedup (l.mergeSort fun a b => decide (a ≤ b))

theorem mem_dedup {x : α} : ∀ l : List α, x ∈ dedup l ↔ x ∈ l
  | [] => Iff.rfl
  | [a] => Iff.rfl
  | a :: b :: l => by
      rw [dedup]
      split
      · rename_i same
        rw [mem_dedup (b :: l), same, List.mem_cons, List.mem_cons, List.mem_cons]
        exact ⟨.inr, fun either => either.elim .inl id⟩
      · rw [List.mem_cons, mem_dedup (b :: l), ← List.mem_cons]

theorem ascending_dedup : ∀ l : List α, l.Pairwise (· ≤ ·) → (dedup l).Pairwise (· < ·)
  | [], _ => List.Pairwise.nil
  | [a], _ => List.pairwise_singleton _ a
  | a :: b :: l, sorted => by
      obtain ⟨least, rest⟩ := List.pairwise_cons.mp sorted
      have later := ascending_dedup (b :: l) rest
      rw [dedup]
      split
      · exact later
      · rename_i differ
        refine List.pairwise_cons.mpr ⟨fun x member => ?_, later⟩
        have below : a < b := lt_of_le_of_ne (least b List.mem_cons_self) differ
        rcases List.mem_cons.mp ((mem_dedup _).mp member) with rfl | member
        · exact below
        · exact lt_of_lt_of_le below ((List.pairwise_cons.mp rest).1 x member)

theorem sorted_mergeSort (l : List α) :
    (l.mergeSort fun a b => decide (a ≤ b)).Pairwise (· ≤ ·) := by
  refine (List.pairwise_mergeSort (fun a b c ab bc => ?_) (fun a b => ?_) l).imp of_decide_eq_true
  · exact decide_eq_true (le_trans (of_decide_eq_true ab) (of_decide_eq_true bc))
  · rw [Bool.or_eq_true, decide_eq_true_eq, decide_eq_true_eq]
    exact le_total a b

theorem mem_sortDedup {l : List α} {x : α} : x ∈ sortDedup l ↔ x ∈ l := by
  rw [sortDedup, mem_dedup, List.mem_mergeSort]

theorem ascending_sortDedup (l : List α) : (sortDedup l).Pairwise (· < ·) :=
  ascending_dedup _ (sorted_mergeSort l)

theorem eq_of_ascending {l l' : List α} (sorted : l.Pairwise (· < ·)) (sorted' : l'.Pairwise (· < ·))
    (same : ∀ x, x ∈ l ↔ x ∈ l') : l = l' := by
  have perm : l.Perm l' := (List.perm_ext_iff_of_nodup (sorted.imp ne_of_lt)
    (sorted'.imp ne_of_lt)).mpr same
  exact perm.eq_of_pairwise (fun a b _ _ ab ba => absurd ab (lt_asymm ba)) sorted sorted'

theorem sortDedup_congr {l l' : List α} (same : ∀ x, x ∈ l ↔ x ∈ l') :
    sortDedup l = sortDedup l' :=
  eq_of_ascending (ascending_sortDedup l) (ascending_sortDedup l') fun x => by
    rw [mem_sortDedup, mem_sortDedup, same x]

section

variable {β : Type} {r : β → β → Prop} [DecidableRel r] [Std.Total r] [IsTrans β r] {l l' : List β}

/-- A sort by an order that tells the elements apart does not depend on how they stood. -/
theorem insertionSort_perm (same : l.Perm l') (apart : ∀ a ∈ l, ∀ b ∈ l, r a b → r b a → a = b) :
    l.insertionSort r = l'.insertionSort r := by
  have sorted : (l.insertionSort r).Perm (l'.insertionSort r) :=
    ((List.perm_insertionSort r l).trans same).trans (List.perm_insertionSort r l').symm
  refine sorted.eq_of_pairwise (fun a b member member' => ?_) (List.pairwise_insertionSort r l)
    (List.pairwise_insertionSort r l')
  have here : b ∈ l := same.mem_iff.mpr ((List.mem_insertionSort r).mp member')
  exact apart a ((List.mem_insertionSort r).mp member) b here

end

section

variable {β γ δ : Type} {f : β → δ} {g : γ → δ} {p : β → Bool} {q : γ → Bool} {R : β → γ → Prop}

theorem forall₂_of_map_eq : ∀ {l : List β} {l' : List γ}, l.map f = l'.map g →
    List.Forall₂ (fun a b => a ∈ l ∧ b ∈ l' ∧ f a = g b) l l' := by
  intro l
  induction l with
  | nil =>
      intro l' same
      rw [List.map_nil, eq_comm, List.map_eq_nil_iff] at same
      subst same
      exact .nil
  | cons a l ih =>
      intro l' same
      cases l' with
      | nil => cases same
      | cons b l' =>
          rw [List.map_cons, List.map_cons, List.cons.injEq] at same
          refine .cons ⟨List.mem_cons_self, List.mem_cons_self, same.1⟩ ?_
          exact (ih same.2).imp fun a b ⟨left, right, alike⟩ =>
            ⟨List.mem_cons_of_mem _ left, List.mem_cons_of_mem _ right, alike⟩

theorem countP_of_forall₂ {l : List β} {l' : List γ} (alike : List.Forall₂ R l l')
    (each : ∀ a b, R a b → p a = q b) : l.countP p = l'.countP q := by
  induction alike with
  | nil => rfl
  | cons head _ ih => rw [List.countP_cons, List.countP_cons, ih, each _ _ head]

end

end Logweir.Ordered

/-!
## The greatest of a list

The first places of a list put in descending order are held by the elements that fewer others
are above.
-/

namespace Logweir.Leaders

variable {α : Type} [LinearOrder α]

/-- The `n` greatest, the greatest first. -/
def leaders (n : Nat) (l : List α) : List α :=
  ((l.mergeSort fun a b => decide (a ≤ b)).reverse).take n

def aboveOf (l : List α) (x : α) : Nat := l.countP fun y => decide (x < y)

theorem aboveOf_perm {l l' : List α} (perm : l.Perm l') (x : α) : aboveOf l x = aboveOf l' x :=
  perm.countP_eq _

theorem aboveOf_cons (a : α) (l : List α) (x : α) :
    aboveOf (a :: l) x = aboveOf l x + if x < a then 1 else 0 := by
  rw [aboveOf, List.countP_cons]
  simp only [decide_eq_true_eq]
  rfl

theorem aboveOf_anti (l : List α) {x y : α} (le : x ≤ y) : aboveOf l y ≤ aboveOf l x := by
  refine List.countP_mono_left fun z _ above => ?_
  rw [decide_eq_true_iff] at above ⊢
  exact lt_of_le_of_lt le above

theorem aboveOf_append (l l' : List α) (x : α) :
    aboveOf (l ++ l') x = aboveOf l x + aboveOf l' x := List.countP_append

theorem aboveOf_eq_zero {l : List α} {x : α} (below : ∀ y ∈ l, y ≤ x) : aboveOf l x = 0 := by
  refine List.countP_eq_zero.mpr fun y mem above => ?_
  rw [decide_eq_true_iff] at above
  exact absurd above (not_lt.mpr (below y mem))

theorem aboveOf_eq_length {l : List α} {x : α} (above : ∀ y ∈ l, x < y) :
    aboveOf l x = l.length :=
  List.countP_eq_length.mpr fun y mem => decide_eq_true (above y mem)

theorem length_le_aboveOf {l l' : List α} {x : α} (nodup : l'.Nodup) (sub : l' ⊆ l)
    (above : ∀ y ∈ l', x < y) : l'.length ≤ aboveOf l x := by
  rw [aboveOf, List.countP_eq_length_filter]
  refine (nodup.subperm fun y mem => ?_).length_le
  exact List.mem_filter.mpr ⟨sub mem, decide_eq_true (above y mem)⟩

theorem aboveOf_lt_length {l : List α} {x : α} (mem : x ∈ l) : aboveOf l x < l.length := by
  refine Nat.lt_of_le_of_ne List.countP_le_length fun all => ?_
  have above := List.countP_eq_length.mp all x mem
  rw [decide_eq_true_iff] at above
  exact lt_irrefl x above

theorem mem_take_descending : ∀ {l : List α} (_ : l.Pairwise (· > ·)) (n : Nat) (x : α),
    x ∈ l.take n ↔ x ∈ l ∧ aboveOf l x < n := by
  intro l
  induction l with
  | nil => simp
  | cons a l ih =>
      intro descending n x
      obtain ⟨below, rest⟩ := List.pairwise_cons.mp descending
      cases n with
      | zero => simp
      | succ n =>
          rw [List.take_succ_cons, List.mem_cons, List.mem_cons, ih rest, aboveOf_cons]
          by_cases first : x = a
          · subst first
            have none_ : aboveOf l x = 0 := aboveOf_eq_zero fun y mem => (below y mem).le
            simp [none_]
          · constructor
            · rintro (same | ⟨mem, few⟩)
              · exact absurd same first
              · rw [if_pos (below x mem)]
                exact ⟨.inr mem, by omega⟩
            · rintro ⟨same | mem, few⟩
              · exact absurd same first
              · rw [if_pos (below x mem)] at few
                exact .inr ⟨mem, by omega⟩

section
variable {l : List α} (nodup : l.Nodup)
include nodup

theorem descending :
    ((l.mergeSort fun a b => decide (a ≤ b)).reverse).Pairwise (· > ·) := by
  rw [List.pairwise_reverse]
  have sorted : (l.mergeSort fun a b => decide (a ≤ b)).Pairwise
      fun a b => decide (a ≤ b) = true :=
    List.pairwise_mergeSort
      (fun a b c ab bc => by
        rw [decide_eq_true_iff] at ab bc ⊢
        exact ab.trans bc)
      (fun a b => by
        rw [Bool.or_eq_true, decide_eq_true_iff, decide_eq_true_iff]
        exact le_total a b) l
  have apart : (l.mergeSort fun a b => decide (a ≤ b)).Nodup :=
    (List.mergeSort_perm _ _).nodup_iff.mpr nodup
  refine (sorted.and apart).imp ?_
  rintro a b ⟨le, ne⟩
  exact lt_of_le_of_ne (of_decide_eq_true le) ne

theorem mem_leaders (n : Nat) (x : α) : x ∈ leaders n l ↔ x ∈ l ∧ aboveOf l x < n := by
  have perm : ((l.mergeSort fun a b => decide (a ≤ b)).reverse).Perm l :=
    (List.reverse_perm _).trans (List.mergeSort_perm _ _)
  rw [leaders, mem_take_descending (descending nodup), perm.mem_iff, aboveOf_perm perm]

end

theorem length_leaders (n : Nat) (l : List α) : (leaders n l).length = min n l.length := by
  rw [leaders, List.length_take, List.length_reverse, List.length_mergeSort]

theorem nodup_leaders (n : Nat) {l : List α} (nodup : l.Nodup) : (leaders n l).Nodup := by
  refine List.Nodup.sublist (List.take_sublist n _) ?_
  rw [List.nodup_reverse]
  exact (List.mergeSort_perm _ _).nodup_iff.mpr nodup

end Logweir.Leaders
