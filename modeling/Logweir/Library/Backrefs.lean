import Mathlib.Tactic.Common
import Mathlib.Tactic.Ring

/-!
# Copies from behind

Appending, element by element, what stands a fixed distance back: the copy that a back
reference names, which may read what it has just written.  Once it has written some of its
pattern, whole periods of the pattern can be appended at once.
-/

set_option autoImplicit false

namespace Logweir.Backrefs

variable {α : Type}

/-- Appends, `n` times, the element `offset` back. -/
def copyBack (offset : Nat) : Nat → List α → List α
  | 0, out => out
  | n + 1, out => copyBack offset n (out ++ (out[out.length - offset]?).toList)

theorem copyBack_add (offset m n : Nat) (out : List α) :
    copyBack offset (m + n) out = copyBack offset n (copyBack offset m out) := by
  induction m generalizing out with
  | zero => rw [Nat.zero_add, copyBack]
  | succ m ih =>
      rw [Nat.succ_add, copyBack, copyBack]
      exact ih _

/-- One more element is the one `offset` back. -/
theorem copyBack_succ (offset n : Nat) (out : List α) : copyBack offset (n + 1) out =
    copyBack offset n out ++
      ((copyBack offset n out)[(copyBack offset n out).length - offset]?).toList := by
  rw [copyBack_add]
  rfl

/-- The last `done` elements repeat what stands `offset` back. -/
structure Repeats (offset done : Nat) (out : List α) : Prop where
  room : offset + done ≤ out.length
  back : ∀ i, out.length - done ≤ i → i < out.length → out[i]? = out[i - offset]?

theorem Repeats.start {offset : Nat} {out : List α} (room : offset ≤ out.length) :
    Repeats offset 0 out :=
  ⟨by omega, fun i low high => by omega⟩

section Copy
variable {offset done : Nat} {out : List α} (positive : 0 < offset)
include positive

theorem Repeats.snoc (repeats : Repeats offset done out) {a : α}
    (same : out[out.length - offset]? = some a) : Repeats offset (done + 1) (out ++ [a]) := by
  have room := repeats.room
  refine ⟨by simp only [List.length_append, List.length_singleton]; omega, fun i low high => ?_⟩
  simp only [List.length_append, List.length_singleton] at low high
  by_cases last : i = out.length
  · subst last
    rw [List.getElem?_append_right (Nat.le_refl _), List.getElem?_append_left (by omega), same]
    simp
  · rw [List.getElem?_append_left (by omega), List.getElem?_append_left (by omega)]
    exact repeats.back i (by omega) (by omega)

/-- What a copy of `n` leaves: longer by `n`, and repeating that far. -/
theorem Repeats.copy (repeats : Repeats offset done out) (n : Nat) :
    (copyBack offset n out).length = out.length + n ∧
      Repeats offset (done + n) (copyBack offset n out) := by
  induction n with
  | zero => exact ⟨rfl, repeats⟩
  | succ n ih =>
      obtain ⟨size, more⟩ := ih
      have room := more.room
      obtain ⟨a, here⟩ : ∃ a, (copyBack offset n out)[(copyBack offset n out).length - offset]? =
          some a := by
        rw [List.getElem?_eq_getElem (by omega)]
        exact ⟨_, rfl⟩
      rw [copyBack_succ, here]
      refine ⟨?_, ?_⟩
      · simp only [Option.toList_some, List.length_append, List.length_singleton, size]
        omega
      · rw [← Nat.add_assoc]
        exact more.snoc positive here

theorem Repeats.periods (repeats : Repeats offset done out) (k i : Nat) (inside : i < out.length)
    (back : out.length - done + k * offset ≤ i + offset) (enough : k * offset ≤ i) :
    out[i]? = out[i - k * offset]? := by
  induction k with
  | zero => simp
  | succ k ih =>
      rw [Nat.succ_mul] at back enough ⊢
      rw [ih (by omega) (by omega)]
      rw [repeats.back (i - k * offset) (by omega) (by omega)]
      congr 1
      omega

/-- A copy within whole periods of what already repeats is one append of them. -/
theorem Repeats.chunk (repeats : Repeats offset done out) {k n : Nat} (some' : 1 ≤ k)
    (within : k * offset ≤ offset + done) (few : n ≤ k * offset) :
    copyBack offset n out = out ++ (out.drop (out.length - k * offset)).take n := by
  have room := repeats.room
  induction n with
  | zero => simp [copyBack]
  | succ n ih =>
      have size : ((out.drop (out.length - k * offset)).take n).length = n := by
        rw [List.length_take, List.length_drop]
        omega
      rw [copyBack_succ, ih (by omega), List.append_assoc]
      congr 1
      have next : out[out.length - k * offset + n]? = (out.drop (out.length - k * offset))[n]? := by
        rw [List.getElem?_drop]
      rw [List.take_add_one, ← next]
      congr 2
      rw [List.length_append, size]
      by_cases before : n < offset
      · -- The element read stands in what there was, and whole periods back is the pattern's.
        rw [List.getElem?_append_left (by omega)]
        obtain ⟨j, rfl⟩ : ∃ j, k = j + 1 := ⟨k - 1, by omega⟩
        rw [Nat.succ_mul] at within few ⊢
        rw [repeats.periods positive j (out.length + n - offset) (by omega) (by omega) (by omega)]
        congr 1
        omega
      · -- It is one that this copy has appended, itself one period behind the pattern's.
        rw [List.getElem?_append_right (by omega), List.getElem?_take_of_lt (by omega),
          List.getElem?_drop, repeats.back (out.length - k * offset + n) (by omega) (by omega)]
        congr 1
        omega

end Copy

end Logweir.Backrefs
