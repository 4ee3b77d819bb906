import Mathlib

/-!
# Unsigned words

Addition and subtraction of words of a fixed width, with the fault they stop at.  A walk that
adds to two words a share of what it meets never stops at a subtraction, and stops at an
addition only where all that was met does not fit one word.
-/

set_option autoImplicit false

namespace Logweir.Words

inductive Fault where
  | addOverflows
  | subUnderflows
deriving DecidableEq, Repr

/-- `a + b` of that many bits. -/
def add (bits a b : Nat) : Except Fault Nat :=
  if a + b < 2 ^ bits then .ok (a + b) else .error .addOverflows

/-- `a - b` of unsigned numbers. -/
def sub (a b : Nat) : Except Fault Nat := if b ≤ a then .ok (a - b) else .error .subUnderflows

section

variable {α : Type} {bits a b : Nat}

theorem add_eq (fits : a + b < 2 ^ bits) : add bits a b = .ok (a + b) := if_pos fits

theorem add_eq_error (over_ : ¬ a + b < 2 ^ bits) : add bits a b = .error .addOverflows := if_neg over_

theorem sub_eq (below : b ≤ a) : sub a b = .ok (a - b) := if_pos below

/-- Ended as it should, or at an addition, all met not fitting one word. -/
def Tallied (bits all : Nat) (expected : Nat × Nat) (made : Except Fault (Nat × Nat)) : Prop :=
  made = .ok expected ∨ made = .error .addOverflows ∧ 2 ^ bits ≤ all

/-- A step that adds to the first word a share of what it meets, and the rest to the second. -/
structure Tally (bits : Nat) (step : Nat × Nat → α → Except Fault (Nat × Nat)) where
  share : α → Nat
  whole : α → Nat
  share_le : ∀ x, share x ≤ whole x
  each : ∀ a b x, Tallied bits (a + b + whole x) (a + share x, b + (whole x - share x)) (step (a, b) x)

variable {step : Nat × Nat → α → Except Fault (Nat × Nat)}

namespace Tally

def shares (t : Tally bits step) (l : List α) : Nat := (l.map t.share).sum

def wholes (t : Tally bits step) (l : List α) : Nat := (l.map t.whole).sum

theorem shares_le (t : Tally bits step) (l : List α) : t.shares l ≤ t.wholes l :=
  List.sum_le_sum fun x _ => t.share_le x

theorem foldlM (t : Tally bits step) (l : List α) (a b : Nat) :
    Tallied bits (a + b + t.wholes l) (a + t.shares l, b + (t.wholes l - t.shares l))
      (l.foldlM step (a, b)) := by
  induction l generalizing a b with
  | nil => exact .inl rfl
  | cons x l ih =>
      have le := t.share_le x
      have rest := t.shares_le l
      have whole : t.wholes (x :: l) = t.whole x + t.wholes l := List.sum_cons
      have share : t.shares (x :: l) = t.share x + t.shares l := List.sum_cons
      rw [List.foldlM_cons, whole, share]
      rcases t.each a b x with made | ⟨failed, large⟩
      · rw [made]
        have met := ih (a + t.share x) (b + (t.whole x - t.share x))
        have all : a + t.share x + (b + (t.whole x - t.share x)) + t.wholes l =
            a + b + (t.whole x + t.wholes l) := by omega
        have left : b + (t.whole x - t.share x) + (t.wholes l - t.shares l) =
            b + (t.whole x + t.wholes l - (t.share x + t.shares l)) := by omega
        rw [all, left, Nat.add_assoc a (t.share x) (t.shares l)] at met
        exact met
      · rw [failed]
        exact .inr ⟨rfl, by omega⟩

def closed (bits : Nat) (words : Nat × Nat) : Except Fault (Nat × Nat) := do
  let both ← add bits words.1 words.2
  pure (words.1, both)

/-- The walk from nothing and its close answer exactly where all that was met fits one word. -/
theorem closed_foldlM (t : Tally bits step) (l : List α) :
    l.foldlM step (0, 0) >>= closed bits =
      if t.wholes l < 2 ^ bits then .ok (t.shares l, t.wholes l) else .error .addOverflows := by
  have le := t.shares_le l
  rcases t.foldlM l 0 0 with made | ⟨failed, large⟩
  · rw [made]
    change (add bits _ _ >>= fun both => pure (_, both)) = _
    have both : 0 + t.shares l + (0 + (t.wholes l - t.shares l)) = t.wholes l := by omega
    split_ifs with fits
    · rw [add_eq (both.symm ▸ fits), both, Nat.zero_add]
      rfl
    · rw [add_eq_error (both.symm ▸ fits)]
      rfl
  · rw [failed, if_neg (by omega)]
    rfl

end Tally

end

end Logweir.Words
