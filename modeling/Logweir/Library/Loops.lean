import Mathlib.Order.Bounds.Defs

/-!
# Loops that may stop early

A fold whose step either goes on with a state or stops with one, as a loop with an early
return: `.ok` goes on, `.error` has stopped.
-/

set_option autoImplicit false

namespace Logweir.Loops

variable {σ α : Type}

/-- The state a loop ended in, whether it stopped or ran through. -/
def final : Except σ σ → σ
  | .ok s => s
  | .error s => s

@[simp] theorem final_ok (s : σ) : final (.ok s) = s := rfl
@[simp] theorem final_error (s : σ) : final (.error s) = s := rfl

theorem final_foldlM {P : σ → Prop} {step : σ → α → Except σ σ} :
    ∀ {l : List α}, (∀ s a, a ∈ l → P s → P (final (step s a))) →
      ∀ {s : σ}, P s → P (final (l.foldlM step s)) := by
  intro l
  induction l with
  | nil => exact fun _ _ holds => holds
  | cons a l ih =>
      intro keeps s holds
      have one := keeps s a List.mem_cons_self holds
      rw [List.foldlM_cons]
      cases stepped : step s a with
      | error s' =>
          rw [stepped] at one
          exact one
      | ok s' =>
          rw [stepped] at one
          exact ih (fun s b mem => keeps s b (List.mem_cons_of_mem a mem)) one

section Progress

variable {Q : List α → σ → Prop} {step : σ → α → Except σ σ} {whole : List α}

/-- What a loop that ran through has done, when each step adds its element to what is done. -/
theorem ok_foldlM
    (adds : ∀ front a back s s', front ++ a :: back = whole → Q front s → step s a = .ok s' →
      Q (front ++ [a]) s') :
    ∀ {l done : List α}, done ++ l = whole → ∀ {s s' : σ}, Q done s →
      l.foldlM step s = .ok s' → Q whole s' := by
  intro l
  induction l with
  | nil =>
      intro done all s s' holds ran
      cases ran
      rw [← all, List.append_nil]
      exact holds
  | cons a l ih =>
      intro done all s s' holds ran
      rw [List.foldlM_cons] at ran
      cases stepped : step s a with
      | error e =>
          rw [stepped] at ran
          cases ran
      | ok s₁ =>
          rw [stepped] at ran
          have one := adds done a l s s₁ all holds stepped
          exact ih (by rw [List.append_assoc]; exact all) one ran

/-- Where a loop stopped: what was done, and the element whose step stopped it. -/
theorem error_foldlM
    (adds : ∀ front a back s s', front ++ a :: back = whole → Q front s → step s a = .ok s' →
      Q (front ++ [a]) s') :
    ∀ {l done : List α}, done ++ l = whole → ∀ {s s' : σ}, Q done s →
      l.foldlM step s = .error s' →
      ∃ front a back s₁, front ++ a :: back = whole ∧ Q front s₁ ∧ step s₁ a = .error s' := by
  intro l
  induction l with
  | nil =>
      intro done _ s s' _ ran
      cases ran
  | cons a l ih =>
      intro done all s s' holds ran
      rw [List.foldlM_cons] at ran
      cases stepped : step s a with
      | error e =>
          rw [stepped] at ran
          cases ran
          exact ⟨done, a, l, s, all, holds, stepped⟩
      | ok s₁ =>
          rw [stepped] at ran
          have one := adds done a l s s₁ all holds stepped
          exact ih (by rw [List.append_assoc]; exact all) one ran

end Progress

end Logweir.Loops

/-!
## Searches

The last number up to a bound, and the first of a stretch, of which a test holds.
-/

namespace Logweir.Searches

variable (test : Nat → Bool)

def lastUpTo : Nat → Option Nat
  | 0 => if test 0 then some 0 else none
  | n + 1 => if test (n + 1) then some (n + 1) else lastUpTo n

/-- From `n` upwards, `left` numbers. -/
def firstFrom : Nat → Nat → Option Nat
  | 0, _ => none
  | left + 1, n => if test n then some n else firstFrom left (n + 1)

variable {test}

theorem lastUpTo_none {n : Nat} (none_ : lastUpTo test n = none) :
    ∀ k ≤ n, test k = false := by
  induction n with
  | zero =>
      intro k small
      rw [lastUpTo, ite_eq_right_iff] at none_
      obtain rfl := Nat.le_zero.mp small
      exact Bool.eq_false_iff.mpr fun holds => Option.some_ne_none _ (none_ holds)
  | succ n ih =>
      intro k small
      rw [lastUpTo] at none_
      split at none_
      · exact absurd none_ (Option.some_ne_none _)
      · rename_i fails
        rcases Nat.lt_or_eq_of_le small with below | rfl
        · exact ih none_ k (by omega)
        · exact Bool.eq_false_iff.mpr fails

theorem lastUpTo_some {n m : Nat} (found : lastUpTo test n = some m) :
    IsGreatest {k | k ≤ n ∧ test k = true} m := by
  induction n with
  | zero =>
      rw [lastUpTo] at found
      split at found
      · rename_i holds
        obtain rfl := Option.some.inj found
        exact ⟨⟨Nat.le_refl 0, holds⟩, fun k mem => mem.1⟩
      · exact absurd found.symm (Option.some_ne_none _)
  | succ n ih =>
      rw [lastUpTo] at found
      split at found
      · rename_i holds
        obtain rfl := Option.some.inj found
        exact ⟨⟨Nat.le_refl _, holds⟩, fun k mem => mem.1⟩
      · rename_i fails
        obtain ⟨⟨small, holds⟩, greatest⟩ := ih found
        refine ⟨⟨by omega, holds⟩, fun k mem => ?_⟩
        rcases Nat.lt_or_eq_of_le mem.1 with below | rfl
        · exact greatest ⟨by omega, mem.2⟩
        · exact absurd mem.2 fails

theorem firstFrom_none {left n : Nat} (none_ : firstFrom test left n = none) :
    ∀ k, n ≤ k → k < n + left → test k = false := by
  induction left generalizing n with
  | zero =>
      intro k above below
      omega
  | succ left ih =>
      intro k above below
      rw [firstFrom] at none_
      split at none_
      · exact absurd none_ (Option.some_ne_none _)
      · rename_i fails
        rcases Nat.lt_or_eq_of_le above with later | rfl
        · exact ih none_ k later (by omega)
        · exact Bool.eq_false_iff.mpr fails

theorem firstFrom_some {left n m : Nat} (found : firstFrom test left n = some m) :
    IsLeast {k | n ≤ k ∧ k < n + left ∧ test k = true} m := by
  induction left generalizing n with
  | zero => exact absurd found.symm (Option.some_ne_none _)
  | succ left ih =>
      rw [firstFrom] at found
      split at found
      · rename_i holds
        obtain rfl := Option.some.inj found
        exact ⟨⟨Nat.le_refl _, by omega, holds⟩, fun k mem => mem.1⟩
      · rename_i fails
        obtain ⟨⟨above, below, holds⟩, least⟩ := ih found
        refine ⟨⟨by omega, by omega, holds⟩, fun k mem => ?_⟩
        rcases Nat.lt_or_eq_of_le mem.1 with later | rfl
        · exact least ⟨later, by have := mem.2.1; omega, mem.2.2⟩
        · exact absurd mem.2.2 fails

end Logweir.Searches
