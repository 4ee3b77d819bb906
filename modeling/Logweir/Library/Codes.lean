import Mathlib.Data.List.Basic

/-!
# Codes that tell where their words end

A code of some values is self-delimiting when no word of it goes on into another: whatever
follows two words, equal texts have equal first words.  Such codes follow one another, and
as many words as are known to come are read apart.
-/

set_option autoImplicit false

namespace Logweir.Codes

variable {α β γ : Type}

/-- A code whose words, of values that fit it, tell where they end. -/
def SelfDelimiting (fits : α → Prop) (code : α → List β) : Prop :=
  ∀ a b, fits a → fits b → ∀ rest rest', code a ++ rest = code b ++ rest' → a = b ∧ rest = rest'

variable {fits : α → Prop} {code : α → List β}

theorem SelfDelimiting.injective (delimits : SelfDelimiting fits code) {a b : α} (fitsA : fits a)
    (fitsB : fits b) (same : code a = code b) : a = b := by
  have whole : code a ++ [] = code b ++ [] := by rw [same]
  exact (delimits a b fitsA fitsB [] [] whole).1

theorem SelfDelimiting.fixed {n : Nat} (size : ∀ a, (code a).length = n)
    (one : ∀ a b, fits a → fits b → code a = code b → a = b) : SelfDelimiting fits code := by
  intro a b fitsA fitsB rest rest' same
  obtain ⟨words, rests⟩ := List.append_inj same ((size a).trans (size b).symm)
  exact ⟨one a b fitsA fitsB words, rests⟩

theorem SelfDelimiting.pair {fits' : γ → Prop} {code' : γ → List β}
    (first : SelfDelimiting fits code) (second : SelfDelimiting fits' code') :
    SelfDelimiting (fun x : α × γ => fits x.1 ∧ fits' x.2) fun x => code x.1 ++ code' x.2 := by
  intro x y fitsX fitsY rest rest' same
  simp only [List.append_assoc] at same
  obtain ⟨left, later⟩ := first x.1 y.1 fitsX.1 fitsY.1 _ _ same
  obtain ⟨right, rests⟩ := second x.2 y.2 fitsX.2 fitsY.2 _ _ later
  exact ⟨Prod.ext left right, rests⟩

theorem SelfDelimiting.list (delimits : SelfDelimiting fits code) :
    ∀ l m : List α, l.length = m.length → (∀ a ∈ l, fits a) → (∀ a ∈ m, fits a) →
      ∀ rest rest', l.flatMap code ++ rest = m.flatMap code ++ rest' → l = m ∧ rest = rest' := by
  intro l
  induction l with
  | nil =>
      intro m size _ _ rest rest' same
      obtain rfl : m = [] := List.length_eq_zero_iff.mp size.symm
      exact ⟨rfl, same⟩
  | cons a l ih =>
      intro m size fitsL fitsM rest rest' same
      cases m with
      | nil => simp at size
      | cons b m =>
          simp only [List.flatMap_cons, List.append_assoc] at same
          obtain ⟨head, later⟩ := delimits a b (fitsL a (by simp)) (fitsM b (by simp)) _ _ same
          obtain ⟨tail, rests⟩ := ih m (by simpa using size) (fun x member => fitsL x (by simp [member]))
            (fun x member => fitsM x (by simp [member])) rest rest' later
          exact ⟨by rw [head, tail], rests⟩

section Counted
variable {number : Nat → List β} {most : Nat}

theorem SelfDelimiting.counted (numbers : SelfDelimiting (· ≤ most) number)
    (delimits : SelfDelimiting fits code) :
    SelfDelimiting (fun l : List α => l.length ≤ most ∧ ∀ a ∈ l, fits a)
      fun l => number l.length ++ l.flatMap code := by
  intro l m fitsL fitsM rest rest' same
  simp only [List.append_assoc] at same
  obtain ⟨size, later⟩ := numbers _ _ fitsL.1 fitsM.1 _ _ same
  exact delimits.list l m size fitsL.2 fitsM.2 rest rest' later

/-- A text behind its length, where a length that no text has stands for there being none. -/
theorem SelfDelimiting.nullable {null : Nat} (within : null ≤ most)
    (numbers : SelfDelimiting (· ≤ most) number) :
    SelfDelimiting (fun o : Option (List β) => ∀ b ∈ o, b.length < null)
      fun o => number ((o.map List.length).getD null) ++ o.getD [] := by
  intro o o' fitsO fitsO' rest rest' same
  simp only [List.append_assoc] at same
  have size : ∀ o : Option (List β), (∀ b ∈ o, b.length < null) →
      (o.map List.length).getD null ≤ most := by
    intro o fits
    cases o with
    | none => exact within
    | some b => exact Nat.le_trans (Nat.le_of_lt (fits b rfl)) within
  obtain ⟨lengths, later⟩ := numbers _ _ (size o fitsO) (size o' fitsO') _ _ same
  cases o with
  | none =>
      cases o' with
      | none => exact ⟨rfl, by simpa using later⟩
      | some b =>
          have short := fitsO' b rfl
          simp only [Option.map_none, Option.getD_none, Option.map_some, Option.getD_some] at lengths
          omega
  | some a =>
      have short := fitsO a rfl
      cases o' with
      | none =>
          simp only [Option.map_none, Option.getD_none, Option.map_some, Option.getD_some] at lengths
          omega
      | some b =>
          simp only [Option.map_some, Option.getD_some] at lengths later
          obtain ⟨bytes, rests⟩ := List.append_inj later lengths
          exact ⟨by rw [bytes], rests⟩

end Counted

end Logweir.Codes
