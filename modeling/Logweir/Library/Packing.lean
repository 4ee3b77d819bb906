import Mathlib.Algebra.Ring.Nat
import Mathlib.Data.List.TakeDrop
import Mathlib.Data.List.Flatten

/-!
# Packing items into pages

Items in their order, each of a cost, are put on pages of a budget, and no more pages are opened
than allowed.  An item that no page can hold is left out by itself; one for which no page is left
is left out with every later one.
-/

set_option autoImplicit false

namespace Logweir.Packing

structure Packing (α : Type) where
  pages : List (List α)
  current : List α
  bytes : Nat
  placed : Nat
  forSpace : Nat
  oversized : Nat

variable {α : Type}

def start : Packing α := ⟨[], [], 0, 0, 0, 0⟩

/-- The open page is closed where the item does not fit on it. -/
def Packing.turned (budget cost : Nat) (p : Packing α) : Packing α :=
  if p.current ≠ [] ∧ budget < p.bytes + cost then
    { p with pages := p.pages ++ [p.current], current := [], bytes := 0 }
  else p

def Packing.put (cost : Nat) (p : Packing α) (a : α) : Packing α :=
  { p with current := p.current ++ [a], bytes := p.bytes + cost, placed := p.placed + 1 }

def Packing.add (cost : α → Nat) (budget maxPages : Nat) (p : Packing α) (a : α) : Packing α :=
  if budget < cost a then { p with oversized := p.oversized + 1 }
  else
    let p := p.turned budget (cost a)
    if maxPages ≤ p.pages.length ∧ p.current = [] then { p with forSpace := p.forSpace + 1 }
    else p.put (cost a) a

def Packing.closed (p : Packing α) : List (List α) :=
  if p.current = [] then p.pages else p.pages ++ [p.current]

variable {cost : α → Nat} {budget maxPages : Nat}

/-- What holds of the pages between two items. -/
structure Sound (cost : α → Nat) (budget maxPages : Nat) (p : Packing α) : Prop where
  bytes : p.bytes = (p.current.map cost).sum
  fits : p.bytes ≤ budget
  nonempty : ∀ page ∈ p.pages, page ≠ []
  small : ∀ page ∈ p.pages, (page.map cost).sum ≤ budget
  few : p.pages.length ≤ maxPages
  room : p.current ≠ [] → p.pages.length < maxPages
  /-- Once an item has found no page, none will. -/
  full : 0 < p.forSpace → maxPages ≤ p.pages.length

/-- What the pages hold of the items seen. -/
structure Packed (cost : α → Nat) (budget : Nat) (seen : List α) (p : Packing α) : Prop where
  placed : p.pages.flatten ++ p.current = (seen.filter fun a => cost a ≤ budget).take p.placed
  fitting : p.placed + p.forSpace = (seen.filter fun a => cost a ≤ budget).length
  oversized : p.oversized + (seen.filter fun a => cost a ≤ budget).length = seen.length

section Step

variable {p : Packing α} {a : α} {seen : List α}

theorem sound_start : Sound cost budget maxPages (start : Packing α) where
  bytes := rfl
  fits := Nat.zero_le _
  nonempty := fun _ member => absurd member List.not_mem_nil
  small := fun _ member => absurd member List.not_mem_nil
  few := Nat.zero_le _
  room := fun some_ => absurd rfl some_
  full := fun some_ => absurd some_ (Nat.lt_irrefl 0)

theorem packed_start : Packed cost budget [] (start : Packing α) := ⟨rfl, rfl, rfl⟩

theorem Packed.turned {k : Nat} (packed : Packed cost budget seen p) :
    Packed cost budget seen (p.turned budget k) := by
  unfold Packing.turned
  split
  · refine ⟨?_, packed.fitting, packed.oversized⟩
    have held := packed.placed
    simp only [List.flatten_append, List.flatten_singleton, List.append_nil]
    exact held
  · exact packed

/-- With the page closed where it must be, the item fits on the open one. -/
theorem Sound.turned {k : Nat} (sound : Sound cost budget maxPages p) :
    Sound cost budget maxPages (p.turned budget k) ∧
      ((p.turned budget k).current ≠ [] → (p.turned budget k).bytes + k ≤ budget) := by
  unfold Packing.turned
  split
  · rename_i full
    refine ⟨⟨rfl, Nat.zero_le _, ?_, ?_, ?_, fun some_ => absurd rfl some_, ?_⟩,
      fun some_ => absurd rfl some_⟩
    · intro page member
      rcases List.mem_append.mp member with old | new
      · exact sound.nonempty page old
      · exact List.mem_singleton.mp new ▸ full.1
    · intro page member
      rcases List.mem_append.mp member with old | new
      · exact sound.small page old
      · rw [List.mem_singleton.mp new, ← sound.bytes]
        exact sound.fits
    · rw [List.length_append]
      exact sound.room full.1
    · intro some_
      rw [List.length_append]
      exact Nat.le_succ_of_le (sound.full some_)
  · rename_i fits
    refine ⟨sound, fun some_ => ?_⟩
    exact Nat.le_of_not_lt fun over_ => fits ⟨some_, over_⟩

theorem Sound.add (sound : Sound cost budget maxPages p) (a : α) :
    Sound cost budget maxPages (p.add cost budget maxPages a) := by
  unfold Packing.add
  split
  · exact ⟨sound.bytes, sound.fits, sound.nonempty, sound.small, sound.few, sound.room, sound.full⟩
  · rename_i small
    obtain ⟨turned, fits⟩ := sound.turned (k := cost a)
    dsimp only
    split
    · rename_i none_
      exact ⟨turned.bytes, turned.fits, turned.nonempty, turned.small, turned.few, turned.room,
        fun _ => none_.1⟩
    · rename_i page
      unfold Packing.put
      refine ⟨?_, ?_, turned.nonempty, turned.small, turned.few, fun _ => ?_, turned.full⟩
      · simp [turned.bytes]
      · by_cases blank : (p.turned budget (cost a)).current = []
        · have none_ := turned.bytes
          rw [blank] at none_
          simp only [List.map_nil, List.sum_nil] at none_
          dsimp only
          omega
        · exact fits blank
      · by_cases blank : (p.turned budget (cost a)).current = []
        · exact Nat.lt_of_not_le fun full => page ⟨full, blank⟩
        · exact turned.room blank

theorem Packed.add (sound : Sound cost budget maxPages p) (packed : Packed cost budget seen p) (a : α) :
    Packed cost budget (seen ++ [a]) (p.add cost budget maxPages a) := by
  unfold Packing.add
  by_cases large : budget < cost a
  · have left : (seen ++ [a]).filter (fun a => cost a ≤ budget) =
        seen.filter fun a => cost a ≤ budget := by
      rw [List.filter_append, List.filter_cons_of_neg (by simpa using large), List.filter_nil,
        List.append_nil]
    rw [if_pos large]
    refine ⟨?_, ?_, ?_⟩
    · rw [left]
      exact packed.placed
    · rw [left]
      exact packed.fitting
    · rw [left, List.length_append]
      have counted := packed.oversized
      simp only [List.length_singleton]
      omega
  · have more : (seen ++ [a]).filter (fun a => cost a ≤ budget) =
        (seen.filter fun a => cost a ≤ budget) ++ [a] := by
      rw [List.filter_append, List.filter_cons_of_pos (by simpa using large), List.filter_nil]
    rw [if_neg large]
    dsimp only
    have turned := packed.turned (k := cost a)
    have fitting := turned.fitting
    have counted := turned.oversized
    split
    · refine ⟨?_, ?_, ?_⟩
      · rw [more, List.take_append_of_le_length (by dsimp only; omega)]
        exact turned.placed
      · rw [more, List.length_append]
        simp only [List.length_singleton]
        omega
      · rw [more, List.length_append, List.length_append]
        simp only [List.length_singleton]
        omega
    · rename_i page
      -- a page is open or may be opened, so nothing was left out for space yet
      have none_ : (p.turned budget (cost a)).forSpace = 0 := by
        have sound' := (sound.turned (k := cost a)).1
        refine Nat.eq_zero_of_not_pos fun some_ => ?_
        by_cases blank : (p.turned budget (cost a)).current = []
        · exact page ⟨sound'.full some_, blank⟩
        · exact absurd (sound'.full some_) (Nat.not_le.mpr (sound'.room blank))
      have whole := turned.placed
      rw [List.take_of_length_le (by omega)] at whole
      refine ⟨?_, ?_, ?_⟩
      · rw [more]
        unfold Packing.put
        dsimp only
        rw [List.take_of_length_le (by rw [List.length_append]; simp only [List.length_singleton]; omega),
          ← whole, List.append_assoc]
      · rw [more, List.length_append]
        unfold Packing.put
        simp only [List.length_singleton]
        omega
      · rw [more, List.length_append, List.length_append]
        unfold Packing.put
        simp only [List.length_singleton]
        omega

/-- Whatever the items, the pages are sound and hold what was seen of them. -/
theorem foldl_add (cost : α → Nat) (budget maxPages : Nat) (items : List α) :
    Sound cost budget maxPages (items.foldl (Packing.add cost budget maxPages) start) ∧
      Packed cost budget items (items.foldl (Packing.add cost budget maxPages) start) := by
  have every : ∀ (later seen : List α) (p : Packing α), Sound cost budget maxPages p →
      Packed cost budget seen p →
      Sound cost budget maxPages (later.foldl (Packing.add cost budget maxPages) p) ∧
        Packed cost budget (seen ++ later) (later.foldl (Packing.add cost budget maxPages) p) := by
    intro later
    induction later with
    | nil =>
        intro seen p sound packed
        exact ⟨sound, (List.append_nil seen).symm ▸ packed⟩
    | cons a later ih =>
        intro seen p sound packed
        have next := ih (seen ++ [a]) _ (sound.add a) (packed.add sound a)
        rw [List.append_assoc] at next
        exact next
  exact every items [] start sound_start packed_start

end Step

section Closed

variable {p : Packing α}

theorem flatten_closed : p.closed.flatten = p.pages.flatten ++ p.current := by
  unfold Packing.closed
  split
  · rename_i blank
    rw [blank, List.append_nil]
  · simp

theorem mem_closed {page : List α} (member : page ∈ p.closed) :
    page ∈ p.pages ∨ page = p.current ∧ p.current ≠ [] := by
  unfold Packing.closed at member
  split at member
  · exact .inl member
  · rename_i some_
    rcases List.mem_append.mp member with old | last
    · exact .inl old
    · exact .inr ⟨List.mem_singleton.mp last, some_⟩

theorem Sound.length_closed (sound : Sound cost budget maxPages p) : p.closed.length ≤ maxPages := by
  unfold Packing.closed
  split
  · exact sound.few
  · rename_i some_
    rw [List.length_append]
    exact sound.room some_

theorem Sound.nonempty_closed (sound : Sound cost budget maxPages p) :
    ∀ page ∈ p.closed, page ≠ [] := by
  intro page member
  rcases mem_closed member with old | ⟨rfl, some_⟩
  · exact sound.nonempty page old
  · exact some_

theorem Sound.small_closed (sound : Sound cost budget maxPages p) :
    ∀ page ∈ p.closed, (page.map cost).sum ≤ budget := by
  intro page member
  rcases mem_closed member with old | ⟨rfl, _⟩
  · exact sound.small page old
  · exact sound.bytes ▸ sound.fits

end Closed

end Logweir.Packing
