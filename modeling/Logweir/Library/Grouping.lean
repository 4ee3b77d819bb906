import Std.Data.ExtTreeMap
import Mathlib.Data.List.Sort

/-!
# Grouping a list by a key

A map filled element by element, the first of a key kept and each later one combined
with what is kept there, holds at a key the fold of that key's elements in their
order.  `best` is the last of the highest-ranked elements, and a sort that does not
separate one key's elements leaves them in their order.
-/

set_option autoImplicit false

namespace Logweir.Grouping

open Std (ExtTreeMap TransCmp LawfulEqCmp)

section Upsert

variable {κ α β : Type} {cmp : κ → κ → Ordering} [TransCmp cmp]

def upsert (key : α → κ) (first : α → β) (combine : β → α → β) (m : ExtTreeMap κ β cmp) (a : α) :
    ExtTreeMap κ β cmp :=
  match m[key a]? with
  | none => m.insert (key a) (first a)
  | some kept => m.insert (key a) (combine kept a)

def gather (first : α → β) (combine : β → α → β) (kept : Option β) (a : α) : Option β :=
  match kept with
  | none => some (first a)
  | some b => some (combine b a)

theorem foldl_gather (first : α → β) (combine : β → α → β) : ∀ (l : List α) (b : β),
    l.foldl (gather first combine) (some b) = some (l.foldl combine b) := by
  intro l
  induction l with
  | nil => exact fun _ => rfl
  | cons a l ih => exact fun b => ih (combine b a)

theorem getElem?_upsert [DecidableEq κ] [LawfulEqCmp cmp] (key : α → κ) (first : α → β)
    (combine : β → α → β) (m : ExtTreeMap κ β cmp) (a : α) (k : κ) :
    (upsert key first combine m a)[k]? =
      if key a = k then gather first combine m[k]? a else m[k]? := by
  unfold upsert
  by_cases same : key a = k
  · rw [if_pos same]
    subst same
    cases held : m[key a]? with
    | none => exact ExtTreeMap.getElem?_insert_self
    | some b => exact ExtTreeMap.getElem?_insert_self
  · rw [if_neg same]
    have apart : ¬ cmp (key a) k = .eq := fun h => same (LawfulEqCmp.eq_of_compare h)
    cases held : m[key a]? with
    | none => exact (ExtTreeMap.getElem?_insert).trans (if_neg apart)
    | some b => exact (ExtTreeMap.getElem?_insert).trans (if_neg apart)

theorem getElem?_foldl_upsert [DecidableEq κ] [LawfulEqCmp cmp] (key : α → κ) (first : α → β)
    (combine : β → α → β) (k : κ) : ∀ (l : List α) (m : ExtTreeMap κ β cmp),
    (l.foldl (upsert key first combine) m)[k]? =
      (l.filter fun a => key a = k).foldl (gather first combine) m[k]? := by
  intro l
  induction l with
  | nil => exact fun _ => rfl
  | cons a l ih =>
      intro m
      rw [List.foldl_cons, ih, getElem?_upsert]
      by_cases same : key a = k
      · have kept : (a :: l).filter (fun a => key a = k) = a :: l.filter (fun a => key a = k) := by
          simp [same]
        rw [if_pos same, kept]
        rfl
      · have left : (a :: l).filter (fun a => key a = k) = l.filter (fun a => key a = k) := by
          simp [same]
        rw [if_neg same, left]

end Upsert

section Best

variable {α : Type} (rank : α → Nat)

/-- The higher of two, the later where they are equal. -/
def higher (a b : α) : α := if rank a ≤ rank b then b else a

/-- `max_by_key`. -/
def best : List α → Option α
  | [] => none
  | a :: l => some (l.foldl (higher rank) a)

variable {rank}

theorem le_foldl_higher {n : Nat} : ∀ (l : List α) (a : α),
    n ≤ rank (l.foldl (higher rank) a) ↔ ∃ x ∈ a :: l, n ≤ rank x := by
  intro l
  induction l with
  | nil => simp
  | cons b l ih =>
      intro a
      rw [List.foldl_cons, ih]
      unfold higher
      split
      · rename_i below
        simp only [List.mem_cons, exists_eq_or_imp]
        constructor
        · exact .inr
        · rintro (first | rest)
          · exact .inl (Nat.le_trans first below)
          · exact rest
      · rename_i above
        simp only [List.mem_cons, exists_eq_or_imp]
        constructor
        · rintro (first | rest)
          · exact .inl first
          · exact .inr (.inr rest)
        · rintro (first | second | rest)
          · exact .inl first
          · exact .inl (by omega)
          · exact .inr rest

/-- The best is at least as high as some bound exactly when some element is. -/
theorem le_best {n : Nat} {l : List α} {a : α} (found : best rank l = some a) :
    n ≤ rank a ↔ ∃ x ∈ l, n ≤ rank x := by
  cases l with
  | nil => cases found
  | cons b l =>
      cases found
      exact le_foldl_higher l b

theorem best_eq_none {l : List α} : best rank l = none ↔ l = [] := by
  cases l with
  | nil => exact ⟨fun _ => rfl, fun _ => rfl⟩
  | cons a l => simp [best]

end Best

/-- Lists with the same keys, each key's images agreeing, have the same images. -/
theorem map_eq_of_keys {α κ β : Type} {key : α → κ} {f : α → β} : ∀ {l l' : List α},
    l.map key = l'.map key → (∀ a ∈ l, ∀ b ∈ l', key a = key b → f a = f b) →
      l.map f = l'.map f := by
  intro l
  induction l with
  | nil =>
      intro l' keys _
      cases l' with
      | nil => rfl
      | cons b l' => cases keys
  | cons a l ih =>
      intro l' keys agree
      cases l' with
      | nil => cases keys
      | cons b l' =>
          rw [List.map_cons, List.map_cons] at keys
          obtain ⟨head, tail⟩ := List.cons.inj keys
          have same := agree a List.mem_cons_self b List.mem_cons_self head
          rw [List.map_cons, List.map_cons, same]
          rw [ih tail fun x hx y hy => agree x (List.mem_cons_of_mem a hx) y (List.mem_cons_of_mem b hy)]

theorem filter_insertionSort {α : Type} (r : α → α → Prop) [DecidableRel r] (p : α → Bool)
    (level : ∀ a b, p a = true → p b = true → r a b) (l : List α) :
    (l.insertionSort r).filter p = l.filter p := by
  have kept : (l.filter p).Pairwise r := by
    apply List.pairwise_of_forall_mem_list
    intro a ha b hb
    exact level a b (List.of_mem_filter ha) (List.of_mem_filter hb)
  have inside : (l.filter p).Sublist ((l.insertionSort r).filter p) := by
    have sub := (List.sublist_insertionSort kept List.filter_sublist).filter p
    rwa [List.filter_filter, show (fun a => p a && p a) = p from funext fun a => Bool.and_self _]
      at sub
  have perm := (List.perm_insertionSort r l).filter p
  exact (inside.eq_of_length perm.length_eq.symm).symm

section Lookup

variable {κ β : Type} [BEq κ] [LawfulBEq κ] {key : κ} {entries : List (κ × β)}

theorem lookup_eq_none : entries.lookup key = none ↔ key ∉ entries.map Prod.fst := by
  rw [List.lookup_eq_none_iff]
  simp only [List.mem_map, Prod.exists, exists_and_right, exists_eq_right, not_exists, bne_iff_ne]
  exact ⟨fun apart b member => (apart _ member) rfl, fun apart e member same =>
    apart e.2 (same ▸ member)⟩

/-- Where no key is there twice, an entry is what its key is looked up to. -/
theorem lookup_of_mem {b : β} (distinct : (entries.map Prod.fst).Nodup) (member : (key, b) ∈ entries) :
    entries.lookup key = some b := by
  induction entries with
  | nil => simp at member
  | cons e entries ih =>
      obtain ⟨k, v⟩ := e
      obtain ⟨fresh, rest⟩ := List.nodup_cons.mp distinct
      rcases List.mem_cons.mp member with same | later
      · cases same
        simp
      · have other : key ≠ k := fun same =>
          fresh (List.mem_map.mpr ⟨(key, b), later, same⟩)
        rw [List.lookup_cons, beq_false_of_ne other]
        exact ih rest later

end Lookup

end Logweir.Grouping
