import Logweir.Library.Grouping
import Mathlib.Data.List.Nodup
import Mathlib.Order.Basic

/-!
# Ordered maps that carry their order

A map is the list of its entries, strictly ascending by key, with the proof that it is.  An
entry is in a map after an insertion exactly when it is the one put in, or was there before
under another key.
-/

set_option autoImplicit false

namespace Logweir.SortedMaps

variable {κ β : Type} [LinearOrder κ]

/-- The entries with one put in at its place, in the stead of the one of the same key. -/
def insertEntry (k : κ) (v : β) : List (κ × β) → List (κ × β)
  | [] => [(k, v)]
  | e :: l => if k < e.1 then (k, v) :: e :: l else if e.1 < k then e :: insertEntry k v l else (k, v) :: l

theorem mem_of_insertEntry {k : κ} {v : β} {e : κ × β} : ∀ {l : List (κ × β)},
    e ∈ insertEntry k v l → e = (k, v) ∨ e ∈ l := by
  intro l
  induction l with
  | nil => exact fun member => .inl (List.mem_singleton.mp member)
  | cons first l ih =>
      intro member
      rw [insertEntry] at member
      split_ifs at member
      · simpa using member
      · rcases List.mem_cons.mp member with rfl | later
        · exact .inr List.mem_cons_self
        · exact (ih later).imp_right (List.mem_cons_of_mem first)
      · rcases List.mem_cons.mp member with rfl | later
        · exact .inl rfl
        · exact .inr (List.mem_cons_of_mem first later)

theorem sorted_insertEntry (k : κ) (v : β) : ∀ {l : List (κ × β)},
    (l.Pairwise fun a b => a.1 < b.1) → (insertEntry k v l).Pairwise fun a b => a.1 < b.1 := by
  intro l
  induction l with
  | nil => exact fun _ => List.pairwise_singleton _ _
  | cons first l ih =>
      intro sorted
      obtain ⟨least, rest⟩ := List.pairwise_cons.mp sorted
      rw [insertEntry]
      split_ifs with before after
      · refine List.pairwise_cons.mpr ⟨fun e member => ?_, sorted⟩
        rcases List.mem_cons.mp member with rfl | later
        · exact before
        · exact before.trans (least e later)
      · refine List.pairwise_cons.mpr ⟨fun e member => ?_, ih rest⟩
        rcases mem_of_insertEntry member with rfl | later
        · exact after
        · exact least e later
      · have same : first.1 = k := le_antisymm (not_lt.mp before) (not_lt.mp after)
        exact List.pairwise_cons.mpr ⟨fun e member => same ▸ least e member, rest⟩

theorem mem_insertEntry {k : κ} {v : β} {e : κ × β} : ∀ {l : List (κ × β)},
    (l.Pairwise fun a b => a.1 < b.1) →
      (e ∈ insertEntry k v l ↔ e = (k, v) ∨ (e ∈ l ∧ e.1 ≠ k)) := by
  intro l
  induction l with
  | nil => simp [insertEntry]
  | cons first l ih =>
      intro sorted
      obtain ⟨least, rest⟩ := List.pairwise_cons.mp sorted
      rw [insertEntry]
      split_ifs with before after
      · have apart : ∀ e ∈ first :: l, e.1 ≠ k := by
          intro e member
          rcases List.mem_cons.mp member with rfl | later
          · exact before.ne'
          · exact (before.trans (least e later)).ne'
        rw [List.mem_cons]
        exact or_congr_right ⟨fun member => ⟨member, apart e member⟩, And.left⟩
      · have other : first.1 ≠ k := after.ne
        rw [List.mem_cons, ih rest, List.mem_cons]
        constructor
        · rintro (rfl | rfl | ⟨member, differs⟩)
          · exact .inr ⟨.inl rfl, other⟩
          · exact .inl rfl
          · exact .inr ⟨.inr member, differs⟩
        · rintro (rfl | ⟨rfl | member, differs⟩)
          · exact .inr (.inl rfl)
          · exact .inl rfl
          · exact .inr (.inr ⟨member, differs⟩)
      · have same : first.1 = k := le_antisymm (not_lt.mp before) (not_lt.mp after)
        rw [List.mem_cons, List.mem_cons]
        refine or_congr_right ⟨fun member => ⟨.inr member, ?_⟩, ?_⟩
        · exact same ▸ (least e member).ne'
        · rintro ⟨rfl | member, differs⟩
          · exact absurd same differs
          · exact member

structure SortedMap (κ β : Type) [LinearOrder κ] where
  entries : List (κ × β)
  sorted : entries.Pairwise fun a b => a.1 < b.1
deriving DecidableEq

namespace SortedMap

def empty : SortedMap κ β := ⟨[], List.Pairwise.nil⟩

def insert (m : SortedMap κ β) (k : κ) (v : β) : SortedMap κ β :=
  ⟨insertEntry k v m.entries, sorted_insertEntry k v m.sorted⟩

def get? (m : SortedMap κ β) (k : κ) : Option β := m.entries.lookup k

def keys (m : SortedMap κ β) : List κ := m.entries.map Prod.fst

def values (m : SortedMap κ β) : List β := m.entries.map Prod.snd

def isEmpty (m : SortedMap κ β) : Bool := m.entries.isEmpty

def erase (m : SortedMap κ β) (k : κ) : SortedMap κ β :=
  ⟨m.entries.filter fun e => !decide (e.1 = k), m.sorted.filter _⟩

variable {m : SortedMap κ β} {k k' : κ} {v v' : β}

theorem keys_nodup (m : SortedMap κ β) : m.keys.Nodup :=
  List.pairwise_map.mpr (m.sorted.imp fun before => before.ne)

theorem value_unique (one : (k, v) ∈ m.entries) (other : (k, v') ∈ m.entries) : v = v' := by
  have same := List.inj_on_of_nodup_map m.keys_nodup one other rfl
  exact congrArg Prod.snd same

theorem mem_insert {e : κ × β} :
    e ∈ (m.insert k v).entries ↔ e = (k, v) ∨ (e ∈ m.entries ∧ e.1 ≠ k) :=
  mem_insertEntry m.sorted

theorem get?_eq_some : m.get? k = some v ↔ (k, v) ∈ m.entries := by
  constructor
  · intro found
    obtain ⟨before, after, split, -⟩ := List.lookup_eq_some_iff.mp found
    rw [split]
    exact List.mem_append_right before List.mem_cons_self
  · exact Grouping.lookup_of_mem m.keys_nodup

theorem get?_eq_none : m.get? k = none ↔ ∀ v, (k, v) ∉ m.entries := by
  rw [Option.eq_none_iff_forall_ne_some]
  exact forall_congr' fun v => not_congr get?_eq_some

theorem get?_insert_self : (m.insert k v).get? k = some v :=
  get?_eq_some.mpr (mem_insert.mpr (.inl rfl))

theorem get?_insert_ne (apart : k' ≠ k) : (m.insert k v).get? k' = m.get? k' := by
  ext w
  rw [get?_eq_some, get?_eq_some, mem_insert]
  constructor
  · rintro (same | ⟨member, -⟩)
    · exact absurd (congrArg Prod.fst same) apart
    · exact member
  · exact fun member => .inr ⟨member, apart⟩

theorem mem_erase {e : κ × β} : e ∈ (m.erase k).entries ↔ e ∈ m.entries ∧ e.1 ≠ k := by
  rw [erase, List.mem_filter, Bool.not_eq_true', decide_eq_false_iff_not]

theorem get?_erase_self : (m.erase k).get? k = none :=
  get?_eq_none.mpr fun _ member => (mem_erase.mp member).2 rfl

theorem get?_erase_ne (apart : k' ≠ k) : (m.erase k).get? k' = m.get? k' := by
  ext w
  rw [get?_eq_some, get?_eq_some, mem_erase]
  exact ⟨And.left, fun member => ⟨member, apart⟩⟩

theorem mem_keys : k ∈ m.keys ↔ ∃ v, (k, v) ∈ m.entries := by
  unfold keys
  simp

theorem mem_keys_insert : k' ∈ (m.insert k v).keys ↔ k' = k ∨ k' ∈ m.keys := by
  simp only [mem_keys, mem_insert, Prod.mk.injEq]
  constructor
  · rintro ⟨w, ⟨same, -⟩ | ⟨member, -⟩⟩
    · exact .inl same
    · exact .inr ⟨w, member⟩
  · intro either
    by_cases same : k' = k
    · exact ⟨v, .inl ⟨same, rfl⟩⟩
    · obtain ⟨w, member⟩ := either.resolve_left same
      exact ⟨w, .inr ⟨member, same⟩⟩

theorem keys_sorted (m : SortedMap κ β) : m.keys.Pairwise (· < ·) := List.pairwise_map.mpr m.sorted

end SortedMap

end Logweir.SortedMaps
