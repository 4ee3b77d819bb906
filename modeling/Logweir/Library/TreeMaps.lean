import Std.Data.ExtTreeMap
import Std.Data.ExtTreeSet
import Mathlib.Data.List.Nodup
import Mathlib.Data.List.Perm.Subperm
import Logweir.Library.Results

/-!
# Ordered maps as sorted lists

An ordered map is the one strictly ascending list of its entries.
-/

set_option autoImplicit false

namespace Logweir.TreeMaps

open Std (ExtTreeMap ExtTreeSet TransCmp LawfulEqCmp)
open Logweir.Results

variable {κ β : Type} {cmp : κ → κ → Ordering} [TransCmp cmp]

theorem not_lt_self (a : κ) : ¬ cmp a a = .lt := by
  intro h
  have equal : cmp a a = .eq := Std.ReflCmp.compare_self
  rw [equal] at h
  cases h

theorem keys_nodup (m : ExtTreeMap κ β cmp) : m.keys.Nodup := by
  apply List.Pairwise.imp _ ExtTreeMap.ordered_keys
  intro a b less same
  subst same
  exact not_lt_self a less

theorem length_keys (m : ExtTreeMap κ β cmp) : m.keys.length = m.size := by
  rw [← ExtTreeMap.map_fst_toList_eq_keys, List.length_map, ExtTreeMap.length_toList]

/-- A strictly ascending list of as many entries as the map holds is the map's. -/
theorem eq_toList_of_sorted [LawfulEqCmp cmp] (m : ExtTreeMap κ β cmp) (l : List (κ × β))
    (sorted : l.Pairwise fun a b => cmp a.1 b.1 = .lt) (held : ∀ p ∈ l, m[p.1]? = some p.2)
    (full : l.length = m.size) : l = m.toList := by
  have distinct : l.Nodup := by
    apply List.Pairwise.imp _ sorted
    intro a b less same
    subst same
    exact not_lt_self a.1 less
  have inside : l ⊆ m.toList := fun p hp =>
    ExtTreeMap.mem_toList_iff_getElem?_eq_some.mpr (held p hp)
  have perm : l.Perm m.toList := by
    apply (List.subperm_of_subset distinct inside).perm_of_length_le
    exact Nat.le_of_eq (ExtTreeMap.length_toList.trans full.symm)
  apply perm.eq_of_pairwise _ sorted ExtTreeMap.ordered_keys_toList
  intro a b _ _ ab ba
  rw [Std.OrientedCmp.gt_of_lt ab] at ba
  cases ba

theorem sorted_mergeSort {α : Type} (f : α → Int) (l : List α) :
    (l.mergeSort fun a b => decide (f a ≤ f b)).Pairwise fun a b => f a ≤ f b := by
  refine (List.pairwise_mergeSort (fun a b c ab bc => ?_) (fun a b => ?_) l).imp of_decide_eq_true
  · exact decide_eq_true (Int.le_trans (of_decide_eq_true ab) (of_decide_eq_true bc))
  · rw [Bool.or_eq_true, decide_eq_true_eq, decide_eq_true_eq]
    exact Int.le_total (f a) (f b)

/-- Counting over a list of distinct keys, one more key being counted in. -/
theorem countP_insert {α : Type} [DecidableEq α] (p q : α → Bool) (x : α) (new : p x = false)
    (same : ∀ a, q a = (p a || a == x)) : ∀ l : List α, l.Nodup →
      l.countP q = l.countP p + if x ∈ l then 1 else 0 := by
  intro l
  induction l with
  | nil => intro _; rfl
  | cons a l ih =>
      intro distinct
      obtain ⟨fresh, distinct⟩ := List.nodup_cons.mp distinct
      rw [List.countP_cons, List.countP_cons, ih distinct, same a]
      by_cases eq : a = x
      · subst eq
        simp [new, fresh]
      · have ne : ¬ x = a := fun h => eq h.symm
        simp only [List.mem_cons, ne, false_or, beq_eq_false_iff_ne.mpr eq, Bool.or_false]
        omega

theorem getElem?_foldl_insert [DecidableEq κ] [LawfulEqCmp cmp] (v : β) (k : κ) :
    ∀ (l : List κ) (m : ExtTreeMap κ β cmp),
      (l.foldl (fun m q => m.insert q v) m)[k]? = if k ∈ l then some v else m[k]? := by
  intro l
  induction l with
  | nil => exact fun m => rfl
  | cons a l ih =>
      intro m
      rw [List.foldl_cons, ih, ExtTreeMap.getElem?_insert]
      by_cases same : a = k
      · subst same
        simp
      · have apart : cmp a k ≠ .eq := fun h => same (LawfulEqCmp.eq_of_compare h)
        have other : ¬ k = a := fun h => same h.symm
        simp [apart, other]

theorem getElem?_foldl_entries [LawfulEqCmp cmp] {γ : Type} (f : κ → β → γ) (k : κ) :
    ∀ (l : List (κ × β)) (m : ExtTreeMap κ γ cmp), (l.Pairwise fun a b => cmp a.1 b.1 = .lt) →
      (∀ b, (k, b) ∈ l →
        (l.foldl (fun m e => m.insert e.1 (f e.1 e.2)) m)[k]? = some (f k b)) ∧
      ((∀ b, (k, b) ∉ l) → (l.foldl (fun m e => m.insert e.1 (f e.1 e.2)) m)[k]? = m[k]?) := by
  intro l
  induction l with
  | nil => exact fun m _ => ⟨fun b none => (nomatch none), fun _ => rfl⟩
  | cons e l ih =>
      intro m sorted
      obtain ⟨first, rest⟩ := List.pairwise_cons.mp sorted
      obtain ⟨inside, outside⟩ := ih (m.insert e.1 (f e.1 e.2)) rest
      rw [List.foldl_cons]
      constructor
      · intro b mem
        rcases List.mem_cons.mp mem with same | later
        · subst same
          have fresh : ∀ b', (k, b') ∉ l := fun b' again => not_lt_self k (first (k, b') again)
          rw [outside fresh, ExtTreeMap.getElem?_insert_self]
        · exact inside b later
      · intro absent
        rw [outside fun b later => absent b (List.mem_cons_of_mem e later),
          ExtTreeMap.getElem?_insert]
        have apart : cmp e.1 k ≠ .eq := by
          intro h
          have same := LawfulEqCmp.eq_of_compare h
          exact absent e.2 (by rw [← same]; exact List.mem_cons_self)
        rw [if_neg apart]

theorem getElem?_rebuilt [LawfulEqCmp cmp] {γ : Type} (f : κ → β → γ) (m : ExtTreeMap κ β cmp)
    (k : κ) :
    (m.toList.foldl (fun r e => r.insert e.1 (f e.1 e.2)) (∅ : ExtTreeMap κ γ cmp))[k]? =
      (m[k]?).map (f k) := by
  obtain ⟨inside, outside⟩ := getElem?_foldl_entries f k m.toList (∅ : ExtTreeMap κ γ cmp)
    ExtTreeMap.ordered_keys_toList
  cases held : m[k]? with
  | some b => exact inside b (ExtTreeMap.mem_toList_iff_getElem?_eq_some.mpr held)
  | none =>
      rw [outside fun b mem => ?_]
      · simp
      · rw [ExtTreeMap.mem_toList_iff_getElem?_eq_some.mp mem] at held
        cases held

theorem rebuilt_eq_map [LawfulEqCmp cmp] {γ : Type} (f : κ → β → γ) (m : ExtTreeMap κ β cmp) :
    m.toList.foldl (fun r e => r.insert e.1 (f e.1 e.2)) (∅ : ExtTreeMap κ γ cmp) = m.map f := by
  apply ExtTreeMap.ext_getElem?
  intro k
  rw [getElem?_rebuilt, ExtTreeMap.getElem?_map]

/-- The map of a list of entries, a later entry replacing an earlier one of its key. -/
def ofEntries (entries : List (κ × β)) : ExtTreeMap κ β cmp :=
  entries.foldl (fun m e => m.insert e.1 e.2) ∅

theorem getElem?_foldl_inserts [DecidableEq κ] [LawfulEqCmp cmp] (k : κ) (v : β) :
    ∀ (entries : List (κ × β)) (m : ExtTreeMap κ β cmp),
      (∀ e ∈ entries, ∀ e' ∈ entries, e.1 = e'.1 → e.2 = e'.2) →
      ((entries.foldl (fun m e => m.insert e.1 e.2) m)[k]? = some v ↔
        (k, v) ∈ entries ∨ ((∀ e ∈ entries, e.1 ≠ k) ∧ m[k]? = some v)) := by
  intro entries
  induction entries with
  | nil => simp
  | cons e entries ih =>
      intro m functional
      rw [List.foldl_cons, ih _ fun a ha b hb =>
        functional a (List.mem_cons_of_mem e ha) b (List.mem_cons_of_mem e hb)]
      rw [ExtTreeMap.getElem?_insert]
      by_cases same : e.1 = k
      · have equal : cmp e.1 k = .eq := by rw [same]; exact Std.ReflCmp.compare_self
        simp only [equal, if_true, Option.some.injEq, List.mem_cons]
        constructor
        · rintro (later | ⟨-, here⟩)
          · exact .inl (.inr later)
          · exact .inl (.inl (Prod.ext same.symm here.symm))
        · rintro ((here | later) | ⟨absent, -⟩)
          · by_cases again : ∃ e' ∈ entries, e'.1 = k
            · obtain ⟨e', member, key⟩ := again
              have value : e'.2 = v := by
                have agree := functional e' (List.mem_cons_of_mem e member) e List.mem_cons_self
                  (key.trans same.symm)
                rw [agree, ← here]
              exact .inl (by rw [← key, ← value]; exact member)
            · refine .inr ⟨fun e' member key => again ⟨e', member, key⟩, ?_⟩
              rw [← here]
          · exact .inl later
          · exact absurd same (absent e (.inl rfl))
      · have unequal : cmp e.1 k ≠ .eq := fun h => same (Std.LawfulEqCmp.eq_of_compare h)
        simp only [unequal, if_false, List.mem_cons]
        constructor
        · rintro (later | ⟨absent, held⟩)
          · exact .inl (.inr later)
          · refine .inr ⟨?_, held⟩
            rintro e' (rfl | member)
            · exact same
            · exact absent e' member
        · rintro ((here | later) | ⟨absent, held⟩)
          · exact absurd (congrArg Prod.fst here).symm same
          · exact .inl later
          · exact .inr ⟨fun e' member => absent e' (.inr member), held⟩

theorem getElem?_ofEntries [DecidableEq κ] [LawfulEqCmp cmp] (entries : List (κ × β))
    (functional : ∀ e ∈ entries, ∀ e' ∈ entries, e.1 = e'.1 → e.2 = e'.2) (k : κ) (v : β) :
    (ofEntries entries : ExtTreeMap κ β cmp)[k]? = some v ↔ (k, v) ∈ entries := by
  unfold ofEntries
  rw [getElem?_foldl_inserts k v entries ∅ functional]
  simp

theorem toList_ofEntries_perm [DecidableEq κ] [LawfulEqCmp cmp] {entries : List (κ × β)}
    (distinct : (entries.map Prod.fst).Nodup) :
    (ofEntries entries : ExtTreeMap κ β cmp).toList.Perm entries := by
  have functional : ∀ e ∈ entries, ∀ e' ∈ entries, e.1 = e'.1 → e.2 = e'.2 := by
    intro e here e' here' same
    rw [List.inj_on_of_nodup_map distinct here here' same]
  have keys : ((ofEntries entries : ExtTreeMap κ β cmp).toList.map Prod.fst).Nodup := by
    rw [ExtTreeMap.map_fst_toList_eq_keys]
    exact keys_nodup _
  refine (List.perm_ext_iff_of_nodup (List.Nodup.of_map _ keys) (List.Nodup.of_map _ distinct)).mpr fun e => ?_
  rw [ExtTreeMap.mem_toList_iff_getElem?_eq_some, getElem?_ofEntries entries functional]

theorem toList_single [DecidableEq κ] [LawfulEqCmp cmp] (k : κ) (v : β) :
    (ofEntries [(k, v)] : ExtTreeMap κ β cmp).toList = [(k, v)] := by
  symm
  apply eq_toList_of_sorted
  · exact List.pairwise_singleton _ _
  · intro p member
    rw [getElem?_ofEntries [(k, v)] fun e here e' here' _ => by
      rw [List.mem_singleton.mp here, List.mem_singleton.mp here']]
    exact member
  · rw [ofEntries, List.foldl_cons, List.foldl_nil, ExtTreeMap.size_insert]
    rfl

section Unions

variable {a b : ExtTreeMap κ β cmp}

theorem getElem?_union_iff {k : κ} {v : β}
    (apart : ∀ v v' : β, a[k]? = some v → b[k]? = some v' → False) :
    (a ∪ b)[k]? = some v ↔ a[k]? = some v ∨ b[k]? = some v := by
  rw [ExtTreeMap.getElem?_union, Option.or_eq_some_iff]
  constructor
  · rintro (right | ⟨-, left⟩)
    · exact .inr right
    · exact .inl left
  · rintro (left | right)
    · cases held : b[k]? with
      | none => exact .inr ⟨rfl, left⟩
      | some v' => exact (apart v v' left held).elim
    · exact .inl right

theorem mem_keys_iff [LawfulEqCmp cmp] (m : ExtTreeMap κ β cmp) (k : κ) : k ∈ m.keys ↔ ∃ v, m[k]? = some v := by
  rw [ExtTreeMap.mem_keys, ExtTreeMap.mem_iff_isSome_getElem?, Option.isSome_iff_exists]

theorem keys_union_perm [LawfulEqCmp cmp] (a b : ExtTreeMap κ β cmp)
    (apart : ∀ (k : κ) (v v' : β), a[k]? = some v → b[k]? = some v' → False) :
    (a ∪ b).keys.Perm (a.keys ++ b.keys) := by
  have distinct : (a.keys ++ b.keys).Nodup := by
    refine List.nodup_append.mpr ⟨keys_nodup a, keys_nodup b, ?_⟩
    rintro k left _ right rfl
    obtain ⟨v, left⟩ := (mem_keys_iff a k).mp left
    obtain ⟨v', right⟩ := (mem_keys_iff b k).mp right
    exact apart k v v' left right
  apply (List.perm_ext_iff_of_nodup (keys_nodup _) distinct).mpr
  intro k
  simp only [List.mem_append, mem_keys_iff, getElem?_union_iff (apart k)]
  exact exists_or

end Unions

/-- A map filled by a computation for each of a list's entries, under distinct keys. -/
theorem foldlM_insert [DecidableEq κ] [LawfulEqCmp cmp] {α ε : Type} (f : α → Except ε β) :
    ∀ (entries : List (α × κ)) (m m' : ExtTreeMap κ β cmp), (entries.map Prod.snd).Nodup →
      entries.foldlM (fun m e => do
        let v ← f e.1
        return m.insert e.2 v) m = .ok m' →
      (∀ e ∈ entries, ∃ v, f e.1 = .ok v ∧ m'[e.2]? = some v) ∧
        ∀ k, k ∉ entries.map Prod.snd → m'[k]? = m[k]? := by
  intro entries
  induction entries with
  | nil =>
      intro m m' _ h
      cases h
      exact ⟨fun _ none => (nomatch none), fun _ _ => rfl⟩
  | cons e entries ih =>
      intro m m' distinct h
      rw [List.map_cons] at distinct
      obtain ⟨fresh, distinct⟩ := List.nodup_cons.mp distinct
      rw [List.foldlM_cons] at h
      obtain ⟨_, first, rest⟩ := bind_eq_ok.mp h
      obtain ⟨v, value, first⟩ := bind_eq_ok.mp first
      cases first
      obtain ⟨inside, outside⟩ := ih _ m' distinct rest
      constructor
      · intro e' member
        rcases List.mem_cons.mp member with rfl | later
        · exact ⟨v, value, by rw [outside e'.2 fresh, ExtTreeMap.getElem?_insert_self]⟩
        · exact inside e' later
      · intro k absent
        rw [List.map_cons, List.mem_cons, not_or] at absent
        have apart : cmp e.2 k ≠ .eq := fun h => absent.1 (LawfulEqCmp.eq_of_compare h).symm
        rw [outside k absent.2, ExtTreeMap.getElem?_insert, if_neg apart]

end Logweir.TreeMaps
