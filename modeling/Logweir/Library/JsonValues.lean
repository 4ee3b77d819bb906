import Mathlib.Data.List.Perm.Subperm
import Logweir.Library.MergePatch

/-!
# JSON values

Values as `serde_json` holds them, the members of an object in the order they were
inserted.  Its equality compares the members of two objects by key; values whose keys
are unique are equal exactly when they are the same document.
-/

set_option autoImplicit false

namespace Logweir.JsonValues

open Logweir.MergePatch

/-- A number: an integer, or a finite double by its value. -/
inductive Number where
  | integer (n : Int)
  | float (x : Rat)
  deriving DecidableEq

inductive Value where
  | null
  | bool (b : Bool)
  | number (n : Number)
  | string (s : String)
  | array (items : List Value)
  | object (fields : List (String × Value))

inductive Scalar where
  | bool (b : Bool)
  | number (n : Number)
  | string (s : String)
  deriving DecidableEq

/-- `Map::insert`: in place, or at the end. -/
def put (k : String) (v : Value) : List (String × Value) → List (String × Value)
  | [] => [(k, v)]
  | (k', v') :: fields => if k' = k then (k, v) :: fields else (k', v') :: put k v fields

/-- `Map::remove`. -/
def remove (k : String) (fields : List (String × Value)) : List (String × Value) :=
  fields.filter fun e => e.1 ≠ k

theorem lookup_put (k : String) (v : Value) (key : String) : ∀ fields : List (String × Value),
    (put k v fields).lookup key = if key = k then some v else fields.lookup key
  | [] => by
      rw [put, List.lookup_cons, List.lookup_nil]
      by_cases same : key = k
      · rw [if_pos same, beq_iff_eq.mpr same]
      · rw [if_neg same, beq_false_of_ne same]
  | (k', v') :: fields => by
      rw [put]
      by_cases here : k' = k
      · rw [if_pos here, List.lookup_cons, List.lookup_cons, here]
        by_cases same : key = k
        · rw [if_pos same, beq_iff_eq.mpr same]
        · rw [if_neg same, beq_false_of_ne same]
      · rw [if_neg here, List.lookup_cons, List.lookup_cons, lookup_put k v key fields]
        by_cases same : key = k'
        · have other : ¬ key = k := fun other => here (same.symm.trans other)
          rw [beq_iff_eq.mpr same]
          simp only [if_neg other]
        · rw [beq_false_of_ne same]

theorem lookup_remove (k key : String) : ∀ fields : List (String × Value),
    (remove k fields).lookup key = if key = k then none else fields.lookup key
  | [] => by
      unfold remove
      rw [List.filter_nil, List.lookup_nil, ite_self]
  | (k', v') :: fields => by
      have rest := lookup_remove k key fields
      unfold remove at rest ⊢
      by_cases here : k' = k
      · rw [List.filter_cons_of_neg (by simp [here]), rest, List.lookup_cons]
        by_cases same : key = k
        · rw [if_pos same, if_pos same]
        · rw [if_neg same, if_neg same, here, beq_false_of_ne same]
      · rw [List.filter_cons_of_pos (by simp [here]), List.lookup_cons, List.lookup_cons, rest]
        by_cases same : key = k'
        · have other : ¬ key = k := fun other => here (same.symm.trans other)
          rw [beq_iff_eq.mpr same]
          simp only [if_neg other]
        · rw [beq_false_of_ne same]

theorem mem_put {k : String} {v : Value} {e : String × Value} :
    ∀ {fields : List (String × Value)}, e ∈ put k v fields → e = (k, v) ∨ e ∈ fields
  | [], member => .inl (List.mem_singleton.mp member)
  | (k', v') :: fields, member => by
      rw [put] at member
      split at member
      · rcases List.mem_cons.mp member with same | later
        · exact .inl same
        · exact .inr (List.mem_cons_of_mem _ later)
      · rcases List.mem_cons.mp member with same | later
        · exact .inr (same ▸ List.mem_cons_self)
        · exact (mem_put later).imp_right (List.mem_cons_of_mem _)

theorem keys_put (k : String) (v : Value) : ∀ {fields : List (String × Value)},
    (fields.map Prod.fst).Nodup → ((put k v fields).map Prod.fst).Nodup
  | [], _ => List.pairwise_singleton _ k
  | (k', v') :: fields, unique => by
      rw [put]
      obtain ⟨fresh, unique⟩ := List.nodup_cons.mp unique
      split
      · rename_i here
        exact List.nodup_cons.mpr ⟨here ▸ fresh, unique⟩
      · rename_i other
        refine List.nodup_cons.mpr ⟨fun member => ?_, keys_put k v unique⟩
        obtain ⟨e, inside, named⟩ := List.mem_map.mp member
        rcases mem_put inside with rfl | old
        · exact other named.symm
        · exact fresh (List.mem_map.mpr ⟨e, old, named⟩)

mutual

def Value.doc : Value → Doc Scalar
  | .null => .null
  | .bool b => .atom (.bool b)
  | .number n => .atom (.number n)
  | .string s => .atom (.string s)
  | .array items => .array (docs items)
  | .object fields => .object (docFields fields)

def docs : List Value → List (Doc Scalar)
  | [] => []
  | v :: items => v.doc :: docs items

def docFields : List (String × Value) → String → Option (Doc Scalar)
  | [], _ => none
  | (k, v) :: fields, key => if key = k then some v.doc else docFields fields key

end

mutual

def Value.Valid : Value → Prop
  | .array items => ValidItems items
  | .object fields => (fields.map Prod.fst).Nodup ∧ ValidFields fields
  | _ => True

def ValidItems : List Value → Prop
  | [] => True
  | v :: items => v.Valid ∧ ValidItems items

def ValidFields : List (String × Value) → Prop
  | [] => True
  | (_, v) :: fields => v.Valid ∧ ValidFields fields

end

mutual

/-- `==`. -/
def Value.equals : Value → Value → Bool
  | .null, .null => true
  | .bool b, .bool b' => b == b'
  | .number n, .number n' => decide (n = n')
  | .string s, .string s' => s == s'
  | .array items, .array items' => equalItems items items'
  | .object fields, .object fields' =>
      fields.length == fields'.length && equalFields fields fields'
  | _, _ => false

def equalItems : List Value → List Value → Bool
  | [], [] => true
  | v :: items, v' :: items' => v.equals v' && equalItems items items'
  | _, _ => false

def equalFields : List (String × Value) → List (String × Value) → Bool
  | [], _ => true
  | (k, v) :: fields, fields' =>
      (match fields'.lookup k with
        | some v' => v.equals v'
        | none => false) && equalFields fields fields'

end

theorem docFields_eq (key : String) : ∀ fields : List (String × Value),
    docFields fields key = (fields.lookup key).map Value.doc
  | [] => by rw [docFields, List.lookup_nil, Option.map_none]
  | (k, v) :: fields => by
      rw [docFields, List.lookup_cons, docFields_eq key fields]
      by_cases same : key = k
      · rw [if_pos same, beq_iff_eq.mpr same, Option.map_some]
      · rw [if_neg same, beq_false_of_ne same]

theorem validFields_iff : ∀ {fields : List (String × Value)},
    ValidFields fields ↔ ∀ e ∈ fields, e.2.Valid
  | [] => ⟨fun _ e member => absurd member List.not_mem_nil, fun _ => trivial⟩
  | (k, v) :: fields => by
      rw [ValidFields, List.forall_mem_cons, validFields_iff]

theorem valid_lookup {fields : List (String × Value)} (valid : ValidFields fields) {key : String}
    {v : Value} (here : fields.lookup key = some v) : v.Valid := by
  obtain ⟨before, after, split, -⟩ := List.lookup_eq_some_iff.mp here
  exact validFields_iff.mp valid (key, v) (split ▸ List.mem_append_right _ List.mem_cons_self)

theorem doc_object_inj {fields fields' : List (String × Value)} :
    (Value.object fields).doc = (Value.object fields').doc ↔
      ∀ key, (fields.lookup key).map Value.doc = (fields'.lookup key).map Value.doc := by
  simp only [Value.doc, Doc.object.injEq, funext_iff, docFields_eq]

theorem lookup_isSome {fields : List (String × Value)} {key : String} :
    (fields.lookup key).isSome ↔ key ∈ fields.map Prod.fst := by
  induction fields with
  | nil => simp
  | cons e fields ih =>
      rw [List.lookup_cons, List.map_cons, List.mem_cons]
      by_cases same : key = e.1
      · rw [beq_iff_eq.mpr same]
        exact ⟨fun _ => .inl same, fun _ => rfl⟩
      · rw [beq_false_of_ne same]
        exact ih.trans ⟨.inr, fun h => h.resolve_left same⟩

theorem lookup_of_mem {fields : List (String × Value)} (unique : (fields.map Prod.fst).Nodup)
    {e : String × Value} (member : e ∈ fields) : fields.lookup e.1 = some e.2 := by
  induction fields with
  | nil => exact absurd member List.not_mem_nil
  | cons e' fields ih =>
      obtain ⟨fresh, unique⟩ := List.nodup_cons.mp unique
      rw [List.lookup_cons]
      rcases List.mem_cons.mp member with rfl | later
      · rw [beq_self_eq_true]
      · have other : e.1 ≠ e'.1 := fun same =>
          fresh (same ▸ List.mem_map_of_mem later)
        rw [beq_false_of_ne other]
        exact ih unique later

/-- Objects of unique keys, one as long as the other, are equal when every member of the
one is a member of the other. -/
theorem object_doc_iff {fields fields' : List (String × Value)}
    (unique : (fields.map Prod.fst).Nodup) (unique' : (fields'.map Prod.fst).Nodup) :
    (Value.object fields).doc = (Value.object fields').doc ↔ fields.length = fields'.length ∧
      ∀ e ∈ fields, ∃ v', fields'.lookup e.1 = some v' ∧ e.2.doc = v'.doc := by
  rw [doc_object_inj]
  constructor
  · intro same
    have keys : ∀ key, key ∈ fields.map Prod.fst ↔ key ∈ fields'.map Prod.fst := by
      intro key
      rw [← lookup_isSome, ← lookup_isSome, ← Option.isSome_map, same key, Option.isSome_map]
    have perm : (fields.map Prod.fst).Perm (fields'.map Prod.fst) :=
      (List.perm_ext_iff_of_nodup unique unique').mpr keys
    refine ⟨by simpa only [List.length_map] using perm.length_eq, fun e member => ?_⟩
    have here := same e.1
    rw [lookup_of_mem unique member, Option.map_some] at here
    obtain ⟨v', found, equal⟩ := Option.map_eq_some_iff.mp here.symm
    exact ⟨v', found, equal.symm⟩
  · rintro ⟨length, each⟩ key
    have subset : fields.map Prod.fst ⊆ fields'.map Prod.fst := by
      intro key member
      obtain ⟨e, inside, rfl⟩ := List.mem_map.mp member
      obtain ⟨v', found, -⟩ := each e inside
      exact lookup_isSome.mp (found ▸ rfl)
    have perm : (fields.map Prod.fst).Perm (fields'.map Prod.fst) := by
      refine (List.subperm_of_subset unique subset).perm_of_length_le ?_
      simp only [List.length_map, length, Nat.le_refl]
    cases found : fields.lookup key with
    | some v =>
        obtain ⟨before, after, split, -⟩ := List.lookup_eq_some_iff.mp found
        obtain ⟨v', found', equal⟩ := each (key, v)
          (split ▸ List.mem_append_right _ List.mem_cons_self)
        simp only at found' equal
        rw [found', Option.map_some, Option.map_some, equal]
    | none =>
        cases found' : fields'.lookup key with
        | none => rfl
        | some v' =>
            have member := perm.mem_iff.mpr
              (lookup_isSome.mp (Option.isSome_iff_exists.mpr ⟨v', found'⟩))
            rw [← lookup_isSome, found] at member
            cases member

mutual

theorem equals_iff : ∀ v v' : Value, v.Valid → v'.Valid → (v.equals v' = true ↔ v.doc = v'.doc)
  | .null, v', _, _ => by cases v' <;> simp [Value.equals, Value.doc]
  | .bool b, v', _, _ => by cases v' <;> simp [Value.equals, Value.doc]
  | .number n, v', _, _ => by cases v' <;> simp [Value.equals, Value.doc]
  | .string s, v', _, _ => by cases v' <;> simp [Value.equals, Value.doc]
  | .array items, v', valid, valid' => by
      cases v' with
      | array items' =>
          simp only [Value.equals, Value.doc, Doc.array.injEq]
          exact equalItems_iff items items' valid valid'
      | _ => simp [Value.equals, Value.doc]
  | .object fields, v', valid, valid' => by
      cases v' with
      | object fields' =>
          rw [object_doc_iff valid.1 valid'.1, Value.equals, Bool.and_eq_true, beq_iff_eq,
            equalFields_iff fields fields' valid.2 valid'.2]
      | _ => simp [Value.equals, Value.doc]

theorem equalItems_iff : ∀ items items' : List Value, ValidItems items → ValidItems items' →
    (equalItems items items' = true ↔ docs items = docs items')
  | [], [], _, _ => by simp [equalItems]
  | [], _ :: _, _, _ => by simp [equalItems, docs]
  | _ :: _, [], _, _ => by simp [equalItems, docs]
  | v :: items, v' :: items', valid, valid' => by
      rw [equalItems, Bool.and_eq_true, docs, docs, List.cons.injEq,
        equals_iff v v' valid.1 valid'.1, equalItems_iff items items' valid.2 valid'.2]

theorem equalFields_iff : ∀ fields fields' : List (String × Value), ValidFields fields →
    ValidFields fields' → (equalFields fields fields' = true ↔
      ∀ e ∈ fields, ∃ v', fields'.lookup e.1 = some v' ∧ e.2.doc = v'.doc)
  | [], _, _, _ => by simp [equalFields]
  | (k, v) :: fields, fields', valid, valid' => by
      rw [equalFields, Bool.and_eq_true, List.forall_mem_cons,
        equalFields_iff fields fields' valid.2 valid']
      refine and_congr_left fun _ => ?_
      cases found : fields'.lookup k with
      | none => simp
      | some v' =>
          simp only [Option.some.injEq, exists_eq_left']
          exact equals_iff v v' valid.1 (valid_lookup valid' found)

end

end Logweir.JsonValues
