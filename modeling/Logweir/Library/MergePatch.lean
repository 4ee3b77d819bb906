/-!
# JSON merge patch

Documents whose objects are functions of their keys, so that two documents are equal
when their members are, in whatever order they were written, and the merge of RFC 7386
on them: `null` deletes a member, an object merges into a member, anything else
replaces it.  A block is made to replace a stored one by sending `null` for every
member that only the stored one has.
-/

set_option autoImplicit false

namespace Logweir.MergePatch

inductive Doc (α : Type) where
  | null
  | atom (a : α)
  | array (items : List (Doc α))
  | object (fields : String → Option (Doc α))

namespace Doc

variable {α : Type}

/-- The members of a document: none of what is not an object. -/
def fields : Doc α → String → Option (Doc α)
  | .object fields => fields
  | _ => fun _ => none

def IsObject : Doc α → Prop
  | .object _ => True
  | _ => False

mutual

/-- `MergePatch(target, patch)`. -/
def merge (target : Doc α) : Doc α → Doc α
  | .object patch => .object fun key => mergeField (target.fields key) (patch key)
  | .null => .null
  | .atom a => .atom a
  | .array items => .array items

/-- One member under a patch that may name it. -/
def mergeField (old : Option (Doc α)) : Option (Doc α) → Option (Doc α)
  | none => old
  | some .null => none
  | some value => some (merge (old.getD .null) value)

end

mutual

/-- No member of an object is `null`, at any level. -/
def NullFree : Doc α → Prop
  | .object fields => ∀ key, FieldNullFree (fields key)
  | _ => True

def FieldNullFree : Option (Doc α) → Prop
  | none => True
  | some .null => False
  | some value => NullFree value

end

mutual

/-- The patch that makes `next` replace `stored` instead of merging into it. -/
def replacing : Doc α → Doc α → Doc α
  | .object next, .object stored => .object fun key => replacingField (next key) (stored key)
  | next, _ => next

def replacingField : Option (Doc α) → Option (Doc α) → Option (Doc α)
  | none, none => none
  | none, some _ => some .null
  | some value, none => some value
  | some value, some old => some (replacing value old)

end

theorem atom_ne_null (a : α) : atom a ≠ null := fun same => by cases same

theorem array_ne_null (items : List (Doc α)) : array items ≠ null := fun same => by cases same

theorem object_ne_null (f : String → Option (Doc α)) : object f ≠ null := fun same => by cases same

@[simp]
theorem fields_object (f : String → Option (Doc α)) : (object f).fields = f := rfl

@[simp]
theorem merge_object (target : Doc α) (patch : String → Option (Doc α)) :
    merge target (.object patch) =
      .object fun key => mergeField (target.fields key) (patch key) := by
  rw [merge]

@[simp]
theorem mergeField_none_right (old : Option (Doc α)) : mergeField old none = old := by
  rw [mergeField]

@[simp]
theorem mergeField_null (old : Option (Doc α)) : mergeField old (some .null) = none := by
  rw [mergeField]

theorem mergeField_some (old : Option (Doc α)) {value : Doc α} (kept : value ≠ .null) :
    mergeField old (some value) = some (merge (old.getD .null) value) := by
  cases value with
  | null => exact absurd rfl kept
  | _ => rw [mergeField]; simp

theorem fieldNullFree_some {value : Doc α} (free : FieldNullFree (some value)) :
    value ≠ .null ∧ value.NullFree := by
  cases value with
  | null => exact free.elim
  | atom a => exact ⟨atom_ne_null a, trivial⟩
  | array items => exact ⟨array_ne_null items, trivial⟩
  | object fields => exact ⟨object_ne_null fields, free⟩

mutual

/-- Merged onto what has no members, a document without `null` is itself. -/
theorem merge_bare {target : Doc α} (bare : ∀ key, target.fields key = none) :
    ∀ next : Doc α, next.NullFree → merge target next = next
  | .object next, free => by
      rw [merge_object]
      congr 1
      funext key
      rw [bare]
      exact mergeField_bare (next key) (free key)
  | .null, _ => by rw [merge]
  | .atom _, _ => by rw [merge]
  | .array _, _ => by rw [merge]

theorem mergeField_bare : ∀ next : Option (Doc α), FieldNullFree next → mergeField none next = next
  | none, _ => mergeField_none_right none
  | some .null, free => free.elim
  | some (.atom a), _ => by rw [mergeField_some _ (atom_ne_null a), merge]
  | some (.array items), _ => by rw [mergeField_some _ (array_ne_null items), merge]
  | some (.object next), free => by
      rw [mergeField_some _ (object_ne_null next), merge_bare (fun _ => rfl) (.object next) free]

end

/-- What replaces a document that is not `null` is not `null`. -/
theorem replacing_ne_null {next : Doc α} (kept : next ≠ .null) (stored : Doc α) :
    replacing next stored ≠ .null := by
  unfold replacing
  split
  · exact object_ne_null _
  · exact kept

mutual

/-- Merging what makes `next` replace `stored` gives exactly `next`. -/
theorem merge_replacing : ∀ next stored : Doc α, next.NullFree →
    merge stored (replacing next stored) = next
  | .object next, .object stored, free => by
      rw [replacing, merge_object]
      congr 1
      funext key
      exact mergeField_replacing (next key) (stored key) (free key)
  | .object next, .null, free => merge_bare (fun _ => rfl) (.object next) free
  | .object next, .atom _, free => merge_bare (fun _ => rfl) (.object next) free
  | .object next, .array _, free => merge_bare (fun _ => rfl) (.object next) free
  | .null, _, _ => by simp only [replacing, merge]
  | .atom _, _, _ => by simp only [replacing, merge]
  | .array _, _, _ => by simp only [replacing, merge]

theorem mergeField_replacing : ∀ next stored : Option (Doc α), FieldNullFree next →
    mergeField stored (replacingField next stored) = next
  | none, none, _ => by simp only [replacingField, mergeField_none_right]
  | none, some _, _ => by simp only [replacingField, mergeField_null]
  | some value, none, free => by
      rw [replacingField]
      exact mergeField_bare (some value) free
  | some value, some old, free => by
      obtain ⟨kept, free⟩ := fieldNullFree_some free
      rw [replacingField, mergeField_some _ (replacing_ne_null kept old), Option.getD_some,
        merge_replacing value old free]

end

mutual

theorem merge_self : ∀ d : Doc α, d.NullFree → merge d d = d
  | .object fields, free => by
      rw [merge_object, fields_object]
      congr 1
      funext key
      exact mergeField_self (fields key) (free key)
  | .null, _ => by rw [merge]
  | .atom _, _ => by rw [merge]
  | .array _, _ => by rw [merge]

theorem mergeField_self : ∀ field : Option (Doc α), FieldNullFree field →
    mergeField field field = field
  | none, _ => mergeField_none_right none
  | some value, free => by
      obtain ⟨kept, free⟩ := fieldNullFree_some free
      rw [mergeField_some _ kept, Option.getD_some, merge_self value free]

end

end Doc

end Logweir.MergePatch
