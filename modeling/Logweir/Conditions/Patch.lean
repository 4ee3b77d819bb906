import Logweir.Library.JsonValues

/-!
# Status patches

`weirkeeper::conditions`, the merge patch of a `/status` write: what the API server
makes of it, whether it changes anything, the block that replaces a stored one, and the
instant that is put back when nothing else of its block moved.
-/

set_option autoImplicit false

namespace Logweir.Conditions

open Logweir.MergePatch Logweir.JsonValues

def members : Value → List (String × Value)
  | .object fields => fields
  | _ => []

def isObject : Value → Bool
  | .object _ => true
  | _ => false

def isNull : Value → Bool
  | .null => true
  | _ => false

/-- `Value::get`. -/
def get (key : String) : Value → Option Value
  | .object fields => fields.lookup key
  | _ => none

mutual

/-- `apply_merge_patch`. -/
def applyMergePatch (target : Value) : Value → Value
  | .object fields => .object (applyFields (members target) fields)
  | patch => patch

def applyFields (map : List (String × Value)) : List (String × Value) → List (String × Value)
  | [] => map
  | (k, v) :: fields =>
      applyFields
        (if isNull v then remove k map
          else put k (applyMergePatch ((map.lookup k).getD .null) v) map) fields

end

/-- `status_unchanged`. -/
def statusUnchanged (current : Option Value) (next : Value) : Bool :=
  match get "status" next with
  | none => true
  | some status =>
      (applyMergePatch (current.getD .null) status).equals (current.getD .null)

mutual

def replacingStored (next : Value) : Value → Value
  | .object old => match next with
      | .object fields => .object (replaceFields fields old)
      | next => next
  | _ => next

def replaceFields (fields : List (String × Value)) : List (String × Value) → List (String × Value)
  | [] => fields
  | (key, old) :: rest =>
      replaceFields
        (match fields.lookup key with
          | none => put key .null fields
          | some value => put key (replacingStored value old) fields) rest

end

def replacing (next : Value) (stored : Option Value) : Value :=
  match stored with
  | some stored => replacingStored next stored
  | none => next

def without (instant : String) : Value → Value
  | .object fields => .object (remove instant fields)
  | value => value

/-- `keep_instant_unless_changed`: whether the stored instant was put back, and the
block as it will be sent. -/
def keepInstantUnlessChanged (stored : Option Value) (next : Value) (instant : String) :
    Bool × Value :=
  match stored.filter isObject with
  | none => (false, next)
  | some stored =>
      match (get instant stored).filter fun v => !isNull v with
      | none => (false, next)
      | some kept =>
          if (without instant (applyMergePatch stored next)).equals (without instant stored) then
            match next with
            | .object fields => (true, .object (put instant kept fields))
            | next => (false, next)
          else (false, next)

theorem isNull_iff {v : Value} : isNull v = true ↔ v.doc = .null := by
  cases v <;> simp [isNull, Value.doc]

theorem docFields_members (v : Value) : docFields (members v) = v.doc.fields := by
  cases v with
  | object fields => rfl
  | _ =>
      funext key
      rfl

theorem fields_doc (v : Value) (key : String) : v.doc.fields key = (get key v).map Value.doc := by
  cases v with
  | object fields => exact docFields_eq key fields
  | _ => rfl

theorem docFields_put (k : String) (v : Value) (fields : List (String × Value)) (key : String) :
    docFields (put k v fields) key = if key = k then some v.doc else docFields fields key := by
  rw [docFields_eq, docFields_eq, lookup_put]
  split <;> rfl

theorem docFields_remove (k : String) (fields : List (String × Value)) (key : String) :
    docFields (remove k fields) key = if key = k then none else docFields fields key := by
  rw [docFields_eq, docFields_eq, lookup_remove]
  split <;> rfl

theorem docFields_fresh {k : String} {fields : List (String × Value)}
    (fresh : k ∉ fields.map Prod.fst) : docFields fields k = none := by
  rw [docFields_eq, Option.map_eq_none_iff]
  cases found : fields.lookup k with
  | none => rfl
  | some v => exact absurd (lookup_isSome.mp (Option.isSome_iff_exists.mpr ⟨v, found⟩)) fresh

mutual

theorem doc_applyMergePatch : ∀ (patch target : Value), patch.Valid →
    (applyMergePatch target patch).doc = Doc.merge target.doc patch.doc
  | .object fields, target, valid => by
      rw [applyMergePatch, Value.doc, Value.doc, Doc.merge_object]
      congr 1
      funext key
      rw [docFields_applyFields fields (members target) key valid.1 valid.2, docFields_members]
  | .null, _, _ => by simp only [applyMergePatch, Value.doc, Doc.merge]
  | .bool _, _, _ => by simp only [applyMergePatch, Value.doc, Doc.merge]
  | .number _, _, _ => by simp only [applyMergePatch, Value.doc, Doc.merge]
  | .string _, _, _ => by simp only [applyMergePatch, Value.doc, Doc.merge]
  | .array _, _, _ => by simp only [applyMergePatch, Value.doc, Doc.merge]

theorem docFields_applyFields : ∀ (fields map : List (String × Value)) (key : String),
    (fields.map Prod.fst).Nodup → ValidFields fields → docFields (applyFields map fields) key =
      Doc.mergeField (docFields map key) (docFields fields key)
  | [], map, key, _, _ => by rw [applyFields, docFields, Doc.mergeField_none_right]
  | (k, v) :: fields, map, key, unique, valid => by
      obtain ⟨fresh, unique⟩ := List.nodup_cons.mp unique
      rw [applyFields, docFields_applyFields fields _ key unique valid.2]
      by_cases same : key = k
      · -- the rest of the patch does not name the member again
        subst same
        rw [docFields_fresh fresh, Doc.mergeField_none_right, docFields, if_pos rfl]
        by_cases null : isNull v = true
        · rw [if_pos null, docFields_remove, if_pos rfl, isNull_iff.mp null, Doc.mergeField_null]
        · rw [if_neg null, docFields_put, if_pos rfl, doc_applyMergePatch v _ valid.1,
            Doc.mergeField_some _ fun nothing => null (isNull_iff.mpr nothing), docFields_eq]
          cases map.lookup key <;> rfl
      · have kept : docFields (if isNull v = true then remove k map
            else put k (applyMergePatch ((map.lookup k).getD .null) v) map) key =
            docFields map key := by
          split
          · rw [docFields_remove, if_neg same]
          · rw [docFields_put, if_neg same]
        rw [kept, docFields, if_neg same]

end

mutual

theorem doc_replacingStored : ∀ (stored next : Value), stored.Valid →
    (replacingStored next stored).doc = Doc.replacing next.doc stored.doc
  | .object old, .object fields, valid => by
      rw [replacingStored, Value.doc, Value.doc, Value.doc, Doc.replacing]
      congr 1
      funext key
      exact docFields_replaceFields old fields key valid.1 valid.2
  | .object _, .null, _ => by simp only [replacingStored, Value.doc, Doc.replacing]
  | .object _, .bool _, _ => by simp only [replacingStored, Value.doc, Doc.replacing]
  | .object _, .number _, _ => by simp only [replacingStored, Value.doc, Doc.replacing]
  | .object _, .string _, _ => by simp only [replacingStored, Value.doc, Doc.replacing]
  | .object _, .array _, _ => by simp only [replacingStored, Value.doc, Doc.replacing]
  | .null, next, _ => by cases next <;> simp only [replacingStored, Value.doc, Doc.replacing]
  | .bool _, next, _ => by cases next <;> simp only [replacingStored, Value.doc, Doc.replacing]
  | .number _, next, _ => by cases next <;> simp only [replacingStored, Value.doc, Doc.replacing]
  | .string _, next, _ => by cases next <;> simp only [replacingStored, Value.doc, Doc.replacing]
  | .array _, next, _ => by cases next <;> simp only [replacingStored, Value.doc, Doc.replacing]

theorem docFields_replaceFields : ∀ (old fields : List (String × Value)) (key : String),
    (old.map Prod.fst).Nodup → ValidFields old → docFields (replaceFields fields old) key =
      Doc.replacingField (docFields fields key) (docFields old key)
  | [], fields, key, _, _ => by
      rw [replaceFields, docFields]
      cases docFields fields key <;> rfl
  | (k, v) :: old, fields, key, unique, valid => by
      obtain ⟨fresh, unique⟩ := List.nodup_cons.mp unique
      rw [replaceFields, docFields_replaceFields old _ key unique valid.2]
      by_cases same : key = k
      · subst same
        rw [docFields_fresh fresh, docFields, if_pos rfl]
        cases found : fields.lookup key with
        | none =>
            rw [docFields_put, if_pos rfl, docFields_eq, found]
            rfl
        | some value =>
            rw [docFields_put, if_pos rfl, docFields_eq, found, doc_replacingStored v value valid.1]
            rfl
      · have kept : docFields (match fields.lookup k with
            | none => put k .null fields
            | some value => put k (replacingStored value v) fields) key = docFields fields key := by
          split <;> rw [docFields_put, if_neg same]
        rw [kept, docFields, if_neg same]

end

theorem keys_members {v : Value} (valid : v.Valid) : ((members v).map Prod.fst).Nodup := by
  cases v with
  | object fields => exact valid.1
  | _ => exact List.nodup_nil

theorem validFields_members {v : Value} (valid : v.Valid) : ValidFields (members v) := by
  cases v with
  | object fields => exact valid.2
  | _ => trivial

theorem validFields_put {k : String} {v : Value} {fields : List (String × Value)} (valid : v.Valid)
    (all : ValidFields fields) : ValidFields (put k v fields) := by
  refine validFields_iff.mpr fun e member => ?_
  rcases mem_put member with rfl | old
  · exact valid
  · exact validFields_iff.mp all e old

theorem validFields_remove {fields : List (String × Value)} (k : String) (all : ValidFields fields) :
    ValidFields (remove k fields) :=
  validFields_iff.mpr fun e member => validFields_iff.mp all e (List.mem_filter.mp member).1

theorem keys_remove {fields : List (String × Value)} (k : String)
    (unique : (fields.map Prod.fst).Nodup) : ((remove k fields).map Prod.fst).Nodup :=
  unique.sublist (List.filter_sublist.map _)

mutual

theorem valid_applyMergePatch : ∀ (patch target : Value), patch.Valid → target.Valid →
    (applyMergePatch target patch).Valid
  | .object fields, target, valid, whole =>
      valid_applyFields fields (members target) valid.2 (keys_members whole)
        (validFields_members whole)
  | .null, _, _, _ => trivial
  | .bool _, _, _, _ => trivial
  | .number _, _, _, _ => trivial
  | .string _, _, _, _ => trivial
  | .array _, _, valid, _ => valid

theorem valid_applyFields : ∀ (fields map : List (String × Value)), ValidFields fields →
    (map.map Prod.fst).Nodup → ValidFields map →
    ((applyFields map fields).map Prod.fst).Nodup ∧ ValidFields (applyFields map fields)
  | [], map, _, unique, whole => ⟨unique, whole⟩
  | (k, v) :: fields, map, valid, unique, whole => by
      rw [applyFields]
      split
      · exact valid_applyFields fields _ valid.2 (keys_remove k unique) (validFields_remove k whole)
      · have old : ((map.lookup k).getD .null).Valid := by
          cases found : map.lookup k with
          | none => trivial
          | some v' => exact valid_lookup whole found
        exact valid_applyFields fields _ valid.2 (keys_put k _ unique)
          (validFields_put (valid_applyMergePatch v _ valid.1 old) whole)

end

mutual

theorem valid_replacingStored : ∀ (stored next : Value), stored.Valid → next.Valid →
    (replacingStored next stored).Valid
  | .object old, .object fields, whole, valid =>
      valid_replaceFields old fields whole.2 valid.1 valid.2
  | .object _, .null, _, valid => valid
  | .object _, .bool _, _, valid => valid
  | .object _, .number _, _, valid => valid
  | .object _, .string _, _, valid => valid
  | .object _, .array _, _, valid => valid
  | .null, next, _, valid => by cases next <;> exact valid
  | .bool _, next, _, valid => by cases next <;> exact valid
  | .number _, next, _, valid => by cases next <;> exact valid
  | .string _, next, _, valid => by cases next <;> exact valid
  | .array _, next, _, valid => by cases next <;> exact valid

theorem valid_replaceFields : ∀ (old fields : List (String × Value)), ValidFields old →
    (fields.map Prod.fst).Nodup → ValidFields fields →
    ((replaceFields fields old).map Prod.fst).Nodup ∧ ValidFields (replaceFields fields old)
  | [], fields, _, unique, valid => ⟨unique, valid⟩
  | (k, v) :: old, fields, whole, unique, valid => by
      rw [replaceFields]
      cases found : fields.lookup k with
      | none =>
          exact valid_replaceFields old _ whole.2 (keys_put k .null unique)
            (validFields_put trivial valid)
      | some value =>
          exact valid_replaceFields old _ whole.2 (keys_put k _ unique)
            (validFields_put (valid_replacingStored v value whole.1 (valid_lookup valid found)) valid)

end

theorem valid_without (instant : String) {v : Value} (valid : v.Valid) : (without instant v).Valid := by
  cases v with
  | object fields => exact ⟨keys_remove instant valid.1, validFields_remove instant valid.2⟩
  | _ => exact valid

theorem statusUnchanged_iff {current : Option Value} {next status : Value}
    (valid : (current.getD .null).Valid) (sent : get "status" next = some status)
    (whole : status.Valid) : statusUnchanged current next = true ↔
      Doc.merge (current.getD .null).doc status.doc = (current.getD .null).doc := by
  unfold statusUnchanged
  rw [sent]
  dsimp only
  rw [equals_iff _ _ (valid_applyMergePatch status _ whole valid) valid,
    doc_applyMergePatch status _ whole]

/-- Once the instant is left aside, two objects are one when their other members are. -/
theorem without_doc_iff (instant : String) (fields fields' : List (String × Value)) :
    (without instant (.object fields)).doc = (without instant (.object fields')).doc ↔
      ∀ key, key ≠ instant → docFields fields key = docFields fields' key := by
  unfold without
  rw [Value.doc, Value.doc, Doc.object.injEq, funext_iff]
  refine forall_congr' fun key => ?_
  rw [docFields_remove, docFields_remove]
  by_cases here : key = instant
  · simp [here]
  · simp [here]

/-- What a block patch is when the instant may be put back. -/
theorem keepInstant_cases {stored next kept : Value} {instant : String} (valid : stored.Valid)
    (whole : next.Valid) (block : isObject stored = true) (here : get instant stored = some kept)
    (set_ : isNull kept = false) :
    (∃ fields, next = .object fields ∧
      keepInstantUnlessChanged (some stored) next instant =
        (true, .object (put instant kept fields)) ∧
      ∀ key, key ≠ instant → Doc.mergeField (stored.doc.fields key) (docFields fields key) =
        stored.doc.fields key) ∨
    keepInstantUnlessChanged (some stored) next instant = (false, next) ∧
      ∀ fields, next = .object fields → ∃ key, key ≠ instant ∧
        Doc.mergeField (stored.doc.fields key) (docFields fields key) ≠ stored.doc.fields key := by
  obtain ⟨old, rfl⟩ : ∃ old, stored = .object old := by
    cases stored with
    | object old => exact ⟨old, rfl⟩
    | _ => cases block
  have start : (some (Value.object old)).filter isObject = some (.object old) := by
    rw [Option.filter_some, if_pos block]
  have reads : (get instant (.object old)).filter (fun v => !isNull v) = some kept := by
    rw [here, Option.filter_some, set_]
    rfl
  unfold keepInstantUnlessChanged
  rw [start]
  dsimp only
  rw [reads]
  dsimp only
  cases next with
  | object fields =>
      have same : (without instant (applyMergePatch (.object old) (.object fields))).equals
          (without instant (.object old)) = true ↔ ∀ key, key ≠ instant →
            Doc.mergeField (docFields old key) (docFields fields key) = docFields old key := by
        rw [equals_iff _ _ (valid_without instant (valid_applyMergePatch _ _ whole valid))
          (valid_without instant valid), applyMergePatch, without_doc_iff]
        refine forall₂_congr fun key _ => ?_
        rw [docFields_applyFields fields _ key whole.1 whole.2]
        rfl
      by_cases alike : (without instant (applyMergePatch (.object old) (.object fields))).equals
          (without instant (.object old)) = true
      · rw [if_pos alike]
        exact .inl ⟨fields, rfl, rfl, same.mp alike⟩
      · rw [if_neg alike]
        refine .inr ⟨rfl, fun fields' is => ?_⟩
        cases is
        by_contra none
        push Not at none
        exact alike (same.mpr none)
  | _ =>
      refine .inr ⟨ite_self _, fun fields is => ?_⟩
      cases is

/-- A block with the stored instant put back changes nothing. -/
theorem doc_applyMergePatch_put {stored kept : Value} {fields : List (String × Value)}
    {instant : String} (valid : stored.Valid) (whole : (Value.object fields).Valid)
    (free : stored.doc.NullFree) (block : isObject stored = true) (here : get instant stored = some kept)
    (moved : ∀ key, key ≠ instant → Doc.mergeField (stored.doc.fields key) (docFields fields key) =
      stored.doc.fields key) :
    (applyMergePatch stored (.object (put instant kept fields))).doc = stored.doc := by
  obtain ⟨old, rfl⟩ : ∃ old, stored = .object old := by
    cases stored with
    | object old => exact ⟨old, rfl⟩
    | _ => cases block
  have held : docFields old instant = some kept.doc := by
    rw [docFields_eq, show old.lookup instant = some kept from here]
    rfl
  have sends : (Value.object (put instant kept fields)).Valid :=
    ⟨keys_put instant kept whole.1, validFields_put (valid_lookup valid.2 here) whole.2⟩
  rw [doc_applyMergePatch _ _ sends, Value.doc, Value.doc, Doc.merge_object]
  congr 1
  funext key
  rw [docFields_put]
  by_cases own : key = instant
  · subst own
    have plain := Doc.mergeField_self (docFields old key) (free key)
    rw [held] at plain
    rw [if_pos rfl, Doc.fields_object, held, plain]
  · rw [if_neg own]
    exact moved key own

/-- A status patch is sent exactly when it changes what is stored.  A block made to replace
a stored one leaves itself, and is not sent when it is what is stored.  A block's instant is put
back exactly when merging the block moves nothing else of it, and what is sent then changes
nothing. -/
theorem status_writes_settle :
    (∀ (current : Option Value) (next status : Value), (current.getD .null).Valid → status.Valid →
      get "status" next = some status → (statusUnchanged current next = true ↔
        Doc.merge (current.getD .null).doc status.doc = (current.getD .null).doc)) ∧
    (∀ stored next : Value, stored.Valid → next.Valid → next.doc.NullFree →
      (applyMergePatch stored (replacing next (some stored))).doc = next.doc ∧
      (statusUnchanged (some stored) (.object [("status", replacing next (some stored))]) = true ↔
        next.doc = stored.doc)) ∧
    ∀ (stored : Value) (fields : List (String × Value)) (kept : Value) (instant : String),
      stored.Valid → (Value.object fields).Valid → stored.doc.NullFree → isObject stored = true →
      get instant stored = some kept → isNull kept = false →
      ((keepInstantUnlessChanged (some stored) (.object fields) instant).1 = true ↔
        ∀ key, key ≠ instant → (Doc.merge stored.doc (Value.object fields).doc).fields key =
          stored.doc.fields key) ∧
      ((keepInstantUnlessChanged (some stored) (.object fields) instant).1 = true →
        (applyMergePatch stored
          (keepInstantUnlessChanged (some stored) (.object fields) instant).2).doc = stored.doc) ∧
      ((keepInstantUnlessChanged (some stored) (.object fields) instant).1 = false →
        (keepInstantUnlessChanged (some stored) (.object fields) instant).2 = .object fields) := by
  refine ⟨fun current next status valid whole sent => statusUnchanged_iff valid sent whole,
    fun stored next valid whole free => ?_,
    fun stored fields kept instant valid whole free block here set_ => ?_⟩
  · have sends : (replacingStored next stored).Valid := valid_replacingStored stored next valid whole
    have merged : Doc.merge stored.doc (replacingStored next stored).doc = next.doc := by
      rw [doc_replacingStored stored next valid, Doc.merge_replacing _ _ free]
    have settled := @statusUnchanged_iff (some stored)
      (.object [("status", replacingStored next stored)]) _ valid rfl sends
    rw [Option.getD_some, merged] at settled
    exact ⟨(doc_applyMergePatch _ _ sends).trans merged, settled⟩
  · have members : (Doc.merge stored.doc (Value.object fields).doc).fields = fun key =>
        Doc.mergeField (stored.doc.fields key) (docFields fields key) := by
      rw [Value.doc, Doc.merge_object, Doc.fields_object]
    rw [members]
    rcases keepInstant_cases valid whole block here set_ with
      ⟨fields', is, kept_, moved⟩ | ⟨sent, moved⟩
    · cases is
      rw [kept_]
      exact ⟨⟨fun _ => moved, fun _ => rfl⟩,
        fun _ => doc_applyMergePatch_put valid whole free block here moved,
        fun no => absurd no.symm Bool.false_ne_true⟩
    · rw [sent]
      refine ⟨⟨fun no => absurd no Bool.false_ne_true, fun same => ?_⟩,
        fun no => absurd no Bool.false_ne_true, fun _ => rfl⟩
      obtain ⟨key, other, differs⟩ := moved fields rfl
      exact absurd (same key other) differs

end Logweir.Conditions
