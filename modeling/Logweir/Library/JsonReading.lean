import Logweir.Library.CompactJson
import Logweir.Library.JsonValues

/-!
# Reading a compact text back

The value a JSON text is read as, and what a reader owes a text that was written: for a
document whose keys are unique, whose integers fit sixty-four bits and which nests less
deep than the reader follows, the value it was written from.
-/

set_option autoImplicit false

namespace Logweir.Json

open Logweir.JsonValues (Value Number)

mutual

def Json.value : Json → Value
  | .null => .null
  | .bool b => .bool b
  | .num n => .number (.integer n)
  | .str s => .string s
  | .arr items => .array (itemValues items)
  | .obj members => .object (memberValues members)

def itemValues : List Json → List Value
  | [] => []
  | item :: items => item.value :: itemValues items

def memberValues : List (String × Json) → List (String × Value)
  | [] => []
  | (key, value) :: members => (key, value.value) :: memberValues members

end

mutual

/-- A document a reader takes back as it was written, at most `depth` levels deep. -/
def Json.Readable : Nat → Json → Prop
  | _, .num n => -2 ^ 63 ≤ n ∧ n < 2 ^ 64
  | 0, .arr _ => False
  | depth + 1, .arr items => ReadableItems depth items
  | 0, .obj _ => False
  | depth + 1, .obj members => (members.map Prod.fst).Nodup ∧ ReadableMembers depth members
  | _, _ => True

def ReadableItems : Nat → List Json → Prop
  | _, [] => True
  | depth, item :: items => item.Readable depth ∧ ReadableItems depth items

def ReadableMembers : Nat → List (String × Json) → Prop
  | _, [] => True
  | depth, (_, value) :: members => value.Readable depth ∧ ReadableMembers depth members

end

/-- `serde_json`'s recursion limit. -/
def RECURSION_LIMIT : Nat := 127

/-- `serde_json::from_str` reads back what `serde_json` wrote. -/
def Reads (fromStr : String → Option Value) : Prop :=
  ∀ doc : Json, doc.Readable RECURSION_LIMIT →
    fromStr (String.ofList (compact doc)) = some doc.value

def texts (names : List String) : Json := .arr (names.map .str)

theorem itemValues_texts (names : List String) :
    itemValues (names.map .str) = names.map .string := by
  induction names with
  | nil => rfl
  | cons name names ih => rw [List.map_cons, List.map_cons, itemValues, Json.value, ih]

theorem readableItems_texts (depth : Nat) (names : List String) :
    ReadableItems depth (names.map .str) := by
  induction names with
  | nil => trivial
  | cons name names ih => exact ⟨trivial, ih⟩

theorem length_utf8_separator {α : Type} (more : List α) :
    (utf8 (if more.isEmpty then [] else [','])).length ≤ 1 := by
  split
  · exact Nat.zero_le 1
  · exact Nat.le_refl 1

theorem length_compactMembers_le : ∀ members : List (String × Json),
    (utf8 (compactMembers members)).length ≤
      (members.map fun m => (utf8 (quote m.1)).length + (utf8 (compact m.2)).length + 2).sum
  | [] => Nat.le_refl 0
  | (key, value) :: members => by
      have later := length_compactMembers_le members
      have separator := length_utf8_separator members
      simp only [compactMembers, List.map_cons, List.sum_cons, utf8_append, List.length_append,
        length_utf8_cons, show ':'.utf8Size = 1 from rfl]
      omega

/-- A list of texts takes each text's bytes, and a separator between two. -/
theorem length_texts_le {most : Nat} {names : List String}
    (short : ∀ name ∈ names, (utf8 (quote name)).length ≤ most) :
    (utf8 (compact (texts names))).length ≤ names.length * (most + 1) + 2 := by
  have items : (utf8 (compactItems (names.map .str))).length ≤ names.length * (most + 1) := by
    induction names with
    | nil => exact Nat.zero_le _
    | cons name names ih =>
        have here := short name List.mem_cons_self
        have later := ih fun other member => short other (List.mem_cons_of_mem name member)
        have separator := length_utf8_separator (names.map Json.str)
        rw [List.map_cons, compactItems, compact, utf8_append, utf8_append, List.length_append,
          List.length_append, List.length_cons, Nat.succ_mul]
        omega
  rw [texts, compact, utf8_append, List.length_append, length_utf8_cons,
    show '['.utf8Size = 1 from rfl, show (utf8 [']']).length = 1 by decide]
  omega

theorem length_quote_plain {s : String}
    (plain : ∀ c ∈ s.toList, escapeChar c = [c] ∧ c.val ≤ 127) :
    (utf8 (quote s)).length = s.length + 2 := by
  have same : s.toList.flatMap escapeChar = s.toList := by
    rw [show s.toList.flatMap escapeChar = s.toList.flatMap fun c => [c] from
      List.flatMap_congr fun c member => (plain c member).1]
    exact List.flatMap_singleton' s.toList
  rw [quote, same, length_utf8_ascii]
  · rw [List.length_append, List.length_cons, String.length_toList, List.length_singleton]
  · intro c member
    rw [List.cons_append, List.mem_cons, List.mem_append, List.mem_singleton] at member
    rcases member with rfl | inside | rfl
    · decide
    · exact (plain c inside).2
    · decide

theorem length_number_le {n : Nat} {digits : Nat} (some_ : 0 < digits) (small : n < 10 ^ digits) :
    (utf8 (compact (.num n))).length ≤ digits := by
  have ascii : ∀ c ∈ (toString (n : Int)).toList, c.val ≤ 127 := by
    intro c member
    rw [Int.toString_eq_repr, Int.repr_eq_if, if_pos (Int.natCast_nonneg n), Int.toNat_natCast,
      Nat.toList_repr] at member
    exact ascii_of_isDigit (Nat.isDigit_of_mem_toDigits (by omega) (by omega) member)
  rw [compact, length_utf8_ascii _ ascii, Int.toString_eq_repr, Int.repr_eq_if,
    if_pos (Int.natCast_nonneg n), Int.toNat_natCast, Nat.toList_repr]
  exact (Nat.length_toDigits_le_iff (by decide) some_).mpr small

open scoped Classical in
/-- The value whose text it is. -/
noncomputable def written (text : String) : Option Value :=
  if found : ∃ doc : Json, String.ofList (compact doc) = text then some found.choose.value
  else none

theorem reads_written : Reads written := by
  intro doc _
  have found : ∃ doc' : Json, String.ofList (compact doc') = String.ofList (compact doc) :=
    ⟨doc, rfl⟩
  have same := compact_injective (String.ofList_injective found.choose_spec)
  unfold written
  rw [dif_pos found, same]

end Logweir.Json
