import Logweir.Library.Fields
import Logweir.Library.Json

/-!
# Kubernetes object names of topics

`logweir_core::topic_transition::kubernetes_name`.  A topic that is a name keeps it.  Another one is
cleaned, cut and given a digest of its own, and then two topics share a name only where one of them
is what the other becomes.
-/

set_option autoImplicit false

namespace Logweir.Topics

open Logweir.Text Logweir.Json

def keepChar (c : Char) : Char :=
  let c := c.toLower
  if c.isAlphanum || c == '.' || c == '-' then c else '-'

def isEdge (c : Char) : Bool := c == '-' || c == '.'

def cleaned (topic : String) : String :=
  String.ofList (trimMatches isEdge (topic.toList.map keepChar))

section

variable (sha256 : List UInt8 → Vector UInt8 32)

/-- `ids::sha256_prefixed`. -/
def sha256Prefixed (text : String) : String :=
  "sha256:" ++ hexEncode (sha256 (utf8 text.toList)).toList

def short (topic : String) : String :=
  (getTo 8 (trimStartMatches "sha256:" (sha256Prefixed sha256 topic))).getD "0"

def kubernetesName (topic : String) : String :=
  let cleaned := cleaned topic
  if cleaned = topic ∧ ¬cleaned.isEmpty then cleaned
  else
    let stem := String.ofList (cleaned.toList.take 240)
    if stem.isEmpty then "topic-" ++ short sha256 topic
    else stem ++ "-" ++ short sha256 topic

end

/-- `[a-z0-9]`. -/
def isAlphanumeric (c : Char) : Bool := c.isLower || c.isDigit

/-- `[a-z0-9.-]`. -/
def isNameChar (c : Char) : Bool := isAlphanumeric c || isEdge c

/-- At most 253 characters of `[a-z0-9.-]`, an alphanumeric first and last. -/
structure IsName (name : String) : Prop where
  length : name.length ≤ 253
  chars : ∀ c ∈ name.toList, isNameChar c = true
  first : ∃ c, name.toList.head? = some c ∧ isAlphanumeric c = true
  last : ∃ c, name.toList.getLast? = some c ∧ isAlphanumeric c = true

/-- A Kafka topic: 1 to 249 letters, digits, dots, underscores and hyphens. -/
structure IsTopic (topic : String) : Prop where
  nonempty : topic ≠ ""
  length : topic.length ≤ 249
  chars : ∀ c ∈ topic.toList, (c.isAlphanum || c == '.' || c == '_' || c == '-') = true

theorem isUpper_toLower (c : Char) : c.toLower.isUpper = false := by
  unfold Char.toLower
  split
  · rename_i upper
    have low : 65 ≤ c.val.toNat := UInt32.le_iff_toNat_le.mp upper.1
    have high : c.val.toNat ≤ 90 := UInt32.le_iff_toNat_le.mp upper.2
    have moved : (c.val + ('a'.val - 'A'.val)).toNat = c.val.toNat + 32 := by
      have step : ('a'.val - 'A'.val).toNat = 32 := by decide
      rw [UInt32.toNat_add, step]
      exact Nat.mod_eq_of_lt (by omega)
    have past : ¬(c.val + ('a'.val - 'A'.val)).toNat ≤ 90 := by omega
    exact decide_eq_false fun here => past (UInt32.le_iff_toNat_le.mp here.2)
  · rename_i upper
    rw [Bool.eq_false_iff]
    exact fun here => upper (of_decide_eq_true here)

theorem toLower_of_not_isUpper {c : Char} (lower : c.isUpper = false) : c.toLower = c := by
  unfold Char.toLower
  rw [dif_neg]
  intro upper
  have here : c.isUpper = true := decide_eq_true upper
  rw [lower] at here
  cases here

theorem isNameChar_keepChar (c : Char) : isNameChar (keepChar c) = true := by
  have lower := isUpper_toLower c
  unfold keepChar
  simp only
  split
  · rename_i kept
    simp only [Bool.or_eq_true, Text.isAlphanum_iff, lower] at kept
    simp only [isNameChar, isAlphanumeric, isEdge, Bool.or_eq_true]
    grind
  · rfl

theorem keepChar_eq_self {c : Char} (name : isNameChar c = true) : keepChar c = c := by
  simp only [isNameChar, isAlphanumeric, isEdge, Bool.or_eq_true, beq_iff_eq] at name
  have same : c.toLower = c := by
    apply toLower_of_not_isUpper
    rw [Bool.eq_false_iff]
    intro upper
    rw [Text.isUpper_iff] at upper
    rcases name with (lower | digit) | rfl | rfl
    · exact absurd (Nat.le_trans (Text.isLower_iff.mp lower).1 upper.2) (by decide)
    · exact absurd (Nat.le_trans upper.1 (Char.isDigit_iff_toNat.mp digit).2) (by decide)
    · exact absurd upper (by decide)
    · exact absurd upper (by decide)
  simp only [keepChar, same]
  rw [if_pos]
  simp only [Bool.or_eq_true, beq_iff_eq, Text.isAlphanum_iff]
  grind

theorem isNameChar_cleaned {topic : String} {c : Char} (member : c ∈ (cleaned topic).toList) :
    isNameChar c = true := by
  rw [cleaned, String.toList_ofList] at member
  obtain ⟨d, _, rfl⟩ := List.mem_map.mp (mem_of_mem_trimMatches member)
  exact isNameChar_keepChar d

theorem isAlphanumeric_of_not_edge {c : Char} (name : isNameChar c = true)
    (inner : isEdge c = false) : isAlphanumeric c = true := by
  rw [isNameChar, inner, Bool.or_false] at name
  exact name

theorem isEdge_of_isAlphanumeric {c : Char} (inner : isAlphanumeric c = true) : isEdge c = false := by
  have dash : c ≠ '-' := by
    rintro rfl
    exact absurd inner (by decide)
  have dot : c ≠ '.' := by
    rintro rfl
    exact absurd inner (by decide)
  rw [isEdge, beq_false_of_ne dash, beq_false_of_ne dot, Bool.or_false]

theorem cleaned_eq_self {topic : String} (chars : ∀ c ∈ topic.toList, isNameChar c = true)
    (first : ∀ c, topic.toList.head? = some c → isAlphanumeric c = true)
    (last : ∀ c, topic.toList.getLast? = some c → isAlphanumeric c = true) :
    cleaned topic = topic := by
  have kept : topic.toList.map keepChar = topic.toList :=
    (List.map_congr_left fun c member => keepChar_eq_self (chars c member)).trans (List.map_id _)
  rw [cleaned, kept, trimMatches_eq_self (fun c here => isEdge_of_isAlphanumeric (first c here))
    fun c here => isEdge_of_isAlphanumeric (last c here), String.ofList_toList]

theorem first_cleaned {topic : String} {c : Char} (first : (cleaned topic).toList.head? = some c) :
    isAlphanumeric c = true := by
  have name := isNameChar_cleaned (List.mem_of_mem_head? first)
  rw [cleaned, String.toList_ofList] at first
  exact isAlphanumeric_of_not_edge name (head?_trimMatches first)

theorem last_cleaned {topic : String} {c : Char} (last : (cleaned topic).toList.getLast? = some c) :
    isAlphanumeric c = true := by
  have name := isNameChar_cleaned (List.mem_of_getLast? last)
  rw [cleaned, String.toList_ofList] at last
  exact isAlphanumeric_of_not_edge name (getLast?_trimMatches last)

section

variable (sha256 : List UInt8 → Vector UInt8 32)

def stem (topic : String) : String :=
  if (cleaned topic).isEmpty then "topic" else String.ofList ((cleaned topic).toList.take 240)

def rewritten (topic : String) : String := stem topic ++ "-" ++ short sha256 topic

theorem isAlphanumeric_hexEncode {bytes : List UInt8} {c : Char}
    (member : c ∈ (hexEncode bytes).toList) : isAlphanumeric c = true ∧ c.val ≤ 127 := by
  have digit := hexEncode_lower bytes c member
  simp only [Bool.or_eq_true, Bool.and_eq_true, decide_eq_true_eq] at digit
  rcases digit with digit | ⟨low, high⟩
  · have shown := digit
    simp only [Char.isDigit, Bool.and_eq_true, decide_eq_true_eq] at shown
    exact ⟨by rw [isAlphanumeric, digit, Bool.or_true], UInt32.le_trans shown.2 (by decide)⟩
  · have lower : c.isLower = true := by
      rw [Text.isLower_iff]
      exact ⟨UInt32.le_iff_toNat_le.mp low,
        Nat.le_trans (UInt32.le_iff_toNat_le.mp high) (by decide)⟩
    exact ⟨by rw [isAlphanumeric, lower, Bool.true_or], UInt32.le_trans high (by decide)⟩

theorem short_eq (topic : String) :
    short sha256 topic =
      String.ofList ((hexEncode (sha256 (utf8 topic.toList)).toList).toList.take 8) := by
  have plain : 's' ∉ (hexEncode (sha256 (utf8 topic.toList)).toList).toList := by
    intro member
    have digit := hexEncode_lower _ 's' member
    revert digit
    decide
  have long : 8 ≤ (hexEncode (sha256 (utf8 topic.toList)).toList).toList.length := by
    rw [String.length_toList, length_hexEncode, Vector.length_toList]
    decide
  rw [short, sha256Prefixed, trimStartMatches_append (c := 's') (by decide) plain, getTo,
    getToChars_ascii _ (fun c member => (isAlphanumeric_hexEncode member).2) 8 long,
    Option.map_some, Option.getD_some]

theorem length_short (topic : String) : (short sha256 topic).length = 8 := by
  rw [short_eq, String.length_ofList, List.length_take, String.length_toList, length_hexEncode,
    Vector.length_toList]
  rfl

theorem isAlphanumeric_short {topic : String} {c : Char}
    (member : c ∈ (short sha256 topic).toList) : isAlphanumeric c = true := by
  rw [short_eq, String.toList_ofList] at member
  exact (isAlphanumeric_hexEncode (List.mem_of_mem_take member)).1

theorem length_stem (topic : String) : (stem topic).length ≤ 240 := by
  unfold stem
  split
  · decide
  · rw [String.length_ofList, List.length_take]
    exact Nat.min_le_left _ _

theorem isNameChar_stem {topic : String} {c : Char} (member : c ∈ (stem topic).toList) :
    isNameChar c = true := by
  unfold stem at member
  split at member
  · exact List.all_eq_true.mp (by decide : "topic".toList.all isNameChar = true) c member
  · rw [String.toList_ofList] at member
    exact isNameChar_cleaned (List.mem_of_mem_take member)

theorem first_stem (topic : String) :
    ∃ c, (stem topic).toList.head? = some c ∧ isAlphanumeric c = true := by
  unfold stem
  split
  · exact ⟨'t', by decide, by decide⟩
  · rename_i some_
    have nonempty : (cleaned topic).toList ≠ [] := fun empty =>
      some_ (String.isEmpty_iff.mpr (String.toList_eq_nil_iff.mp empty))
    have first := List.head?_eq_some_head nonempty
    refine ⟨_, ?_, first_cleaned first⟩
    rw [String.toList_ofList, List.head?_take, if_neg (by decide), first]

theorem kubernetesName_eq (topic : String) :
    kubernetesName sha256 topic =
      if cleaned topic = topic ∧ topic ≠ "" then topic else rewritten sha256 topic := by
  have cut : (String.ofList ((cleaned topic).toList.take 240)).isEmpty = (cleaned topic).isEmpty := by
    rw [Bool.eq_iff_iff, String.isEmpty_iff, String.isEmpty_iff, ← String.toList_eq_nil_iff,
      String.toList_ofList, List.take_eq_nil_iff, String.toList_eq_nil_iff]
    exact or_iff_right (by decide)
  unfold kubernetesName rewritten stem
  simp only [cut]
  split
  · rename_i kept
    have nonempty : topic ≠ "" := by
      rw [← kept.1]
      exact fun empty => kept.2 (String.isEmpty_iff.mpr empty)
    rw [if_pos ⟨kept.1, nonempty⟩, kept.1]
  · rename_i changed
    have word : "topic-" = "topic" ++ "-" := by decide
    have other : ¬(cleaned topic = topic ∧ topic ≠ "") := by
      rintro ⟨same, nonempty⟩
      refine changed ⟨same, fun empty => nonempty ?_⟩
      rw [← same]
      exact String.isEmpty_iff.mp empty
    rw [if_neg other]
    split
    · rw [word]
    · rfl

theorem isName_rewritten (topic : String) : IsName (rewritten sha256 topic) := by
  have dash : "-".toList = ['-'] := by decide
  have digits := length_short sha256 topic
  have text : (rewritten sha256 topic).toList =
      (stem topic).toList ++ '-' :: (short sha256 topic).toList := by
    rw [rewritten, String.toList_append, String.toList_append, dash, List.append_assoc,
      List.singleton_append]
  refine ⟨?_, ?_, ?_, ?_⟩
  · have start := length_stem topic
    have single : "-".length = 1 := by decide
    rw [rewritten, String.length_append, String.length_append]
    omega
  · intro c member
    rw [text, List.mem_append, List.mem_cons] at member
    rcases member with start | rfl | digit
    · exact isNameChar_stem start
    · decide
    · rw [isNameChar, isAlphanumeric_short sha256 digit, Bool.true_or]
  · obtain ⟨c, first, alphanumeric⟩ := first_stem topic
    refine ⟨c, ?_, alphanumeric⟩
    rw [text, List.head?_append, first, Option.some_or]
  · have nonempty : (short sha256 topic).toList ≠ [] := by
      rw [← List.length_pos_iff, String.length_toList, digits]
      decide
    have last := List.getLast?_eq_some_getLast nonempty
    refine ⟨_, ?_, isAlphanumeric_short sha256 (List.mem_of_getLast? last)⟩
    rw [text, List.getLast?_append, List.getLast?_cons, last, Option.getD_some, Option.some_or]

theorem isName_iff {topic : String} (legal : IsTopic topic) :
    IsName topic ↔ cleaned topic = topic := by
  constructor
  · intro name
    obtain ⟨c, first, starts⟩ := name.first
    obtain ⟨d, last, ends⟩ := name.last
    apply cleaned_eq_self name.chars
    · intro c' here
      rw [first] at here
      rwa [← Option.some.inj here]
    · intro d' here
      rw [last] at here
      rwa [← Option.some.inj here]
  · intro same
    have nonempty : topic.toList ≠ [] := fun empty =>
      legal.nonempty (String.toList_eq_nil_iff.mp empty)
    obtain ⟨c, first⟩ : ∃ c, topic.toList.head? = some c := ⟨_, List.head?_eq_some_head nonempty⟩
    obtain ⟨d, last⟩ : ∃ d, topic.toList.getLast? = some d :=
      ⟨_, List.getLast?_eq_some_getLast nonempty⟩
    refine ⟨Nat.le_trans legal.length (by decide), ?_, ⟨c, first, ?_⟩, ⟨d, last, ?_⟩⟩
    · rw [← same]
      exact fun c member => isNameChar_cleaned member
    · rw [← same] at first
      exact first_cleaned first
    · rw [← same] at last
      exact last_cleaned last

/-- Two topics whose digests begin differently have two names, unless one of them is what the other
is rewritten to. -/
theorem kubernetesName_apart_iff {a b : String} (legal : IsTopic a) (legal' : IsTopic b)
    (differ : a ≠ b) (digests : short sha256 a ≠ short sha256 b) :
    (kubernetesName sha256 a ≠ kubernetesName sha256 b ∧ IsName (kubernetesName sha256 a) ∧
      IsName (kubernetesName sha256 b)) ↔
    ¬(¬IsName a ∧ b = rewritten sha256 a) ∧ ¬(¬IsName b ∧ a = rewritten sha256 b) := by
  have kept {topic : String} (topic_ : IsTopic topic) (name : IsName topic) :
      kubernetesName sha256 topic = topic := by
    rw [kubernetesName_eq, if_pos ⟨(isName_iff topic_).mp name, topic_.nonempty⟩]
  have changed {topic : String} (topic_ : IsTopic topic) (other : ¬IsName topic) :
      kubernetesName sha256 topic = rewritten sha256 topic := by
    rw [kubernetesName_eq, if_neg fun same => other ((isName_iff topic_).mpr same.1)]
  have named {topic : String} (topic_ : IsTopic topic) : IsName (kubernetesName sha256 topic) := by
    by_cases name : IsName topic
    · rwa [kept topic_ name]
    · rw [changed topic_ name]
      exact isName_rewritten sha256 topic
  constructor
  · rintro ⟨apart, -, -⟩
    refine ⟨?_, ?_⟩
    · rintro ⟨other, same⟩
      apply apart
      rw [changed legal other, kept legal' (by rw [same]; exact isName_rewritten sha256 a), same]
    · rintro ⟨other, same⟩
      apply apart
      rw [changed legal' other, kept legal (by rw [same]; exact isName_rewritten sha256 b), same]
  · rintro ⟨alike, alike'⟩
    refine ⟨fun same => ?_, named legal, named legal'⟩
    by_cases name : IsName a <;> by_cases name' : IsName b
    · rw [kept legal name, kept legal' name'] at same
      exact differ same
    · rw [kept legal name, changed legal' name'] at same
      exact alike' ⟨name', same⟩
    · rw [changed legal name, kept legal' name'] at same
      exact alike ⟨name, same.symm⟩
    · -- the two digests end the two names
      rw [changed legal name, changed legal' name', ← String.toList_inj, rewritten, rewritten,
        String.toList_append, String.toList_append (s := stem b ++ "-")] at same
      refine digests (String.toList_inj.mp (List.append_inj_right' same ?_))
      rw [String.length_toList, String.length_toList, length_short, length_short]

end

def ordersSha256 (bytes : List UInt8) : Vector UInt8 32 :=
  if bytes = utf8 "Orders".toList then
    #v[183, 232, 172, 221, 82, 46, 97, 144, 172, 149, 103, 173, 22, 223, 249, 135, 60, 187, 120, 136,
      43, 191, 67, 91, 126, 24, 156, 68, 10, 148, 145, 89]
  else if bytes = utf8 "orders".toList then
    #v[28, 22, 138, 219, 0, 210, 8, 228, 47, 147, 49, 69, 41, 241, 250, 156, 4, 39, 235, 99,
      35, 60, 237, 169, 90, 93, 181, 43, 112, 18, 167, 25]
  else
    #v[210, 168, 72, 20, 143, 56, 211, 215, 32, 109, 248, 92, 166, 255, 105, 15, 218, 24, 245, 112,
      237, 113, 137, 194, 132, 13, 32, 105, 19, 3, 178, 31]

theorem orders_isTopic : IsTopic "Orders" ∧ IsTopic "orders" ∧ IsTopic "orders-b7e8acdd" := by
  refine ⟨⟨?_, ?_, List.all_eq_true.mp ?_⟩, ⟨?_, ?_, List.all_eq_true.mp ?_⟩,
    ⟨?_, ?_, List.all_eq_true.mp ?_⟩⟩ <;> decide

theorem orders_isName : IsName "orders" := by
  refine ⟨?_, List.all_eq_true.mp ?_, ⟨'o', ?_, ?_⟩, ⟨'s', ?_, ?_⟩⟩ <;> decide

/-- `Orders` and `orders` have two names. -/
theorem orders_apart :
    kubernetesName ordersSha256 "Orders" ≠ kubernetesName ordersSha256 "orders" := by
  obtain ⟨upper, lower, -⟩ := orders_isTopic
  refine ((kubernetesName_apart_iff ordersSha256 upper lower (by decide) (by decide)).mpr
    ⟨?_, ?_⟩).1
  · rintro ⟨-, same⟩
    have other : rewritten ordersSha256 "Orders" ≠ "orders" := by decide
    exact other same.symm
  · rintro ⟨other, -⟩
    exact other orders_isName

/-- `Orders` and `orders-b7e8acdd` are both exported as `orders-b7e8acdd`. -/
theorem orders_share_name :
    IsTopic "Orders" ∧ IsTopic "orders-b7e8acdd" ∧
    short ordersSha256 "Orders" ≠ short ordersSha256 "orders-b7e8acdd" ∧
    kubernetesName ordersSha256 "Orders" = kubernetesName ordersSha256 "orders-b7e8acdd" :=
  ⟨orders_isTopic.1, orders_isTopic.2.2, by decide, by decide⟩

end Logweir.Topics
