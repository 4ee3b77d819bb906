import Logweir.Inventory.Entries
import Logweir.Library.JsonReading
import Mathlib.Algebra.Group.Int.Defs

/-!
# The line of a stopped creation step

`logweir_core::creation_stop`.  Three lists of topic names, each cut at a bound with the count of
what it names, written on one line by the runner and read back by the controller.
-/

set_option autoImplicit false

namespace Logweir.CreationStop

open Logweir.Json Logweir.JsonValues
open Logweir.Inventory (topicNameIsKafkaLegal MAX_TOPIC_NAME_CHARS)

def LINE_PREFIX : String := "target-topics-appeared="

def MAX_NAMES : Nat := 100

def MAX_COUNT : Nat := 1000000

def MAX_VALUE_BYTES : Nat := 3 * MAX_NAMES * (MAX_TOPIC_NAME_CHARS + 3) + 512

structure NameList where
  names : List String
  count : Nat
  deriving DecidableEq

def NameList.of (all : List String) : NameList where
  names := (all.filter topicNameIsKafkaLegal).take MAX_NAMES
  count := min all.length MAX_COUNT

def NameList.more (list : NameList) : Nat := list.count - list.names.length

def NameList.isEmpty (list : NameList) : Bool := list.names.isEmpty && list.count == 0

def NameList.heldTo (list : NameList) (keep : String → Bool) (atMost : Nat) : NameList :=
  let names := list.names.filter keep
  let dropped := list.names.length - names.length
  { names
    count := max (min (list.count - dropped) atMost) names.length }

/-- `Value::as_array`. -/
def asArray : Value → Option (List Value)
  | .array items => some items
  | _ => none

/-- `Value::as_str`. -/
def asStr : Value → Option String
  | .string s => some s
  | _ => none

/-- `Value::as_u64`. -/
def asU64 : Value → Option Nat
  | .number (.integer n) => if 0 ≤ n ∧ n < 2 ^ 64 then some n.toNat else none
  | _ => none

/-- `Value::as_bool`. -/
def asBool : Value → Option Bool
  | .bool b => some b
  | _ => none

def namesAt (doc : List (String × Value)) (key : String) : List String :=
  (((doc.lookup key).bind asArray).map fun names =>
    ((names.filterMap asStr).filter topicNameIsKafkaLegal).take MAX_NAMES).getD []

/-- A count is believed only as an integer no smaller than the list beside it and no larger than the
bound. -/
def countAt (doc : List (String × Value)) (key : String) (names : List String) : Nat :=
  (((doc.lookup (key ++ "Count")).bind asU64).filter fun c =>
    decide (names.length ≤ c ∧ c ≤ MAX_COUNT)).getD names.length

def NameList.parse (doc : List (String × Value)) (key : String) : NameList where
  names := namesAt doc key
  count := countAt doc key (namesAt doc key)

structure CreationStopLists where
  appeared : NameList
  left : NameList
  unconfirmed : NameList
  unconfirmedSeen : Bool
  deriving DecidableEq

def CreationStopLists.isEmpty (lists : CreationStopLists) : Bool :=
  lists.appeared.isEmpty && lists.left.isEmpty && lists.unconfirmed.isEmpty

def CreationStopLists.members (lists : CreationStopLists) : List (String × Json) :=
  [("appeared", texts lists.appeared.names),
    ("left", texts lists.left.names),
    ("unconfirmed", texts lists.unconfirmed.names),
    ("appearedCount", .num lists.appeared.count),
    ("leftCount", .num lists.left.count),
    ("unconfirmedCount", .num lists.unconfirmed.count)] ++
  if lists.unconfirmed.isEmpty then [] else [("unconfirmedSeen", .bool lists.unconfirmedSeen)]

def CreationStopLists.lineValue (lists : CreationStopLists) : String :=
  String.ofList (compact (.obj lists.members))

def CreationStopLists.line (lists : CreationStopLists) : String := LINE_PREFIX ++ lists.lineValue

def parseValue (fromStr : String → Option Value) (value : String) : Option CreationStopLists :=
  if MAX_VALUE_BYTES < value.utf8ByteSize then none
  else
    match fromStr value with
    | some (.object doc) =>
        some
          { appeared := NameList.parse doc "appeared"
            left := NameList.parse doc "left"
            unconfirmed := NameList.parse doc "unconfirmed"
            unconfirmedSeen := (doc.lookup "unconfirmedSeen").bind asBool == some true }
    | _ => none

/-- What the writer writes and the reader believes. -/
structure NameList.Genuine (list : NameList) : Prop where
  legal : ∀ name ∈ list.names, topicNameIsKafkaLegal name = true
  few : list.names.length ≤ MAX_NAMES
  counted : list.names.length ≤ list.count
  bounded : list.count ≤ MAX_COUNT

theorem NameList.genuine_of (all : List String) : (NameList.of all).Genuine where
  legal name member := (List.mem_filter.mp (List.mem_of_mem_take member)).2
  few := by
    rw [NameList.of, List.length_take]
    exact Nat.min_le_left _ _
  counted := by
    have within := List.length_filter_le topicNameIsKafkaLegal all
    have bound : MAX_NAMES ≤ MAX_COUNT := by decide
    simp only [NameList.of, List.length_take]
    omega
  bounded := Nat.min_le_right _ _

theorem NameList.heldTo_bounds (list : NameList) (keep : String → Bool) (atMost : Nat) :
    (list.heldTo keep atMost).names.length ≤ (list.heldTo keep atMost).count ∧
      ((list.heldTo keep atMost).names.length ≤ atMost →
        (list.heldTo keep atMost).count ≤ atMost) := by
  refine ⟨Nat.le_max_right _ _, fun room => ?_⟩
  exact Nat.max_le.mpr ⟨Nat.min_le_right _ _, room⟩

theorem NameList.isEmpty_iff {list : NameList} (genuine : list.Genuine) :
    list.isEmpty = true ↔ list.count = 0 := by
  rw [NameList.isEmpty, Bool.and_eq_true, List.isEmpty_iff, beq_iff_eq]
  refine ⟨And.right, fun none_ => ⟨?_, none_⟩⟩
  have counted := genuine.counted
  exact List.length_eq_zero_iff.mp (by omega)

theorem isEmpty_of (all : List String) : (NameList.of all).isEmpty = all.isEmpty := by
  rw [Bool.eq_iff_iff, NameList.isEmpty_iff (NameList.genuine_of all), List.isEmpty_iff,
    ← List.length_eq_zero_iff]
  have positive : 0 < MAX_COUNT := by decide
  unfold NameList.of
  simp only
  omega

theorem filterMap_asStr (names : List String) :
    (names.map Value.string).filterMap asStr = names := by
  induction names with
  | nil => rfl
  | cons name names ih =>
      rw [List.map_cons, List.filterMap_cons, asStr, ih]

theorem NameList.parse_eq {doc : List (String × Value)} {key : String} {list : NameList}
    (genuine : list.Genuine)
    (named : doc.lookup key = some (texts list.names).value)
    (counted : doc.lookup (key ++ "Count") = some (.number (.integer list.count))) :
    NameList.parse doc key = list := by
  have names : namesAt doc key = list.names := by
    rw [namesAt, named, texts, Json.value, itemValues_texts]
    simp only [Option.bind_some, asArray, Option.map_some, Option.getD_some]
    rw [filterMap_asStr, List.filter_eq_self.mpr genuine.legal, List.take_of_length_le genuine.few]
  have small : (list.count : Int) < 2 ^ 64 := by
    have bounded := genuine.bounded
    unfold MAX_COUNT at bounded
    omega
  have count : countAt doc key list.names = list.count := by
    rw [countAt, counted, Option.bind_some, asU64, if_pos ⟨Int.natCast_nonneg _, small⟩,
      Int.toNat_natCast, Option.filter_some,
      if_pos (decide_eq_true ⟨genuine.counted, genuine.bounded⟩), Option.getD_some]
  rw [NameList.parse, names, count]

/-- What the runner prints: genuine lists, and the flag only beside an unconfirmed name. -/
structure CreationStopLists.Genuine (lists : CreationStopLists) : Prop where
  appeared : lists.appeared.Genuine
  left : lists.left.Genuine
  unconfirmed : lists.unconfirmed.Genuine
  flagged : lists.unconfirmed.isEmpty = true → lists.unconfirmedSeen = false

theorem CreationStopLists.readable (lists : CreationStopLists) (genuine : lists.Genuine) :
    (Json.obj lists.members).Readable RECURSION_LIMIT := by
  have array (names : List String) : (texts names).Readable 126 := readableItems_texts 125 names
  have number {list : NameList} (genuine : list.Genuine) :
      (Json.num list.count).Readable 126 := by
    have bounded := genuine.bounded
    unfold MAX_COUNT at bounded
    exact ⟨by omega, by omega⟩
  have six := And.intro (array lists.appeared.names) <| And.intro (array lists.left.names) <|
    And.intro (array lists.unconfirmed.names) <| And.intro (number genuine.appeared) <|
    And.intro (number genuine.left) (number genuine.unconfirmed)
  unfold CreationStopLists.members
  split
  · exact ⟨by simp, six.1, six.2.1, six.2.2.1, six.2.2.2.1, six.2.2.2.2.1, six.2.2.2.2.2, trivial⟩
  · exact ⟨by simp, six.1, six.2.1, six.2.2.1, six.2.2.2.1, six.2.2.2.2.1, six.2.2.2.2.2, trivial,
      trivial⟩

theorem plain_of_legal {c : Char}
    (legal : (c.isAlphanum || c == '.' || c == '_' || c == '-') = true) :
    escapeChar c = [c] ∧ c.val ≤ 127 := by
  have code : 45 ≤ c.toNat ∧ c.toNat ≤ 122 ∧ c.toNat ≠ 92 := by
    simp only [Bool.or_eq_true, beq_iff_eq, Text.isAlphanum_iff] at legal
    rcases legal with (((upper | lower | digit) | rfl) | rfl) | rfl
    · have bounds := Text.isUpper_iff.mp upper
      omega
    · have bounds := Text.isLower_iff.mp lower
      omega
    · have bounds := Char.isDigit_iff_toNat.mp digit
      have ends : '0'.toNat = 48 ∧ '9'.toNat = 57 := by decide
      omega
    · decide
    · decide
    · decide
  have other {d : Char} (far : d.toNat < 45 ∨ d.toNat = 92) : c ≠ d := by
    rintro rfl
    omega
  refine ⟨?_, UInt32.le_iff_toNat_le.mpr (Nat.le_trans code.2.1 (by decide))⟩
  rw [escapeChar, if_neg (other (by decide)), if_neg (other (by decide)), if_neg (by omega),
    if_neg (by omega), if_neg (by omega), if_neg (by omega), if_neg (by omega), if_neg (by omega)]

theorem legal_bytes {name : String} (legal : topicNameIsKafkaLegal name = true) :
    (utf8 (quote name)).length ≤ MAX_TOPIC_NAME_CHARS + 2 := by
  simp only [topicNameIsKafkaLegal, Bool.and_eq_true, decide_eq_true_eq] at legal
  obtain ⟨⟨⟨⟨_, short⟩, _⟩, _⟩, chars⟩ := legal
  have plain : ∀ c ∈ name.toList, escapeChar c = [c] ∧ c.val ≤ 127 := fun c member =>
    plain_of_legal (List.all_eq_true.mp chars c member)
  rw [length_quote_plain plain, ← String.length_toList, ← length_utf8_ascii _ fun c member =>
    (plain c member).2, length_utf8_toList]
  exact Nat.add_le_add_right short 2

theorem CreationStopLists.lineValue_le {lists : CreationStopLists} (genuine : lists.Genuine) :
    lists.lineValue.utf8ByteSize ≤ MAX_VALUE_BYTES := by
  have array {list : NameList} (genuine : list.Genuine) :
      (utf8 (compact (texts list.names))).length ≤ 100 * 252 + 2 := by
    have sized := length_texts_le fun name member => legal_bytes (genuine.legal name member)
    have few := Nat.mul_le_mul_right (MAX_TOPIC_NAME_CHARS + 2 + 1) genuine.few
    exact Nat.le_trans sized (Nat.add_le_add_right few 2)
  have number {list : NameList} (genuine : list.Genuine) :
      (utf8 (compact (.num list.count))).length ≤ 7 := by
    have bounded := genuine.bounded
    unfold MAX_COUNT at bounded
    exact length_number_le (by decide) (by omega)
  have flag : (utf8 (compact (.bool lists.unconfirmedSeen))).length ≤ 5 := by
    cases lists.unconfirmedSeen <;> decide
  have appeared := array genuine.appeared
  have left := array genuine.left
  have unconfirmed := array genuine.unconfirmed
  have appearedCount := number genuine.appeared
  have leftCount := number genuine.left
  have unconfirmedCount := number genuine.unconfirmed
  have members := length_compactMembers_le lists.members
  have keys : (utf8 (quote "appeared")).length = 10 ∧ (utf8 (quote "left")).length = 6 ∧
      (utf8 (quote "unconfirmed")).length = 13 ∧ (utf8 (quote "appearedCount")).length = 15 ∧
      (utf8 (quote "leftCount")).length = 11 ∧ (utf8 (quote "unconfirmedCount")).length = 18 ∧
      (utf8 (quote "unconfirmedSeen")).length = 17 := by decide
  have total : (utf8 (compactMembers lists.members)).length + 2 ≤ MAX_VALUE_BYTES := by
    have bound : MAX_VALUE_BYTES = 76112 := by decide
    refine Nat.le_trans (Nat.add_le_add_right members 2) ?_
    rw [CreationStopLists.members, bound]
    split <;>
    · simp only [List.append_nil, List.cons_append, List.nil_append, List.map_cons, List.map_nil,
        List.sum_cons, List.sum_nil, keys]
      omega
  rw [CreationStopLists.lineValue, ← length_utf8_toList, String.toList_ofList, compact, utf8_append,
    List.length_append, length_utf8_cons, show '{'.utf8Size = 1 from rfl,
    show (utf8 ['}']).length = 1 by decide]
  omega

theorem parseValue_lineValue {fromStr : String → Option Value} (reads : Reads fromStr)
    {lists : CreationStopLists} (genuine : lists.Genuine) :
    parseValue fromStr lists.lineValue = some lists := by
  have read := reads (.obj lists.members) (lists.readable genuine)
  have short := Nat.not_lt.mpr (CreationStopLists.lineValue_le genuine)
  rw [parseValue, if_neg short, CreationStopLists.lineValue, read]
  have appeared : NameList.parse (memberValues lists.members) "appeared" = lists.appeared :=
    NameList.parse_eq genuine.appeared rfl rfl
  have left : NameList.parse (memberValues lists.members) "left" = lists.left :=
    NameList.parse_eq genuine.left rfl rfl
  have unconfirmed : NameList.parse (memberValues lists.members) "unconfirmed" =
      lists.unconfirmed := NameList.parse_eq genuine.unconfirmed rfl rfl
  have seen : (((memberValues lists.members).lookup "unconfirmedSeen").bind asBool == some true) =
      lists.unconfirmedSeen := by
    cases empty : lists.unconfirmed.isEmpty with
    | true =>
        rw [CreationStopLists.members, empty, genuine.flagged empty]
        rfl
    | false =>
        rw [CreationStopLists.members, empty]
        cases lists.unconfirmedSeen <;> rfl
  simp only [Json.value, appeared, left, unconfirmed, seen]

end Logweir.CreationStop
