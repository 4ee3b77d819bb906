import Logweir.Library.Fields
import Logweir.Core.CheckCode

/-!
# Inventory entries

One topic of a discovery, the one TSV line it is written as, and the row the API
reads back out of that line.  The writer and the reader are separate code; for a
name Kafka accepts the row says what the entry said.
-/

set_option autoImplicit false

namespace Logweir.Inventory

open Logweir.Text Logweir.CheckContract

structure TopicEntry where
  name : String
  partitions : UInt32
  internal : Bool := false
  expected : Bool := false
  error : Option CheckCode := none
  deriving DecidableEq

namespace TopicEntry

def flagParts (e : TopicEntry) : List String :=
  (if e.internal then ["internal"] else []) ++ (if e.expected then ["expected"] else []) ++
    match e.error with
    | some code => ["error:" ++ code.asStr]
    | none => []

def flags (e : TopicEntry) : String :=
  if e.flagParts.isEmpty then "-"
  else String.ofList (joinChars ',' (e.flagParts.map String.toList))

def tsvBody (e : TopicEntry) : String :=
  e.name ++ "\t" ++ toString e.partitions.toNat ++ "\t" ++ e.flags

def tsvLine (e : TopicEntry) : String := e.tsvBody ++ "\n"

end TopicEntry

def topicTsv (entries : List TopicEntry) : String := String.join (entries.map TopicEntry.tsvLine)

def MAX_TOPIC_NAME_CHARS : Nat := 249

def topicNameIsKafkaLegal (name : String) : Bool :=
  !name.isEmpty && decide (name.utf8ByteSize ≤ MAX_TOPIC_NAME_CHARS) && name != "." &&
    name != ".." && name.toList.all fun c => c.isAlphanum || c == '.' || c == '_' || c == '-'

structure TopicEntryView where
  name : String
  partitions : UInt32
  internal : Bool
  expected : Bool
  errorCode : Option String
  deriving DecidableEq

structure Flags where
  internal : Bool := false
  expected : Bool := false
  errorCode : Option String := none
  deriving DecidableEq

def Flags.read (seen : Flags) (flag : String) : Flags :=
  if flag = "internal" then { seen with internal := true }
  else if flag = "expected" then { seen with expected := true }
  else
    match stripPrefix "error:" flag with
    | some code => { seen with errorCode := some code }
    | none => seen

def readFlags (flags : String) : Flags :=
  if flags = "-" then {} else (split ',' flags).foldl Flags.read {}

def parseLine (line : String) : Option TopicEntryView :=
  match split '\t' line with
  | name :: partitions :: rest =>
      match parseUnsigned 32 partitions with
      | none => none
      | some partitions =>
          let flags := rest.head?.getD "-"
          if name.isEmpty then none
          else
            let seen := readFlags flags
            some { name, partitions := UInt32.ofNat partitions, internal := seen.internal,
                   expected := seen.expected, errorCode := seen.errorCode }
  | _ => none

def TopicEntry.view (e : TopicEntry) : TopicEntryView where
  name := e.name
  partitions := e.partitions
  internal := e.internal
  expected := e.expected
  errorCode := e.error.map CheckCode.asStr

def isPlain (c : Char) : Bool := c != '\t' && c != '\n' && c != '\r' && c != ','

theorem plain_of_letter {c : Char} (letter : (c.isUpper || c.isLower) = true) :
    isPlain c = true := by
  unfold isPlain
  simp only [Bool.and_eq_true, bne_iff_ne]
  refine ⟨⟨⟨?_, ?_⟩, ?_⟩, ?_⟩ <;> (rintro rfl; exact absurd letter (by decide))

theorem plain_of_name {c : Char}
    (legal : (c.isAlphanum || c == '.' || c == '_' || c == '-') = true) : isPlain c = true := by
  unfold isPlain
  simp only [Bool.and_eq_true, bne_iff_ne]
  refine ⟨⟨⟨?_, ?_⟩, ?_⟩, ?_⟩ <;> (rintro rfl; exact absurd legal (by decide))

theorem plain_of_digit {c : Char} (digit : c.isDigit = true) : isPlain c = true := by
  unfold isPlain
  simp only [Bool.and_eq_true, bne_iff_ne]
  refine ⟨⟨⟨?_, ?_⟩, ?_⟩, ?_⟩ <;> (rintro rfl; exact absurd digit (by decide))

theorem legal_plain {name : String} (legal : topicNameIsKafkaLegal name = true) :
    name.isEmpty = false ∧ ∀ c ∈ name.toList, isPlain c = true := by
  unfold topicNameIsKafkaLegal at legal
  simp only [Bool.and_eq_true, Bool.not_eq_true', List.all_eq_true] at legal
  exact ⟨legal.1.1.1.1, fun c member => plain_of_name (legal.2 c member)⟩

theorem error_plain (code : CheckCode) :
    ∀ c ∈ ("error:" ++ code.asStr).toList, isPlain c = true := by
  intro c member
  rw [String.toList_append, List.mem_append] at member
  rcases member with fixed | letter
  · have all : "error:".toList.all isPlain = true := by decide
    exact List.all_eq_true.mp all c fixed
  · exact plain_of_letter (List.all_eq_true.mp code.asStr_letters c letter)

theorem flagParts_plain (e : TopicEntry) :
    ∀ part ∈ e.flagParts, ∀ c ∈ part.toList, isPlain c = true := by
  intro part member c mem
  have fixed (text : String) (all : text.toList.all isPlain = true) (same : part = text) :
      isPlain c = true := List.all_eq_true.mp all c (same ▸ mem)
  unfold TopicEntry.flagParts at member
  rw [List.mem_append, List.mem_append] at member
  rcases member with (member | member) | member
  · split at member
    · exact fixed "internal" (by decide) (List.mem_singleton.mp member)
    · exact absurd member List.not_mem_nil
  · split at member
    · exact fixed "expected" (by decide) (List.mem_singleton.mp member)
    · exact absurd member List.not_mem_nil
  · split at member
    · rename_i code _
      exact error_plain code c (List.mem_singleton.mp member ▸ mem)
    · exact absurd member List.not_mem_nil

theorem plain_ne {c sep : Char} (plain : isPlain c = true) (separator : isPlain sep = false) :
    c ≠ sep := by
  rintro rfl
  rw [plain] at separator
  exact Bool.noConfusion separator

theorem not_mem_of_plain {s : List Char} {sep : Char} (plain : ∀ c ∈ s, isPlain c = true)
    (separator : isPlain sep = false) : sep ∉ s := fun member =>
  plain_ne (plain sep member) separator rfl

theorem not_mem_joinChars {sep c : Char} (other : c ≠ sep) : ∀ parts : List (List Char),
    (∀ part ∈ parts, c ∉ part) → c ∉ joinChars sep parts
  | [], _ => List.not_mem_nil
  | [part], none_ => none_ part List.mem_cons_self
  | part :: next :: parts, none_ => by
      rw [joinChars, List.mem_append, List.mem_cons, not_or, not_or]
      exact ⟨none_ part List.mem_cons_self, other, not_mem_joinChars other (next :: parts)
        fun p member => none_ p (List.mem_cons_of_mem _ member)⟩
      exact List.cons_ne_nil _ _

theorem flags_plain (e : TopicEntry) {c : Char} (separator : isPlain c = false)
    (other : c ≠ ',') : c ∉ e.flags.toList := by
  unfold TopicEntry.flags
  split
  · intro member
    have all : "-".toList.all isPlain = true := by decide
    exact plain_ne (List.all_eq_true.mp all c member) separator rfl
  · rw [String.toList_ofList]
    apply not_mem_joinChars other
    intro chars member
    obtain ⟨part, here, rfl⟩ := List.mem_map.mp member
    exact not_mem_of_plain (flagParts_plain e part here) separator

theorem toList_tsvBody (e : TopicEntry) : e.tsvBody.toList =
    e.name.toList ++ '\t' :: ((toString e.partitions.toNat).toList ++ '\t' :: e.flags.toList) := by
  have tab : "\t".toList = ['\t'] := by decide
  simp only [TopicEntry.tsvBody, String.toList_append, tab, List.append_assoc,
    List.cons_append, List.nil_append]

theorem tsvBody_plain {e : TopicEntry} (legal : topicNameIsKafkaLegal e.name = true) {c : Char}
    (separator : isPlain c = false) (tab : c ≠ '\t') (comma : c ≠ ',') :
    c ∉ e.tsvBody.toList := by
  have digits : c ∉ (toString e.partitions.toNat).toList :=
    not_mem_of_plain (fun d member => plain_of_digit (isDigit_toString d member)) separator
  have name := not_mem_of_plain (legal_plain legal).2 separator
  rw [toList_tsvBody]
  simp only [List.mem_append, List.mem_cons, not_or]
  exact ⟨name, tab, digits, tab, flags_plain e separator comma⟩

theorem length_ofList_le {l : List Char} {n : Nat} (short : l.length ≤ n) :
    (String.ofList l).toList.length ≤ n := by
  rw [String.toList_ofList]
  exact short

theorem length_asStr (code : CheckCode) : code.asStr.toList.length ≤ 64 := by
  cases code <;> (apply length_ofList_le; decide)

theorem length_flags (e : TopicEntry) : e.flags.toList.length ≤ 90 := by
  unfold TopicEntry.flags
  split
  · decide
  · rw [String.toList_ofList]
    unfold TopicEntry.flagParts
    cases e.error with
    | none => cases e.internal <;> cases e.expected <;> simp [joinChars]
    | some code =>
        have spelled := length_asStr code
        cases e.internal <;> cases e.expected <;> simp [joinChars] <;> omega

theorem utf8ByteSize_tsvLine {e : TopicEntry} (legal : topicNameIsKafkaLegal e.name = true) :
    e.tsvLine.utf8ByteSize ≤ 700 := by
  have name : e.name.utf8ByteSize ≤ 249 := by
    simp only [topicNameIsKafkaLegal, Bool.and_eq_true, decide_eq_true_eq] at legal
    exact legal.1.1.1.2
  have number : (toString e.partitions.toNat).toList.length ≤ 10 := by
    have below := e.partitions.toNat_lt
    rw [Nat.toString_eq_ofList_toDigits, String.toList_ofList,
      Nat.length_toDigits_le_iff (by omega) (by omega)]
    omega
  have digits := utf8ByteSize_le (toString e.partitions.toNat)
  have flags := utf8ByteSize_le e.flags
  have short := length_flags e
  have tab : "\t".utf8ByteSize = 1 := by decide
  have lineEnd : "\n".utf8ByteSize = 1 := by decide
  simp only [TopicEntry.tsvLine, TopicEntry.tsvBody, String.utf8ByteSize_append, tab, lineEnd]
  omega

theorem read_error (seen : Flags) (code : CheckCode) :
    seen.read ("error:" ++ code.asStr) = { seen with errorCode := some code.asStr } := by
  have other {text : String} (head : text.toList.head? ≠ some 'e' ∨ text.toList[1]? ≠ some 'r') :
      "error:" ++ code.asStr ≠ text := by
    rintro rfl
    rw [String.toList_append] at head
    rcases head with head | head
    · exact head rfl
    · exact head rfl
  rw [Flags.read, if_neg (other (.inl (by decide))), if_neg (other (.inr (by decide))),
    stripPrefix_append]

theorem read_flagParts (e : TopicEntry) : e.flagParts.foldl Flags.read {} =
    { internal := e.internal, expected := e.expected, errorCode := e.error.map CheckCode.asStr } := by
  have internal (seen : Flags) : seen.read "internal" = { seen with internal := true } := if_pos rfl
  have expected (seen : Flags) : seen.read "expected" = { seen with expected := true } :=
    (if_neg (by decide)).trans (if_pos rfl)
  unfold TopicEntry.flagParts
  cases e.internal <;> cases e.expected <;> cases e.error <;>
    simp [internal, expected, read_error]

theorem readFlags_flags (e : TopicEntry) : readFlags e.flags = e.flagParts.foldl Flags.read {} := by
  unfold readFlags TopicEntry.flags
  by_cases bare : e.flagParts = []
  · rw [if_pos (List.isEmpty_iff.mpr bare), if_pos rfl, bare]
    rfl
  · have comma : isPlain ',' = false := by decide
    have pieces := split_join e.flagParts bare fun part member =>
      not_mem_of_plain (flagParts_plain e part member) (comma : isPlain ',' = false)
    rw [if_neg (mt List.isEmpty_iff.mp bare), pieces]
    split
    · -- A flags text of one dash would read as no flag at all.
      rename_i dash
      rw [dash, show split ',' "-" = ["-"] by decide] at pieces
      rw [← pieces]
      decide
    · rfl

theorem parseLine_tsvBody {e : TopicEntry} (legal : topicNameIsKafkaLegal e.name = true) :
    parseLine e.tsvBody = some e.view := by
  obtain ⟨named, plain⟩ := legal_plain legal
  have tab {s : List Char} (all : ∀ c ∈ s, isPlain c = true) : '\t' ∉ s :=
    not_mem_of_plain all (by decide)
  have digits : '\t' ∉ (toString e.partitions.toNat).toList :=
    tab fun d member => plain_of_digit (isDigit_toString d member)
  have flags : '\t' ∉ e.flags.toList := flags_plain e (by decide) (by decide)
  have fields : split '\t' e.tsvBody = [e.name, toString e.partitions.toNat, e.flags] := by
    rw [split, toList_tsvBody, splitChars_append (tab plain), splitChars_append digits,
      splitChars_plain flags]
    simp only [List.map_cons, List.map_nil, String.ofList_toList]
  have number : parseUnsigned 32 (toString e.partitions.toNat) = some e.partitions.toNat :=
    parseUnsigned_toString e.partitions.toNat_lt
  unfold parseLine
  rw [fields]
  simp only [number, List.head?_cons, Option.getD_some, named, Bool.false_eq_true, if_false,
    readFlags_flags, read_flagParts, UInt32.ofNat_toNat, TopicEntry.view]

theorem toList_topicTsv (entries : List TopicEntry) : (topicTsv entries).toList =
    entries.flatMap fun e => e.tsvBody.toList ++ ['\n'] := by
  have lineEnd : "\n".toList = ['\n'] := by decide
  induction entries with
  | nil => rfl
  | cons e entries ih =>
      have joined : topicTsv (e :: entries) = e.tsvLine ++ topicTsv entries := by
        rw [topicTsv, List.map_cons, String.join_cons, topicTsv]
      rw [joined, String.toList_append, ih, List.flatMap_cons, TopicEntry.tsvLine,
        String.toList_append, lineEnd]

theorem lines_topicTsv (entries : List TopicEntry)
    (legal : ∀ e ∈ entries, topicNameIsKafkaLegal e.name = true) :
    lines (topicTsv entries) = entries.map TopicEntry.tsvBody := by
  have written := lines_written (entries.map TopicEntry.tsvBody) (by
    intro body member
    obtain ⟨e, here, rfl⟩ := List.mem_map.mp member
    exact ⟨tsvBody_plain (legal e here) (by decide) (by decide) (by decide),
      tsvBody_plain (legal e here) (by decide) (by decide) (by decide)⟩)
  rw [List.flatMap_map] at written
  rw [← written, ← toList_topicTsv, String.ofList_toList]

end Logweir.Inventory
