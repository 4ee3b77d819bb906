import Logweir.Inventory.Entries
import Logweir.Library.Json
import Logweir.Library.TreeMaps
import Mathlib.Algebra.Group.Int.Defs
import Mathlib.Data.List.Induction

/-!
# Chunks

`weirkeeper::check::chunks`: an inventory cut into bounded pieces, the immutable
owned `ConfigMap` each piece is stored as, and the index the status carries.
SHA-256 is a parameter.
-/

set_option autoImplicit false

namespace Logweir.Inventory

open Std Logweir.Text Logweir.Json

def MAX_CHUNK_LINES : Nat := 2500

def MAX_CHUNK_BYTES : Nat := 768 * 1024

def CHUNK_KEY : String := "topics.tsv"

def FORMAT_ANNOTATION : String := "logweir.dev/result-format"

def SHA256_ANNOTATION : String := "logweir.dev/result-sha256"

def CHUNK_ANNOTATION : String := "logweir.dev/chunk"

def TOPIC_INVENTORY_FORMAT : String := "logweir.dev/topic-inventory/v1"

def sha256Prefixed (sha256 : List UInt8 → List UInt8) (text : String) : String :=
  "sha256:" ++ hexEncode (sha256 (utf8 text.toList))

/-- `<job>-r<3-digit index>`. -/
def chunkName (jobName : String) (index : Nat) : String :=
  jobName ++ "-r" ++ String.ofList ((toString index).toList.leftpad 3 '0')

structure Chunk where
  index : Nat
  data : String
  lines : Nat
  sha256 : String
  deriving DecidableEq

structure Splitting where
  out : List Chunk := []
  data : String := ""
  lines : Nat := 0

section

variable (sha256 : List UInt8 → List UInt8)

def finish (index : Nat) (data : String) (lines : Nat) : Chunk where
  index
  data
  lines
  sha256 := sha256Prefixed sha256 data

def Splitting.place (st : Splitting) (entry : TopicEntry) : Splitting :=
  let line := entry.tsvLine
  if MAX_CHUNK_LINES ≤ st.lines ∨
      (st.data ≠ "" ∧ MAX_CHUNK_BYTES < st.data.utf8ByteSize + line.utf8ByteSize) then
    { out := st.out ++ [finish sha256 st.out.length st.data st.lines], data := line, lines := 1 }
  else { st with data := st.data ++ line, lines := st.lines + 1 }

def split (entries : List TopicEntry) : List Chunk :=
  let st := entries.foldl (Splitting.place sha256) {}
  if 0 < st.lines then st.out ++ [finish sha256 st.out.length st.data st.lines] else st.out

end

structure OwnerReference where
  apiVersion : String
  kind : String
  name : String
  uid : String
  controller : Option Bool
  blockOwnerDeletion : Option Bool
  deriving DecidableEq

structure ConfigMap where
  name : String
  namespace_ : String
  labels : Option (ExtTreeMap String String compare) := none
  annotations : Option (ExtTreeMap String String compare)
  ownerReferences : Option (List OwnerReference)
  immutable : Option Bool
  data : Option (ExtTreeMap String String compare)

structure RunnerOwner where
  apiVersion : String
  kind : String
  name : String
  uid : String

def object (name namespace_ : String) (owner : RunnerOwner) (format sha256 : String)
    (chunk : Option String) (key data : String) : ConfigMap where
  name
  namespace_
  annotations :=
    let annotations : ExtTreeMap String String compare :=
      TreeMaps.ofEntries [(FORMAT_ANNOTATION, format), (SHA256_ANNOTATION, sha256)]
    some (match chunk with
      | some chunk => annotations.insert CHUNK_ANNOTATION chunk
      | none => annotations)
  ownerReferences := some [{ apiVersion := owner.apiVersion, kind := owner.kind,
                             name := owner.name, uid := owner.uid,
                             controller := some true, blockOwnerDeletion := some true }]
  immutable := some true
  data := some (TreeMaps.ofEntries [(key, data)])

def buildChunk (jobName namespace_ : String) (owner : RunnerOwner) (chunk : Chunk) (total : Nat) :
    ConfigMap :=
  object (chunkName jobName chunk.index) namespace_ owner TOPIC_INVENTORY_FORMAT chunk.sha256
    (some (toString (chunk.index + 1) ++ "/" ++ toString total)) CHUNK_KEY chunk.data

abbrev ChunkConflict := String

def ConfigMap.isControlledBy (map : ConfigMap) (uid : String) : Bool :=
  (map.ownerReferences.getD []).any fun o => o.uid == uid && o.controller == some true

def ConfigMap.sha256 (map : ConfigMap) : Option String :=
  map.annotations.bind fun annotations => annotations[SHA256_ANNOTATION]?

def acceptsExisting (existing : ConfigMap) (ownerUid sha256 : String) :
    Except ChunkConflict Unit :=
  if ¬ existing.isControlledBy ownerUid then
    .error ("ConfigMap " ++ existing.name ++
      " exists and is not controlled by this check's subject")
  else if existing.sha256 ≠ some sha256 then
    .error ("ConfigMap " ++ existing.name ++ " exists with result digest " ++
      existing.sha256.getD "<none>" ++ " and this pass produced " ++ sha256)
  else if existing.immutable ≠ some true then
    .error ("ConfigMap " ++ existing.name ++ " exists without `immutable: true`, so a result an " ++
      "API response already served could still change; it is not adopted")
  else .ok ()

structure InventoryChunk where
  name : String
  sha256 : String
  count : Int
  firstName : Option String
  lastName : Option String
  deriving DecidableEq

def I64_MAX : Int := 2 ^ 63 - 1

def chunkIndex (entries : List TopicEntry) : List Chunk → String → List InventoryChunk
  | [], _ => []
  | chunk :: chunks, jobName =>
      let slice := entries.take chunk.lines
      { name := chunkName jobName chunk.index
        sha256 := chunk.sha256
        count := if (chunk.lines : Int) ≤ I64_MAX then chunk.lines else I64_MAX
        firstName := slice.head?.map TopicEntry.name
        lastName := slice.getLast?.map TopicEntry.name } ::
        chunkIndex (entries.drop chunk.lines) chunks jobName

variable (sha256 : List UInt8 → List UInt8)

def chunkOf (index : Nat) (block : List TopicEntry) : Chunk :=
  finish sha256 index (topicTsv block) block.length

def rowOf (jobName : String) (index : Nat) (block : List TopicEntry) : InventoryChunk where
  name := chunkName jobName index
  sha256 := sha256Prefixed sha256 (topicTsv block)
  count := if (block.length : Int) ≤ I64_MAX then block.length else I64_MAX
  firstName := block.head?.map TopicEntry.name
  lastName := block.getLast?.map TopicEntry.name

/-- What is held between two entries: the blocks finished so far and the open one. -/
structure Holds (st : Splitting) (seen : List TopicEntry) (blocks : List (List TopicEntry))
    (open_ : List TopicEntry) : Prop where
  out : st.out = blocks.mapIdx (chunkOf sha256)
  data : st.data = topicTsv open_
  lines : st.lines = open_.length
  all : seen = blocks.flatten ++ open_
  filled : ∀ block ∈ blocks, block ≠ []

theorem topicTsv_concat (block : List TopicEntry) (e : TopicEntry) :
    topicTsv (block ++ [e]) = topicTsv block ++ e.tsvLine := by
  rw [← String.toList_inj, String.toList_append, toList_topicTsv, toList_topicTsv,
    List.flatMap_append, List.flatMap_singleton, TopicEntry.tsvLine, String.toList_append]
  rfl

theorem topicTsv_nil : topicTsv [] = "" := rfl

theorem Holds.place {st : Splitting} {seen : List TopicEntry} {blocks : List (List TopicEntry)}
    {open_ : List TopicEntry} (holds : Holds sha256 st seen blocks open_) (e : TopicEntry) :
    ∃ blocks' open', Holds sha256 (st.place sha256 e) (seen ++ [e]) blocks' open' ∧ open' ≠ [] := by
  by_cases full : MAX_CHUNK_LINES ≤ st.lines ∨
      (st.data ≠ "" ∧ MAX_CHUNK_BYTES < st.data.utf8ByteSize + e.tsvLine.utf8ByteSize)
  · have some_ : open_ ≠ [] := by
      rintro rfl
      rw [holds.lines, holds.data] at full
      rcases full with long | ⟨data, _⟩
      · exact absurd long (by decide)
      · exact data rfl
    rw [show st.place sha256 e = _ from if_pos full]
    refine ⟨blocks ++ [open_], [e], ⟨?_, ?_, rfl, ?_, ?_⟩, List.cons_ne_nil _ _⟩
    · have last : finish sha256 st.out.length st.data st.lines =
          chunkOf sha256 blocks.length open_ := by
        rw [holds.out, holds.data, holds.lines, List.length_mapIdx, chunkOf]
      simp only [List.mapIdx_concat, last]
      rw [holds.out]
    · exact (String.empty_append).symm.trans (topicTsv_concat [] e).symm
    · rw [holds.all, List.flatten_concat]
    · intro block member
      rcases List.mem_append.mp member with old | new
      · exact holds.filled block old
      · rw [List.mem_singleton.mp new]
        exact some_
  · rw [show st.place sha256 e = _ from if_neg full]
    refine ⟨blocks, open_ ++ [e], ⟨holds.out, ?_, ?_, ?_, holds.filled⟩, ?_⟩
    · exact (congrArg (· ++ e.tsvLine) holds.data).trans (topicTsv_concat open_ e).symm
    · rw [List.length_append, List.length_singleton, holds.lines]
    · rw [holds.all, List.append_assoc]
    · exact List.append_ne_nil_of_right_ne_nil _ (List.cons_ne_nil _ _)

theorem holds_foldl (entries : List TopicEntry) : ∃ blocks open_,
    Holds sha256 (entries.foldl (Splitting.place sha256) {}) entries blocks open_ ∧
      (open_ = [] → entries = []) := by
  induction entries using List.reverseRecOn with
  | nil =>
      exact ⟨[], [], ⟨rfl, rfl, rfl, rfl, fun _ member => absurd member List.not_mem_nil⟩,
        fun _ => rfl⟩
  | append_singleton entries e ih =>
      obtain ⟨blocks, open_, holds, _⟩ := ih
      obtain ⟨blocks', open', holds', some_⟩ := holds.place sha256 e
      rw [List.foldl_concat]
      exact ⟨blocks', open', holds', fun none_ => absurd none_ some_⟩

theorem split_blocks (entries : List TopicEntry) : ∃ blocks : List (List TopicEntry),
    split sha256 entries = blocks.mapIdx (chunkOf sha256) ∧ blocks.flatten = entries ∧
      ∀ block ∈ blocks, block ≠ [] := by
  obtain ⟨blocks, open_, holds, last⟩ := holds_foldl sha256 entries
  unfold split
  simp only
  split
  case isTrue more =>
    rw [holds.lines] at more
    refine ⟨blocks ++ [open_], ?_, ?_, ?_⟩
    · rw [List.mapIdx_concat, holds.out, holds.data, holds.lines, List.length_mapIdx, chunkOf]
    · rw [List.flatten_concat, holds.all]
    · intro block member
      rcases List.mem_append.mp member with old | new
      · exact holds.filled block old
      · rw [List.mem_singleton.mp new]
        exact List.ne_nil_of_length_pos more
  case isFalse done =>
    rw [holds.lines] at done
    have none_ : open_ = [] := List.eq_nil_of_length_eq_zero (by omega)
    refine ⟨blocks, holds.out, ?_, holds.filled⟩
    have all := holds.all
    rw [none_, List.append_nil] at all
    exact all.symm

/-- A finished chunk is nearly full: it holds the most lines, or so many short ones
that the next would not fit. -/
structure Filled (st : Splitting) (n : Nat) : Prop where
  size : st.data.utf8ByteSize ≤ 700 * st.lines
  count : 1000 * st.out.length + st.lines ≤ n

theorem Filled.place {st : Splitting} {n : Nat} (filled : Filled st n) {e : TopicEntry}
    (short : e.tsvLine.utf8ByteSize ≤ 700) : Filled (st.place sha256 e) (n + 1) := by
  have size := filled.size
  have count := filled.count
  by_cases full : MAX_CHUNK_LINES ≤ st.lines ∨
      (st.data ≠ "" ∧ MAX_CHUNK_BYTES < st.data.utf8ByteSize + e.tsvLine.utf8ByteSize)
  · rw [show st.place sha256 e = _ from if_pos full]
    have many : 1000 ≤ st.lines := by
      simp only [MAX_CHUNK_LINES, MAX_CHUNK_BYTES] at full
      omega
    refine ⟨short, ?_⟩
    change 1000 * (st.out ++ [_]).length + 1 ≤ n + 1
    rw [List.length_append, List.length_singleton]
    omega
  · rw [show st.place sha256 e = _ from if_neg full]
    constructor
    · rw [String.utf8ByteSize_append, Nat.mul_add]
      omega
    · exact Nat.succ_le_succ count

theorem length_split_le {entries : List TopicEntry}
    (short : ∀ e ∈ entries, e.tsvLine.utf8ByteSize ≤ 700) :
    1000 * (split sha256 entries).length ≤ entries.length + 999 := by
  have filled : Filled (entries.foldl (Splitting.place sha256) {}) entries.length := by
    induction entries using List.reverseRecOn with
    | nil => exact ⟨Nat.le_refl 0, Nat.le_refl 0⟩
    | append_singleton entries e ih =>
        rw [List.foldl_concat, List.length_append, List.length_singleton]
        exact (ih fun e' member => short e' (List.mem_append_left _ member)).place sha256
          (short e (List.mem_append_right _ List.mem_cons_self))
  have count := filled.count
  unfold split
  simp only
  split
  · rw [List.length_append, List.length_singleton]
    omega
  · omega

theorem chunkIndex_blocks (jobName : String) (blocks : List (List TopicEntry)) : ∀ first,
    chunkIndex blocks.flatten (blocks.mapIdx fun i block => chunkOf sha256 (first + i) block)
      jobName = blocks.mapIdx fun i block => rowOf sha256 jobName (first + i) block := by
  induction blocks with
  | nil => exact fun _ => rfl
  | cons block blocks ih =>
      intro first
      have shift (i : Nat) : first + (i + 1) = first + 1 + i := by omega
      have later := ih (first + 1)
      simp only [← shift] at later
      rw [List.mapIdx_cons, List.mapIdx_cons, chunkIndex, List.flatten_cons]
      simp only [chunkOf, finish, List.take_left, List.drop_left, Nat.add_zero]
      exact congrArg _ later

theorem chunkIndex_split {entries : List TopicEntry} {blocks : List (List TopicEntry)}
    (cut : split sha256 entries = blocks.mapIdx (chunkOf sha256)) (all : blocks.flatten = entries)
    (jobName : String) : chunkIndex entries (split sha256 entries) jobName =
      blocks.mapIdx (rowOf sha256 jobName) := by
  have rows := chunkIndex_blocks sha256 jobName blocks 0
  simp only [Nat.zero_add] at rows
  rw [cut, ← all]
  exact rows

/-- The object at a chunk's name is the chunk the index means. -/
structure ConfigMap.Keeps (map : ConfigMap) (ownerUid sha256 : String) : Prop where
  owned : map.isControlledBy ownerUid = true
  digest : map.sha256 = some sha256
  immutable : map.immutable = some true

theorem acceptsExisting_ok {existing : ConfigMap} {ownerUid digest : String} :
    acceptsExisting existing ownerUid digest = .ok () ↔ existing.Keeps ownerUid digest := by
  unfold acceptsExisting
  constructor
  · intro accepted
    split at accepted
    · cases accepted
    · rename_i owned
      split at accepted
      · cases accepted
      · rename_i same
        split at accepted
        · cases accepted
        · rename_i fixed
          exact ⟨Decidable.not_not.mp owned, Decidable.not_not.mp same, Decidable.not_not.mp fixed⟩
  · rintro ⟨owned, same, fixed⟩
    rw [if_neg (not_not_intro owned), if_neg (not_not_intro same), if_neg (not_not_intro fixed)]

variable (jobName namespace_ : String) (owner : RunnerOwner)

theorem sha256_buildChunk (chunk : Chunk) (total : Nat) :
    (buildChunk jobName namespace_ owner chunk total).sha256 = some chunk.sha256 := by
  have chunkKey : ¬ compare CHUNK_ANNOTATION SHA256_ANNOTATION = .eq := by
    rw [Std.compare_eq_iff_eq]
    decide
  have formatKey : FORMAT_ANNOTATION ≠ SHA256_ANNOTATION := by decide
  unfold ConfigMap.sha256 buildChunk object
  simp only [Option.bind_some]
  rw [ExtTreeMap.getElem?_insert, if_neg chunkKey, TreeMaps.getElem?_ofEntries]
  · exact List.mem_cons_of_mem _ List.mem_cons_self
  · intro e member e' member' key
    simp only [List.mem_cons, List.not_mem_nil, or_false] at member member'
    rcases member with rfl | rfl <;> rcases member' with rfl | rfl
    · rfl
    · exact absurd key formatKey
    · exact absurd key.symm formatKey
    · rfl

theorem data_buildChunk (chunk : Chunk) (total : Nat) :
    ((buildChunk jobName namespace_ owner chunk total).data.bind fun data => data[CHUNK_KEY]?) =
      some chunk.data := by
  unfold buildChunk object
  simp only [Option.bind_some]
  rw [TreeMaps.getElem?_ofEntries]
  · exact List.mem_cons_self
  · intro e member e' member' _
    rw [List.mem_singleton.mp member, List.mem_singleton.mp member']

theorem keeps_buildChunk (chunk : Chunk) (total : Nat) :
    (buildChunk jobName namespace_ owner chunk total).Keeps owner.uid chunk.sha256 where
  owned := by
    change ([_] : List OwnerReference).any _ = true
    rw [List.any_cons]
    simp
  digest := sha256_buildChunk jobName namespace_ owner chunk total
  immutable := rfl

theorem chunkName_inj {i j : Nat} (same : chunkName jobName i = chunkName jobName j) : i = j := by
  unfold chunkName at same
  have digits := String.ofList_injective ((String.append_right_inj _).mp same)
  have number (n : Nat) : Nat.ofDigitChars 10 ((toString n).toList.leftpad 3 '0') 0 = n := by
    rw [List.leftpad, Nat.ofDigitChars_append, Nat.ofDigitChars_replicate_zero,
      Nat.toString_eq_ofList_toDigits, String.toList_ofList, Nat.mul_zero]
    exact Nat.ofDigitChars_ten_toDigits
  rw [← number i, digits, number j]

end Logweir.Inventory
