import Logweir.Library.JsonStream
import Logweir.Library.SortedMaps
import Mathlib.Algebra.BigOperators.Group.List.Basic
import Mathlib.Algebra.Ring.Int.Defs
import Mathlib.Data.String.Basic

/-!
# The facts of a backup receipt

`logweir_core::receipt_facts`: the few facts the controller takes from a receipt, read as its bytes
stream past, and `controllers::backup`'s functions that read the same facts from the parsed tree.
The JSON tokens, and an instant's text, are parameters.
-/

set_option autoImplicit false

namespace Logweir.Receipt.Facts

open Logweir.JsonStream
open Logweir.JsonValues (Value Number)
open Logweir.Json (RECURSION_LIMIT)
open Logweir.SortedMaps (SortedMap)

abbrev Instant := Int

def i64Min : Int := -9223372036854775808
def i64Max : Int := 9223372036854775807
def u64Max : Int := 18446744073709551615

def MAX_RECORDS_ENTRIES : Nat := 16384

/-- `i64::try_from`. -/
def i64OfInt (n : Int) : Option Int := if i64Min ≤ n ∧ n ≤ i64Max then some n else none

def asI64 (n : Option Int) : Option Int := n.bind i64OfInt

def asU64 (n : Option Int) : Option Nat :=
  n.bind fun n => if 0 ≤ n ∧ n ≤ u64Max then some n.toNat else none

/-- `i64::checked_add`. -/
def checkedAdd (a b : Int) : Option Int := i64OfInt (a + b)

def addCount (total : Int) (count : Option Nat) : Option Int := do
  checkedAdd total (← i64OfInt (← count))

inductive Field where
  | absent
  | text (s : String)
  | other
  deriving DecidableEq

def Field.asStr : Field → Option String
  | .text s => some s
  | .absent | .other => none

structure ReceiptFacts where
  backupId : Field := .absent
  startedAt : Field := .absent
  finishedAt : Field := .absent
  covered : Option (Int × Int) := none
  records : Option Int := none

section

variable (L : Lexer)

def leaf {α : Type} (depth : Nat) (scalar : Scalar → α) (other : α) : Reader α :=
  L.any scalar
    (within depth fun d => (L.elements (fun _ => L.skip d) ()).map fun _ => other)
    (within depth fun d => (L.entries (fun _ _ => L.skip d) ()).map fun _ => other)

/-- `FieldVisitor`. -/
def fieldSeed (depth : Nat) : Reader Field :=
  leaf L depth (fun s => match s with
    | .string s => .text s
    | _ => .other) .other

def rawNumber (depth : Nat) : Reader (Option Int) :=
  leaf L depth (fun s => match s with
    | .number (.integer n) => some n
    | _ => none) none

def coveredEntry (depth : Nat) (seen : Option (Option Int) × Option (Option Int)) (key : String) :
    Reader (Option (Option Int) × Option (Option Int)) :=
  if key = "from_ms" then (rawNumber L depth).map fun n => (some (asI64 n), seen.2)
  else if key = "to_ms" then (rawNumber L depth).map fun n => (seen.1, some (asI64 n))
  else (L.skip depth).map fun _ => seen

def window (seen : Option (Option Int) × Option (Option Int)) : Option (Int × Int) :=
  match seen.1.join, seen.2.join with
  | some from_, some to_ => some (from_, to_)
  | _, _ => none

/-- `CoveredVisitor`. -/
def coveredSeed (depth : Nat) : Reader (Option (Int × Int)) :=
  L.any (fun _ => none)
    (within depth fun d => (L.elements (fun _ => L.skip d) ()).map fun _ => none)
    (within depth fun d => (L.entries (coveredEntry L d) (none, none)).map window)

structure Counts where
  counts : SortedMap String (Option Nat)
  tooMany : Bool

def Counts.push (s : Counts) (key : String) (value : Option Nat) : Counts :=
  if s.tooMany then s
  else if MAX_RECORDS_ENTRIES ≤ s.counts.entries.length ∧ (s.counts.get? key).isNone then
    ⟨SortedMap.empty, true⟩
  else ⟨s.counts.insert key value, false⟩

def Counts.total (s : Counts) : Option Int :=
  if s.tooMany then none else s.counts.values.foldlM addCount 0

def recordsEntry (depth : Nat) (s : Counts) (key : String) : Reader Counts :=
  (rawNumber L depth).map fun n => s.push key (asU64 n)

/-- `RecordsVisitor`. -/
def recordsSeed (depth : Nat) : Reader (Option Int) :=
  L.any (fun _ => none)
    (within depth fun d => (L.elements (fun _ => L.skip d) ()).map fun _ => none)
    (within depth fun d => (L.entries (recordsEntry L d) ⟨SortedMap.empty, false⟩).map Counts.total)

def topEntry (depth : Nat) (facts : ReceiptFacts) (key : String) : Reader ReceiptFacts :=
  if key = "backup_id" then (fieldSeed L depth).map fun f => { facts with backupId := f }
  else if key = "started_at" then (fieldSeed L depth).map fun f => { facts with startedAt := f }
  else if key = "finished_at" then (fieldSeed L depth).map fun f => { facts with finishedAt := f }
  else if key = "covered" then (coveredSeed L depth).map fun c => { facts with covered := c }
  else if key = "records" then (recordsSeed L depth).map fun n => { facts with records := n }
  else (L.skip depth).map fun _ => facts

/-- `TopVisitor`. -/
def topSeed (depth : Nat) : Reader ReceiptFacts :=
  L.any (fun _ => {})
    (within depth fun d => (L.elements (fun _ => L.skip d) ()).map fun _ => {})
    (within depth fun d => L.entries (topEntry L d) {})

/-- `ReceiptFacts::fold`. -/
def fold (bytes : List UInt8) : Option ReceiptFacts := L.document (topSeed L RECURSION_LIMIT) bytes

/-- `serde_json::from_slice::<Value>`. -/
def fromSlice (bytes : List UInt8) : Option Value := L.document (L.value RECURSION_LIMIT) bytes

end

def ReceiptFacts.capture (parse : String → Option Instant) (facts : ReceiptFacts) :
    Option (Instant × Instant) := do
  let started ← facts.startedAt.asStr.bind parse
  let finished ← facts.finishedAt.asStr.bind parse
  some (started, finished)

structure ArchiveFacts where
  covered : Option (Int × Int)
  records : Option Int
  capture : Option (Instant × Instant)

def observeArchive (L : Lexer) (parse : String → Option Instant) (receipt : Option (List UInt8)) :
    ArchiveFacts :=
  let document := receipt.bind (fold L)
  { covered := (document.bind ReceiptFacts.covered).filter fun w => decide (w.1 < w.2)
    records := document.bind ReceiptFacts.records
    capture := document.bind (ReceiptFacts.capture parse) }

/-- `Value::get`. -/
def get (key : String) : Value → Option Value
  | .object fields => fields.lookup key
  | _ => none

def numberOf : Value → Option Int
  | .number (.integer n) => some n
  | _ => none

def asStr : Value → Option String
  | .string s => some s
  | _ => none

def recordsFromReceipt (receipt : Value) : Option Int :=
  match get "records" receipt with
  | some (.object records) => records.foldlM (fun total e => addCount total (asU64 (numberOf e.2))) 0
  | _ => none

def captureFromReceipt (parse : String → Option Instant) (receipt : Value) :
    Option (Instant × Instant) :=
  let at_ (key : String) := (get key receipt).bind fun v => (asStr v).bind parse
  do
    let started ← at_ "started_at"
    let finished ← at_ "finished_at"
    some (started, finished)

def coveredFromReceipt (receipt : Value) : Option (Int × Int) := do
  let covered ← get "covered" receipt
  let fromMs ← asI64 (numberOf (← get "from_ms" covered))
  let toMs ← asI64 (numberOf (← get "to_ms" covered))
  if fromMs < toMs then some (fromMs, toMs) else none

def fieldOf : Option Value → Field
  | none => .absent
  | some (.string s) => .text s
  | some _ => .other

def windowOf (covered : Value) : Option (Int × Int) :=
  window ((get "from_ms" covered).map fun v => asI64 (numberOf v),
    (get "to_ms" covered).map fun v => asI64 (numberOf v))

def recordsOf : Value → Option Int
  | .object records =>
      if records.length ≤ MAX_RECORDS_ENTRIES then
        records.foldlM (fun total e => addCount total (asU64 (numberOf e.2))) 0
      else none
  | _ => none

def factsOf (receipt : Value) : ReceiptFacts where
  backupId := fieldOf (get "backup_id" receipt)
  startedAt := fieldOf (get "started_at" receipt)
  finishedAt := fieldOf (get "finished_at" receipt)
  covered := (get "covered" receipt).bind windowOf
  records := (get "records" receipt).bind recordsOf

section

variable (L : Lexer)

theorem alike_leaf {α : Type} {scalar : Scalar → α} {other : α} (f : Value → α) (depth : Nat)
    (scalars : ∀ s, scalar s = f s.value) (arrays : ∀ items, other = f (.array items))
    (objects : ∀ fields, other = f (.object fields)) :
    Alike (fun a v => a = f v) (leaf L depth scalar other) (L.value depth) := by
  unfold leaf
  rw [value_eq]
  refine alike_any L scalars (fun d _ => ?_) fun d _ => ?_
  · exact (alike_skipElements L d).map _ _ fun _ items _ => arrays items
  · exact (alike_skipEntries L d).map _ _ fun _ fields _ => objects fields

theorem alike_fieldSeed (depth : Nat) :
    Alike (fun f v => f = fieldOf (some v)) (fieldSeed L depth) (L.value depth) := by
  refine alike_leaf L (fun v => fieldOf (some v)) depth (fun s => ?_) (fun _ => rfl) fun _ => rfl
  cases s <;> rfl

theorem alike_rawNumber (depth : Nat) :
    Alike (fun n v => n = numberOf v) (rawNumber L depth) (L.value depth) := by
  refine alike_leaf L numberOf depth (fun s => ?_) (fun _ => rfl) fun _ => rfl
  cases s with
  | number n => cases n <;> rfl
  | null => rfl
  | bool => rfl
  | string => rfl

theorem get_put (key key' : String) (v : Value) (fields : List (String × Value)) :
    get key (.object (JsonValues.put key' v fields)) =
      if key = key' then some v else get key (.object fields) :=
  JsonValues.lookup_put key' v key fields

theorem alike_coveredSeed (depth : Nat) :
    Alike (fun c v => c = windowOf v) (coveredSeed L depth) (L.value depth) := by
  unfold coveredSeed
  rw [value_eq]
  refine alike_any L (fun s => ?_) (fun d _ => ?_) fun d _ => ?_
  · cases s <;> rfl
  · exact (alike_skipElements L d).map _ _ fun _ items _ => rfl
  · have entries : Alike (fun seen fields => seen =
        ((get "from_ms" (.object fields)).map (fun v => asI64 (numberOf v)),
          (get "to_ms" (.object fields)).map fun v => asI64 (numberOf v)))
        (L.entries (coveredEntry L d) (none, none))
        (L.entries (fun fields key => (L.value d).map fun v => JsonValues.put key v fields) []) := by
      refine alike_entries L (fun seen fields key same => ?_) rfl
      subst same
      unfold coveredEntry
      split
      · rename_i named
        subst named
        refine (alike_rawNumber L d).map _ _ fun n v same => ?_
        simp [same, get_put]
      · split
        · rename_i named
          subst named
          refine (alike_rawNumber L d).map _ _ fun n v same => ?_
          simp [same, get_put]
        · rename_i notFrom notTo
          refine (alike_skip L d).map _ _ fun _ v _ => ?_
          simp [get_put, Ne.symm notFrom, Ne.symm notTo]
    exact entries.map _ _ fun seen fields same => congrArg window same

end

theorem i64OfInt_eq_some {n m : Int} : i64OfInt n = some m ↔ n = m ∧ i64Min ≤ n ∧ n ≤ i64Max := by
  unfold i64OfInt
  split
  · rename_i fits
    exact ⟨fun same => ⟨Option.some.inj same, fits⟩, fun held => congrArg some held.1⟩
  · rename_i wide
    exact ⟨fun none_ => (by cases none_), fun held => absurd held.2 wide⟩

theorem addCount_eq_some {total sum : Int} {count : Option Nat} (positive : 0 ≤ total) :
    addCount total count = some sum ↔ ∃ n : Nat, count = some n ∧ sum = total + n ∧ sum ≤ i64Max := by
  unfold addCount checkedAdd
  constructor
  · intro added
    obtain ⟨n, counted, added⟩ := Option.bind_eq_some_iff.mp added
    obtain ⟨m, fits, added⟩ := Option.bind_eq_some_iff.mp added
    obtain ⟨same, -⟩ := i64OfInt_eq_some.mp fits
    obtain ⟨sum_, -, below⟩ := i64OfInt_eq_some.mp added
    subst same
    exact ⟨n, counted, sum_.symm, sum_ ▸ below⟩
  · intro held
    obtain ⟨n, rfl, rfl, below⟩ := held
    have fits : i64OfInt (n : Int) = some (n : Int) :=
      i64OfInt_eq_some.mpr ⟨rfl, by unfold i64Min; omega, by omega⟩
    have added : i64OfInt (total + n) = some (total + n) :=
      i64OfInt_eq_some.mpr ⟨rfl, by unfold i64Min; omega, below⟩
    simp only [Option.bind_eq_bind, Option.bind_some, fits, added]

theorem foldlM_addCount {values : List (Option Nat)} : ∀ {total sum : Int}, 0 ≤ total →
    total ≤ i64Max → (values.foldlM addCount total = some sum ↔
      (∀ v ∈ values, v.isSome = true) ∧ sum = total + ((values.map fun v => v.getD 0).sum : Nat) ∧
        sum ≤ i64Max) := by
  induction values with
  | nil =>
      intro total sum positive below
      rw [List.foldlM_nil]
      constructor
      · intro same
        cases same
        exact ⟨fun v member => absurd member List.not_mem_nil, (Int.add_zero _).symm, below⟩
      · intro held
        rw [held.2.1]
        exact congrArg some (Int.add_zero _).symm
  | cons v values ih =>
      intro total sum positive below
      rw [List.foldlM_cons, List.map_cons, List.sum_cons, List.forall_mem_cons]
      constructor
      · intro added
        obtain ⟨next, here, added⟩ := Option.bind_eq_some_iff.mp added
        obtain ⟨n, rfl, rfl, below'⟩ := (addCount_eq_some positive).mp here
        obtain ⟨counted, same, bound⟩ := (ih (by omega) below').mp added
        refine ⟨⟨rfl, counted⟩, ?_, bound⟩
        rw [same, Option.getD_some, Int.natCast_add]
        omega
      · intro held
        obtain ⟨⟨here, counted⟩, same, bound⟩ := held
        obtain ⟨n, rfl⟩ := Option.isSome_iff_exists.mp here
        rw [Option.getD_some, Int.natCast_add] at same
        have below' : total + n ≤ i64Max := by omega
        refine Option.bind_eq_some_iff.mpr ⟨total + n,
          (addCount_eq_some positive).mpr ⟨n, rfl, rfl, below'⟩, ?_⟩
        exact (ih (by omega) below').mpr ⟨counted, by omega, bound⟩

theorem foldlM_addCount_perm {values values' : List (Option Nat)} (same : values.Perm values') :
    values.foldlM addCount 0 = values'.foldlM addCount 0 := by
  refine Option.ext fun sum => ?_
  have low : (0 : Int) ≤ i64Max := by decide
  rw [foldlM_addCount (Int.le_refl 0) low, foldlM_addCount (Int.le_refl 0) low,
    (same.map fun v => v.getD 0).sum_eq]
  exact and_congr_left fun _ => forall_congr' fun v => imp_congr_left same.mem_iff

theorem length_put (key : String) (v : Value) : ∀ fields : List (String × Value),
    (JsonValues.put key v fields).length =
      if (fields.lookup key).isSome = true then fields.length else fields.length + 1 := by
  intro fields
  induction fields with
  | nil => rfl
  | cons e fields ih =>
      rw [JsonValues.put, List.lookup_cons]
      by_cases here : e.1 = key
      · rw [if_pos here, beq_iff_eq.mpr here.symm]
        rfl
      · rw [if_neg here, beq_false_of_ne (Ne.symm here), List.length_cons, ih, List.length_cons]
        split <;> rfl

/-- What has been counted of the entries so far. -/
structure Counted (s : Counts) (fields : List (String × Value)) : Prop where
  unique : (fields.map Prod.fst).Nodup
  few : s.tooMany = false → fields.length ≤ MAX_RECORDS_ENTRIES ∧
    ∀ key, s.counts.get? key = (fields.lookup key).map fun v => asU64 (numberOf v)
  many : s.tooMany = true → MAX_RECORDS_ENTRIES < fields.length

section

variable {s : Counts} {fields : List (String × Value)}

theorem Counted.perm (counted : Counted s fields) (kept : s.tooMany = false) :
    s.counts.entries.Perm (fields.map fun e => (e.1, asU64 (numberOf e.2))) := by
  have keys : ((fields.map fun e => (e.1, asU64 (numberOf e.2))).map Prod.fst).Nodup := by
    rw [List.map_map]
    exact counted.unique
  refine (List.perm_ext_iff_of_nodup (List.Nodup.of_map Prod.fst s.counts.keys_nodup)
    (List.Nodup.of_map Prod.fst keys)).mpr fun e => ?_
  obtain ⟨key, count⟩ := e
  rw [← SortedMap.get?_eq_some, (counted.few kept).2 key, Option.map_eq_some_iff, List.mem_map]
  constructor
  · intro held
    obtain ⟨v, here, same⟩ := held
    obtain ⟨before, after, split, -⟩ := List.lookup_eq_some_iff.mp here
    exact ⟨(key, v), split ▸ List.mem_append_right _ List.mem_cons_self, by rw [same]⟩
  · intro held
    obtain ⟨e, member, same⟩ := held
    cases same
    exact ⟨e.2, JsonValues.lookup_of_mem counted.unique member, rfl⟩

theorem Counted.length (counted : Counted s fields) (kept : s.tooMany = false) :
    s.counts.entries.length = fields.length := by
  rw [(counted.perm kept).length_eq, List.length_map]

theorem Counted.push (counted : Counted s fields) (key : String) (v : Value) :
    Counted (s.push key (asU64 (numberOf v))) (JsonValues.put key v fields) := by
  have longer := length_put key v fields
  have grows : fields.length ≤ (JsonValues.put key v fields).length := by
    rw [longer]
    split <;> omega
  refine ⟨JsonValues.keys_put key v counted.unique, fun kept => ?_, fun dropped => ?_⟩
  · unfold Counts.push at kept ⊢
    split at kept
    · rename_i tooMany
      exact absurd (tooMany.symm.trans kept) (by decide)
    · rename_i under
      have kept' := Bool.eq_false_iff.mpr under
      obtain ⟨short, agree⟩ := counted.few kept'
      split at kept
      · cases kept
      · rename_i room
        rw [if_neg under, if_neg room]
        constructor
        · rw [counted.length kept', agree key, Option.isNone_map] at room
          rw [longer]
          split
          · exact short
          · rename_i fresh
            rw [not_and, Option.isNone_iff_eq_none] at room
            have below : ¬ MAX_RECORDS_ENTRIES ≤ fields.length :=
              fun full => fresh (Option.isSome_iff_ne_none.mpr (room full))
            omega
        · intro key'
          rw [JsonValues.lookup_put]
          by_cases same : key' = key
          · subst same
            rw [SortedMap.get?_insert_self, if_pos rfl, Option.map_some]
          · rw [SortedMap.get?_insert_ne same, if_neg same, agree key']
  · unfold Counts.push at dropped
    split at dropped
    · rename_i tooMany
      exact Nat.lt_of_lt_of_le (counted.many tooMany) grows
    · rename_i under
      have kept' := Bool.eq_false_iff.mpr under
      split at dropped
      · rename_i full
        obtain ⟨full, fresh⟩ := full
        rw [(counted.few kept').2 key, Option.isNone_map, Option.isNone_iff_eq_none] at fresh
        rw [counted.length kept'] at full
        rw [longer, fresh, if_neg (by decide)]
        omega
      · cases dropped

theorem Counted.total (counted : Counted s fields) : s.total = recordsOf (.object fields) := by
  unfold Counts.total recordsOf
  cases tooMany : s.tooMany with
  | true =>
      rw [if_pos rfl]
      exact (if_neg (Nat.not_le.mpr (counted.many tooMany))).symm
  | false =>
      rw [if_neg (by decide)]
      dsimp only
      rw [if_pos (counted.few tooMany).1]
      have values : s.counts.values.Perm (fields.map fun e => asU64 (numberOf e.2)) := by
        have perm := (counted.perm tooMany).map Prod.snd
        rwa [List.map_map] at perm
      rw [foldlM_addCount_perm values, List.foldlM_map]

end

section

variable (L : Lexer)

theorem alike_recordsSeed (depth : Nat) :
    Alike (fun n v => n = recordsOf v) (recordsSeed L depth) (L.value depth) := by
  unfold recordsSeed
  rw [value_eq]
  refine alike_any L (fun s => ?_) (fun d _ => ?_) fun d _ => ?_
  · cases s <;> rfl
  · exact (alike_skipElements L d).map _ _ fun _ items _ => rfl
  · have start : Counted ⟨SortedMap.empty, false⟩ [] :=
      ⟨List.nodup_nil, fun _ => ⟨Nat.zero_le _, fun _ => rfl⟩, fun tooMany => by cases tooMany⟩
    have entries : Alike Counted (L.entries (recordsEntry L d) ⟨SortedMap.empty, false⟩)
        (L.entries (fun fields key => (L.value d).map fun v => JsonValues.put key v fields) []) := by
      refine alike_entries L (fun s fields key counted => ?_) start
      refine (alike_rawNumber L d).map _ _ fun n v same => ?_
      subst same
      exact counted.push key v
    exact entries.map _ _ fun s fields counted => counted.total

theorem alike_topEntry (depth : Nat) (fields : List (String × Value)) (key : String) :
    Alike (fun facts fields => facts = factsOf (.object fields))
      (topEntry L depth (factsOf (.object fields)) key)
      ((L.value depth).map fun v => JsonValues.put key v fields) := by
  unfold topEntry
  split
  · rename_i named
    subst named
    refine (alike_fieldSeed L depth).map _ _ fun f v same => ?_
    simp [factsOf, get_put, same]
  split
  · rename_i named
    subst named
    refine (alike_fieldSeed L depth).map _ _ fun f v same => ?_
    simp [factsOf, get_put, same]
  split
  · rename_i named
    subst named
    refine (alike_fieldSeed L depth).map _ _ fun f v same => ?_
    simp [factsOf, get_put, same]
  split
  · rename_i named
    subst named
    refine (alike_coveredSeed L depth).map _ _ fun c v same => ?_
    simp [factsOf, get_put, same]
  split
  · rename_i named
    subst named
    refine (alike_recordsSeed L depth).map _ _ fun n v same => ?_
    simp [factsOf, get_put, same]
  · rename_i notId notStarted notFinished notCovered notRecords
    refine (alike_skip L depth).map _ _ fun _ v _ => ?_
    simp [factsOf, get_put, Ne.symm notId, Ne.symm notStarted, Ne.symm notFinished,
      Ne.symm notCovered, Ne.symm notRecords]

theorem alike_topSeed (depth : Nat) :
    Alike (fun facts v => facts = factsOf v) (topSeed L depth) (L.value depth) := by
  unfold topSeed
  rw [value_eq]
  refine alike_any L (fun s => ?_) (fun d _ => ?_) fun d _ => ?_
  · cases s <;> rfl
  · exact (alike_skipElements L d).map _ _ fun _ items _ => rfl
  · refine Alike.map_right ?_ _ fun _ _ same => same
    refine alike_entries L (fun facts fields key same => ?_) rfl
    subst same
    exact alike_topEntry L d fields key

theorem fold_eq (bytes : List UInt8) : fold L bytes = (fromSlice L bytes).map factsOf := by
  have alike := alike_document L (alike_topSeed L RECURSION_LIMIT) bytes
  unfold fold fromSlice
  revert alike
  generalize L.document (topSeed L RECURSION_LIMIT) bytes = facts
  generalize L.document (L.value RECURSION_LIMIT) bytes = receipt
  intro alike
  cases alike with
  | none => rfl
  | some same => exact congrArg some same

end

def recordKeys (receipt : Value) : Nat :=
  match get "records" receipt with
  | some (.object records) => records.length
  | _ => 0

theorem capture_factsOf (parse : String → Option Instant) (receipt : Value) :
    (factsOf receipt).capture parse = captureFromReceipt parse receipt := by
  have text : ∀ v : Option Value, (fieldOf v).asStr = v.bind asStr := by
    intro v
    cases v with
    | none => rfl
    | some v => cases v <;> rfl
  unfold ReceiptFacts.capture captureFromReceipt factsOf
  simp only [text, Option.bind_assoc]

theorem join_map {α β : Type} (f : α → Option β) (x : Option α) : (x.map f).join = x.bind f := by
  cases x <;> rfl

theorem windowOf_eq (covered : Value) : windowOf covered =
    ((get "from_ms" covered).bind fun v => asI64 (numberOf v)).bind fun fromMs =>
      ((get "to_ms" covered).bind fun v => asI64 (numberOf v)).map fun toMs => (fromMs, toMs) := by
  unfold windowOf window
  dsimp only
  rw [join_map, join_map]
  cases (get "from_ms" covered).bind fun v => asI64 (numberOf v) with
  | none => rfl
  | some fromMs => cases (get "to_ms" covered).bind fun v => asI64 (numberOf v) <;> rfl

theorem covered_factsOf (receipt : Value) :
    (factsOf receipt).covered.filter (fun w => decide (w.1 < w.2)) = coveredFromReceipt receipt := by
  unfold factsOf coveredFromReceipt
  simp only [Option.bind_eq_bind]
  cases get "covered" receipt with
  | none => rfl
  | some covered =>
      rw [Option.bind_some, Option.bind_some, windowOf_eq, ← Option.bind_assoc]
      cases (get "from_ms" covered).bind fun v => asI64 (numberOf v) with
      | none => rfl
      | some fromMs =>
          rw [Option.bind_some, Option.bind_some, ← Option.bind_assoc]
          cases (get "to_ms" covered).bind fun v => asI64 (numberOf v) with
          | none => rfl
          | some toMs =>
              rw [Option.map_some, Option.filter_some, Option.bind_some]
              exact if_congr decide_eq_true_iff rfl rfl

theorem records_factsOf (receipt : Value) : (factsOf receipt).records =
    if recordKeys receipt ≤ MAX_RECORDS_ENTRIES then recordsFromReceipt receipt else none := by
  unfold factsOf recordKeys recordsFromReceipt
  dsimp only
  cases get "records" receipt with
  | none => rfl
  | some records =>
      cases records with
      | object fields => rfl
      | null => rfl
      | bool => rfl
      | number => rfl
      | string => rfl
      | array => rfl

theorem sum_of_recordsFromReceipt {receipt : Value} {n : Int}
    (summed : recordsFromReceipt receipt = some n) : ∃ records,
      get "records" receipt = some (.object records) ∧
        (∀ e ∈ records, (asU64 (numberOf e.2)).isSome = true) ∧
        n = ((records.map fun e => (asU64 (numberOf e.2)).getD 0).sum : Nat) ∧ n ≤ i64Max := by
  unfold recordsFromReceipt at summed
  split at summed
  · rename_i records here
    have counts : (records.map fun e => asU64 (numberOf e.2)).foldlM addCount 0 = some n := by
      rw [List.foldlM_map, summed]
    obtain ⟨counted, same, bound⟩ :=
      (foldlM_addCount (Int.le_refl 0) (by decide)).mp counts
    rw [List.map_map, Int.zero_add] at same
    exact ⟨records, here, fun e member => counted _ (List.mem_map_of_mem member), same, bound⟩
  · cases summed

/-- The streaming reader answers what the tree walk answers: it fails exactly where the bytes are no
document; of a document it reads the fields, the window, the capture and the sum that the tree has,
except that it gives no sum for more topics than it holds; and a sum is exact. -/
theorem fold_answers_the_tree_walk (L : Lexer) (parse : String → Option Instant)
    (bytes : List UInt8) :
    (fold L bytes = none ↔ fromSlice L bytes = none) ∧
    ∀ facts receipt, fold L bytes = some facts → fromSlice L bytes = some receipt →
      facts.backupId = fieldOf (get "backup_id" receipt) ∧
      facts.startedAt = fieldOf (get "started_at" receipt) ∧
      facts.finishedAt = fieldOf (get "finished_at" receipt) ∧
      (facts.covered = do
        let covered ← get "covered" receipt
        let fromMs ← (get "from_ms" covered).bind fun v => asI64 (numberOf v)
        let toMs ← (get "to_ms" covered).bind fun v => asI64 (numberOf v)
        some (fromMs, toMs)) ∧
      facts.capture parse = captureFromReceipt parse receipt ∧
      observeArchive L parse (some bytes) = ⟨coveredFromReceipt receipt,
        if recordKeys receipt ≤ MAX_RECORDS_ENTRIES then recordsFromReceipt receipt else none,
        captureFromReceipt parse receipt⟩ ∧
      (recordKeys receipt ≤ MAX_RECORDS_ENTRIES → facts.records = recordsFromReceipt receipt) ∧
      (MAX_RECORDS_ENTRIES < recordKeys receipt → facts.records = none) ∧
      ∀ n, facts.records = some n → ∃ records, get "records" receipt = some (.object records) ∧
        (∀ e ∈ records, (asU64 (numberOf e.2)).isSome = true) ∧
        n = ((records.map fun e => (asU64 (numberOf e.2)).getD 0).sum : Nat) ∧ n ≤ i64Max := by
  have eq := fold_eq L bytes
  refine ⟨by rw [eq, Option.map_eq_none_iff], fun facts receipt folded parsed => ?_⟩
  rw [parsed, Option.map_some, folded] at eq
  cases eq
  have records := records_factsOf receipt
  refine ⟨rfl, rfl, rfl, ?_, capture_factsOf parse receipt, ?_, fun few => ?_, fun many => ?_,
    fun n summed => ?_⟩
  · unfold factsOf
    refine congrArg (Option.bind _) (funext fun covered => ?_)
    rw [windowOf_eq]
    simp only [Option.bind_eq_bind, Option.map_eq_bind, Function.comp_def]
  · unfold observeArchive
    simp only [Option.bind_some, folded, covered_factsOf, capture_factsOf, records]
  · rw [records, if_pos few]
  · rw [records, if_neg (Nat.not_le.mpr many)]
  · rw [records] at summed
    split at summed
    · exact sum_of_recordsFromReceipt summed
    · cases summed

end Logweir.Receipt.Facts
