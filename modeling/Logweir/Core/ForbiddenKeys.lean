import Logweir.Library.JsonValues
import Logweir.Library.Ordered

/-!
# The forbidden-key scan

`logweir_core::guard::scan_forbidden_keys`.  The walk enters the values of mappings and the items of
sequences.  A key under a tag, or inside a key that is not a string, is one it does not see.
-/

set_option autoImplicit false

namespace Logweir.Guard

def FORBIDDEN_KEYS : List String := ["purge_topics", "dry_run", "header_preflight_external"]

inductive Value where
  | null
  | bool (b : Bool)
  | number (n : JsonValues.Number)
  | string (s : String)
  | sequence (items : List Value)
  | mapping (entries : List (Value × Value))
  | tagged (tag : String) (value : Value)

def Value.asStr : Value → Option String
  | .string s => some s
  | .tagged _ value => value.asStr
  | _ => none

def nameOf (key : Value) : String := key.asStr.getD ""

def pathTo (path name : String) : String := if path.isEmpty then name else path ++ "." ++ name

mutual

def walk (forbidden : List String) (path : String) : Value → List String
  | .mapping entries => walkEntries forbidden path entries
  | .sequence items => walkItems forbidden path 0 items
  | .null => []
  | .bool _ => []
  | .number _ => []
  | .string _ => []
  | .tagged _ _ => []

def walkEntries (forbidden : List String) (path : String) : List (Value × Value) → List String
  | [] => []
  | (key, value) :: entries =>
      (if nameOf key ∈ forbidden then [pathTo path (nameOf key)] else []) ++
        walk forbidden (pathTo path (nameOf key)) value ++ walkEntries forbidden path entries

def walkItems (forbidden : List String) (path : String) (i : Nat) : List Value → List String
  | [] => []
  | item :: items =>
      walk forbidden (path ++ "[" ++ toString i ++ "]") item ++
        walkItems forbidden path (i + 1) items

end

def scanForbiddenKeys (fromStr : String → Except String Value) (forbidden : List String)
    (docText : String) : Except String (List String) :=
  match fromStr docText with
  | .error e => .error
      ("the forbidden-key scan could not parse this document, so it did not scan it: " ++ e ++
        ". A guard that reports `no forbidden keys` over text it never read is worse than no guard.")
  | .ok v => .ok (Ordered.sortDedup (walk forbidden "" v))

inductive KeyAt (key : Value) : Value → Prop
  | key {value : Value} {entries : List (Value × Value)} (here : (key, value) ∈ entries) :
      KeyAt key (.mapping entries)
  | value {k value : Value} {entries : List (Value × Value)} (here : (k, value) ∈ entries)
      (inside : KeyAt key value) : KeyAt key (.mapping entries)
  | complex {k value : Value} {entries : List (Value × Value)} (here : (k, value) ∈ entries)
      (inside : KeyAt key k) : KeyAt key (.mapping entries)
  | item {item : Value} {items : List Value} (here : item ∈ items) (inside : KeyAt key item) :
      KeyAt key (.sequence items)
  | tagged {tag : String} {value : Value} (inside : KeyAt key value) : KeyAt key (.tagged tag value)

inductive Entered (key : Value) : Value → Prop
  | key {value : Value} {entries : List (Value × Value)} (here : (key, value) ∈ entries) :
      Entered key (.mapping entries)
  | value {k value : Value} {entries : List (Value × Value)} (here : (k, value) ∈ entries)
      (inside : Entered key value) : Entered key (.mapping entries)
  | item {item : Value} {items : List Value} (here : item ∈ items) (inside : Entered key item) :
      Entered key (.sequence items)

inductive Hidden (key : Value) : Value → Prop
  | value {k value : Value} {entries : List (Value × Value)} (here : (k, value) ∈ entries)
      (inside : Hidden key value) : Hidden key (.mapping entries)
  | complex {k value : Value} {entries : List (Value × Value)} (here : (k, value) ∈ entries)
      (inside : KeyAt key k) : Hidden key (.mapping entries)
  | item {item : Value} {items : List Value} (here : item ∈ items) (inside : Hidden key item) :
      Hidden key (.sequence items)
  | tagged {tag : String} {value : Value} (inside : KeyAt key value) :
      Hidden key (.tagged tag value)

section Places

variable {key v : Value}

theorem Entered.keyAt (entered : Entered key v) : KeyAt key v := by
  induction entered with
  | key here => exact .key here
  | value here _ ih => exact .value here ih
  | item here _ ih => exact .item here ih

theorem Hidden.keyAt (hidden : Hidden key v) : KeyAt key v := by
  induction hidden with
  | value here _ ih => exact .value here ih
  | complex here inside => exact .complex here inside
  | item here _ ih => exact .item here ih
  | tagged inside => exact .tagged inside

theorem keyAt_iff : KeyAt key v ↔ Entered key v ∨ Hidden key v := by
  refine ⟨fun found => ?_, fun either => either.elim Entered.keyAt Hidden.keyAt⟩
  induction found with
  | key here => exact .inl (.key here)
  | value here _ ih => exact ih.imp (.value here) (.value here)
  | complex here inside _ => exact .inr (.complex here inside)
  | item here _ ih => exact ih.imp (.item here) (.item here)
  | tagged inside _ => exact .inr (.tagged inside)

end Places

section Walk

variable {forbidden : List String}

mutual

theorem walk_eq_nil : ∀ (v : Value) (path : String),
    walk forbidden path v = [] ↔ ∀ key, Entered key v → nameOf key ∉ forbidden
  | .mapping entries, path => by
      rw [walk, walkEntries_eq_nil entries path]
      constructor
      · intro none_ key entered
        cases entered with
        | key here => exact (none_ _ here).1
        | value here inside => exact (none_ _ here).2 key inside
      · intro none_ e here
        exact ⟨none_ e.1 (.key here), fun key inside => none_ key (.value here inside)⟩
  | .sequence items, path => by
      rw [walk, walkItems_eq_nil items path 0]
      constructor
      · intro none_ key entered
        cases entered with
        | item here inside => exact none_ _ here key inside
      · exact fun none_ item here key inside => none_ key (.item here inside)
  | .null, _ => ⟨fun _ _ entered => (by cases entered), fun _ => by simp [walk]⟩
  | .bool _, _ => ⟨fun _ _ entered => (by cases entered), fun _ => by simp [walk]⟩
  | .number _, _ => ⟨fun _ _ entered => (by cases entered), fun _ => by simp [walk]⟩
  | .string _, _ => ⟨fun _ _ entered => (by cases entered), fun _ => by simp [walk]⟩
  | .tagged _ _, _ => ⟨fun _ _ entered => (by cases entered), fun _ => by simp [walk]⟩

theorem walkEntries_eq_nil : ∀ (entries : List (Value × Value)) (path : String),
    walkEntries forbidden path entries = [] ↔
      ∀ e ∈ entries, nameOf e.1 ∉ forbidden ∧ ∀ key, Entered key e.2 → nameOf key ∉ forbidden
  | [], _ => ⟨fun _ e here => absurd here List.not_mem_nil, fun _ => by simp [walkEntries]⟩
  | (k, value) :: entries, path => by
      rw [walkEntries, List.append_eq_nil_iff, List.append_eq_nil_iff, walk_eq_nil value,
        walkEntries_eq_nil entries path, List.forall_mem_cons]
      refine and_congr_left fun _ => and_congr_left fun _ => ?_
      split
      · rename_i bad
        exact ⟨fun nil => absurd nil (List.cons_ne_nil _ _), fun good => absurd bad good⟩
      · rename_i good
        exact ⟨fun _ => good, fun _ => rfl⟩

theorem walkItems_eq_nil : ∀ (items : List Value) (path : String) (i : Nat),
    walkItems forbidden path i items = [] ↔
      ∀ item ∈ items, ∀ key, Entered key item → nameOf key ∉ forbidden
  | [], _, _ => ⟨fun _ item here => absurd here List.not_mem_nil, fun _ => by simp [walkItems]⟩
  | item :: items, path, i => by
      rw [walkItems, List.append_eq_nil_iff, walk_eq_nil item, walkItems_eq_nil items path (i + 1),
        List.forall_mem_cons]

end

end Walk

/-- The text parses, and no mapping of it has a key that is a forbidden string. -/
def Clean (fromStr : String → Except String Value) (forbidden : List String) (text : String) :
    Prop :=
  ∃ v, fromStr text = .ok v ∧
    ∀ key name, KeyAt key v → key.asStr = some name → name ∉ forbidden

/-- A forbidden string key stands where the walk goes. -/
def Seen (forbidden : List String) (v : Value) : Prop :=
  ∃ key name, Entered key v ∧ key.asStr = some name ∧ name ∈ forbidden

/-- A forbidden string key stands where the walk does not go. -/
def Missed (forbidden : List String) (v : Value) : Prop :=
  ∃ key name, Hidden key v ∧ key.asStr = some name ∧ name ∈ forbidden

/-- A key that is no string is taken for the empty name, and that name is forbidden. -/
def Mistaken (forbidden : List String) (v : Value) : Prop :=
  "" ∈ forbidden ∧ ∃ key, Entered key v ∧ key.asStr = none

theorem scan_eq_nil {fromStr : String → Except String Value} {forbidden : List String}
    {text : String} : scanForbiddenKeys fromStr forbidden text = .ok [] ↔
      ∃ v, fromStr text = .ok v ∧ ∀ key, Entered key v → nameOf key ∉ forbidden := by
  unfold scanForbiddenKeys
  cases read : fromStr text with
  | error e =>
      constructor
      · intro same
        cases same
      · rintro ⟨v, same, _⟩
        cases same
  | ok v =>
      have empty : Ordered.sortDedup (walk forbidden "" v) = [] ↔ walk forbidden "" v = [] := by
        rw [List.eq_nil_iff_forall_not_mem, List.eq_nil_iff_forall_not_mem]
        exact forall_congr' fun path => not_congr Ordered.mem_sortDedup
      constructor
      · intro same
        exact ⟨v, rfl, (walk_eq_nil v "").mp (empty.mp (Except.ok.inj same))⟩
      · rintro ⟨v', same, none_⟩
        cases same
        exact congrArg Except.ok (empty.mpr ((walk_eq_nil v "").mpr none_))

theorem not_reported_iff {forbidden : List String} {v : Value} :
    (∀ key, Entered key v → nameOf key ∉ forbidden) ↔ ¬ Seen forbidden v ∧ ¬ Mistaken forbidden v := by
  constructor
  · intro none_
    constructor
    · rintro ⟨key, name, entered, named, bad⟩
      have same : nameOf key = name := by rw [nameOf, named, Option.getD_some]
      exact none_ key entered (same ▸ bad)
    · rintro ⟨bad, key, entered, unnamed⟩
      have same : nameOf key = "" := by rw [nameOf, unnamed, Option.getD_none]
      exact none_ key entered (same ▸ bad)
  · rintro ⟨unseen, right⟩ key entered bad
    cases named : key.asStr with
    | some name =>
        rw [nameOf, named, Option.getD_some] at bad
        exact unseen ⟨key, name, entered, named, bad⟩
    | none =>
        rw [nameOf, named, Option.getD_none] at bad
        exact right ⟨bad, key, entered, named⟩

theorem clean_value_iff {forbidden : List String} {v : Value} :
    (∀ key name, KeyAt key v → key.asStr = some name → name ∉ forbidden) ↔
      ¬ Seen forbidden v ∧ ¬ Missed forbidden v := by
  constructor
  · intro clean
    constructor
    · rintro ⟨key, name, entered, named, bad⟩
      exact clean key name entered.keyAt named bad
    · rintro ⟨key, name, hidden, named, bad⟩
      exact clean key name hidden.keyAt named bad
  · rintro ⟨unseen, unmissed⟩ key name found named bad
    rcases keyAt_iff.mp found with entered | hidden
    · exact unseen ⟨key, name, entered, named, bad⟩
    · exact unmissed ⟨key, name, hidden, named, bad⟩

/-- The scan is empty exactly for the clean texts, if and only if a parsed document has a forbidden
key where the walk goes, or has one where it does not go just when a key is mistaken for one. -/
theorem scanForbiddenKeys_iff (fromStr : String → Except String Value) (forbidden : List String)
    (text : String) :
    (scanForbiddenKeys fromStr forbidden text = .ok [] ↔ Clean fromStr forbidden text) ↔
      ∀ v, fromStr text = .ok v →
        Seen forbidden v ∨ (Missed forbidden v ↔ Mistaken forbidden v) := by
  rw [scan_eq_nil]
  unfold Clean
  cases read : fromStr text with
  | error e =>
      refine ⟨fun _ v same => (by cases same), fun _ => ⟨?_, ?_⟩⟩
      · rintro ⟨v, same, _⟩
        cases same
      · rintro ⟨v, same, _⟩
        cases same
  | ok v =>
      have only {P : Value → Prop} : (∃ w, Except.ok v = (.ok w : Except String Value) ∧ P w) ↔
          P v := ⟨fun ⟨w, same, holds⟩ => (Except.ok.inj same) ▸ holds, fun holds => ⟨v, rfl, holds⟩⟩
      have each {P : Value → Prop} : (∀ w, Except.ok v = (.ok w : Except String Value) → P w) ↔
          P v := ⟨fun all => all v rfl, fun holds w same => (Except.ok.inj same) ▸ holds⟩
      rw [only, only, each, not_reported_iff, clean_value_iff]
      by_cases seen : Seen forbidden v
      · exact ⟨fun _ => .inl seen, fun _ => ⟨fun h => absurd seen h.1, fun h => absurd seen h.1⟩⟩
      · rw [and_iff_right seen, and_iff_right seen, not_iff_not, or_iff_right seen]
        exact iff_comm

/-- Walking from the empty path. -/
example : walk FORBIDDEN_KEYS "" (.mapping [(.string "a", .sequence [.null,
    .mapping [(.string "dry_run", .bool false)]])]) = ["a[1].dry_run"] := by
  decide

def tagged (_text : String) : Except String Value :=
  .ok (.mapping [(.string "restore",
    .tagged "!block" (.mapping [(.string "purge_topics", .bool true)]))])

/-- `restore: !block` with `purge_topics: true` under it is found clean. -/
theorem scan_passes_tagged :
    ¬ ∀ (fromStr : String → Except String Value) (forbidden : List String) (text : String),
      scanForbiddenKeys fromStr forbidden text = .ok [] ↔ Clean fromStr forbidden text := by
  intro claim
  have none_ : ∀ key, Entered key (.mapping [(.string "restore",
      .tagged "!block" (.mapping [(.string "purge_topics", .bool true)]))]) →
      nameOf key ∉ FORBIDDEN_KEYS :=
    (walk_eq_nil _ "").mp (by simp [walk, walkEntries, nameOf, Value.asStr, FORBIDDEN_KEYS])
  obtain ⟨v, same, clean⟩ := (claim tagged FORBIDDEN_KEYS
    "restore: !block {purge_topics: true}").mp (scan_eq_nil.mpr ⟨_, rfl, none_⟩)
  cases same
  exact clean (.string "purge_topics") "purge_topics"
    (.value (List.mem_singleton.mpr rfl) (.tagged (.key (List.mem_singleton.mpr rfl)))) rfl
    (List.mem_cons_self)

end Logweir.Guard
