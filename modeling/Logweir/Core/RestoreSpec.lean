import Logweir.Core.TimeBasis
import Logweir.Library.Fields
import Logweir.Library.JsonValues

/-!
# The restore block of a plan

`logweir_core::spec::RestoreSpecBlock`.  `point_in_time` is one instant, an interval, or an interval
with an open start; the form carries the window's start and whether partitions are narrowed.  chrono
and serde_yaml are parameters, and a document is the value its text holds.
-/

set_option autoImplicit false

namespace Logweir.RestoreSpec

open Std (ExtTreeMap)
open Logweir.JsonValues (Value ValidFields)
open Logweir.TimeSelection (TimeBasis)

/-- chrono: the parser of `DateTime<FixedOffset>` converted to UTC, `to_rfc3339_opts`, and the text
of its own `Serialize`. -/
structure Chrono where
  Instant : Type
  parse : String → Except String Instant
  rfc3339 : Instant → String
  iso8601 : Instant → String

structure Yaml where
  Text : Type
  fromStr : Text → Except String Value
  toString : Value → Except String Text

/-- What chrono documents: an instant's texts parse as it and have no blanks around them; no text with
a slash is an instant; and no instant's text is two dots. -/
structure Chrono.Documented (C : Chrono) : Prop where
  parse_rfc3339 : ∀ t, C.parse (C.rfc3339 t) = .ok t
  parse_iso8601 : ∀ t, C.parse (C.iso8601 t) = .ok t
  trim_rfc3339 : ∀ t, Text.trim (C.rfc3339 t) = C.rfc3339 t
  trim_iso8601 : ∀ t, Text.trim (C.iso8601 t) = C.iso8601 t
  slash : ∀ text t, C.parse text = .ok t → '/' ∉ text.toList
  dots : ∀ t, C.rfc3339 t ≠ ".."

/-- What serde_yaml documents: a value is written, and its text read as it. -/
def Yaml.Documented (Y : Yaml) : Prop :=
  ∀ v : Value, v.Valid → ∃ text, Y.toString v = .ok text ∧ Y.fromStr text = .ok v

inductive Refusal where
  | yaml (e : String)
  /-- A member of another type than its own. -/
  | shape
  | custom (message : String)
deriving DecidableEq, Repr

def OPEN_INTERVAL_START : String := ".."

structure RestoreSpecBlock (I : Type) where
  pointInTime : Option I
  timeBasis : Option TimeBasis
  windowStart : Option I
  partitions : ExtTreeMap String (List Int32)
  allowTransactionMarkers : Bool
  rateLimitBytesPerSec : Option UInt64

structure RestoreSpecBlockWire where
  pointInTime : Option String
  timeBasis : Option TimeBasis
  windowStart : Option Value
  partitions : ExtTreeMap String (List Int32)
  allowTransactionMarkers : Bool
  rateLimitBytesPerSec : Option UInt64

inductive PointInTimeForm where
  | instant
  | interval
  | openStart
deriving DecidableEq, Repr

def optional {α : Type} (read : Value → Option α) : Option Value → Option (Option α)
  | none => some none
  | some .null => some none
  | some v => (read v).map some

def asString : Value → Option String
  | .string s => some s
  | _ => none

def asBool : Value → Option Bool
  | .bool b => some b
  | _ => none

def asI32 : Value → Option Int32
  | .number (.integer n) =>
      if -2147483648 ≤ n ∧ n ≤ 2147483647 then some (Int32.ofInt n) else none
  | _ => none

def asU64 : Value → Option UInt64
  | .number (.integer n) =>
      if 0 ≤ n ∧ n ≤ 18446744073709551615 then some (UInt64.ofNat n.toNat) else none
  | _ => none

def asTimeBasis : Value → Option TimeBasis
  | .string s => if s = TimeBasis.producerTime.asStr then some .producerTime else none
  | _ => none

def asPartitionList : Value → Option (List Int32)
  | .array items => items.mapM asI32
  | _ => none

def asPartitions : Value → Option (ExtTreeMap String (List Int32))
  | .object fields =>
      (fields.mapM fun e => (asPartitionList e.2).map fun list => (e.1, list)).map TreeMaps.ofEntries
  | _ => none

def defaulted {α : Type} (default : α) (read : Value → Option α) : Option Value → Option α
  | none => some default
  | some v => read v

def RestoreSpecBlockWire.deserialize : Value → Option RestoreSpecBlockWire
  | .object fields => do
      let pointInTime ← optional asString (fields.lookup "point_in_time")
      let timeBasis ← optional asTimeBasis (fields.lookup "time_basis")
      let windowStart ← optional some (fields.lookup "window_start")
      let partitions ← defaulted ∅ asPartitions (fields.lookup "partitions")
      let allowTransactionMarkers ←
        defaulted false asBool (fields.lookup "allow_transaction_markers")
      let rateLimitBytesPerSec ← optional asU64 (fields.lookup "rate_limit_bytes_per_sec")
      return { pointInTime, timeBasis, windowStart, partitions, allowTransactionMarkers,
               rateLimitBytesPerSec }
  | _ => none

section

variable (C : Chrono)

def parseInstant (text : String) : Except String C.Instant :=
  match C.parse (Text.trim text) with
  | .ok t => .ok t
  | .error e => .error ("`" ++ text ++ "` is not an RFC 3339 instant: " ++ e)

def parsePointInTimeForm (text : String) :
    Except String (Option C.Instant × C.Instant × PointInTimeForm) :=
  match Text.splitOnce '/' text with
  | none => (parseInstant C text).map fun t => (none, t, .instant)
  | some (start, end_) =>
      if Text.trim start = OPEN_INTERVAL_START then
        (parseInstant C end_).map fun t => (none, t, .openStart)
      else do
        let start ← parseInstant C start
        let end_ ← parseInstant C end_
        return (some start, end_, .interval)

def windowStartRefused : String :=
  "restore.window_start is not a plan key: a window with a stated start is written " ++
    "restore.point_in_time: \"<start>/<end>\", which a runner that predates it refuses " ++
    "instead of restoring the whole archive"

def partitionsRefused : String :=
  "restore.partitions is written only beside the interval form of " ++
    "restore.point_in_time, \"<start>/<end>\" or \"../<end>\" (from the archive's " ++
    "floor), which a runner that predates partition subsets refuses instead of " ++
    "restoring every partition"

def openStartRefused : String :=
  "restore.point_in_time: \"../<end>\" is the form of a plan that states " ++
    "restore.partitions; a plan without a partition subset writes its point in " ++
    "time as one instant"

def rateLimitRefused : String :=
  "restore.rate_limit_bytes_per_sec must be at least 1; leave it out for no limit"

def statedPoint (pointInTime : Option String) :
    Except String (Option C.Instant × Option C.Instant × Option PointInTimeForm) :=
  match pointInTime with
  | none => .ok (none, none, none)
  | some text =>
      match parsePointInTimeForm C text with
      | .ok (start, end_, form) => .ok (start, some end_, some form)
      | .error e => .error ("restore.point_in_time: " ++ e)

def formRefusal (everyPartition : Bool) (form : Option PointInTimeForm) : Option String :=
  match everyPartition, form with
  | false, none => some partitionsRefused
  | false, some .instant => some partitionsRefused
  | true, some .openStart => some openStartRefused
  | _, _ => none

def RestoreSpecBlock.ofWire (wire : RestoreSpecBlockWire) :
    Except String (RestoreSpecBlock C.Instant) :=
  if wire.windowStart.isSome then .error windowStartRefused
  else
    match statedPoint C wire.pointInTime with
    | .error e => .error e
    | .ok (windowStart, pointInTime, form) =>
        match formRefusal wire.partitions.isEmpty form with
        | some message => .error message
        | none =>
            if wire.rateLimitBytesPerSec = some 0 then .error rateLimitRefused
            else .ok
              { pointInTime
                timeBasis := wire.timeBasis
                windowStart
                partitions := wire.partitions
                allowTransactionMarkers := wire.allowTransactionMarkers
                rateLimitBytesPerSec := wire.rateLimitBytesPerSec }

def RestoreSpecBlock.deserialize (Y : Yaml) (text : Y.Text) :
    Except Refusal (RestoreSpecBlock C.Instant) :=
  match Y.fromStr text with
  | .error e => .error (.yaml e)
  | .ok v =>
      match RestoreSpecBlockWire.deserialize v with
      | none => .error .shape
      | some wire => (RestoreSpecBlock.ofWire C wire).mapError .custom

def partitionsAlone : String :=
  "restore.partitions without restore.point_in_time: a partition subset is " ++
    "written beside the interval form, which states the window's end"

def startAlone : String :=
  "restore.window_start without restore.point_in_time: the interval form " ++
    "states both ends"

def RestoreSpecBlock.pointOut (b : RestoreSpecBlock C.Instant) : Except String (Option String) :=
  match b.windowStart, b.pointInTime with
  | none, some end_ =>
      if b.partitions.isEmpty then .ok (some (C.iso8601 end_))
      else .ok (some (OPEN_INTERVAL_START ++ "/" ++ C.rfc3339 end_))
  | none, none => if b.partitions.isEmpty then .ok none else .error partitionsAlone
  | some start, some end_ => .ok (some (C.rfc3339 start ++ "/" ++ C.rfc3339 end_))
  | some _, none => .error startAlone

end

def partitionsOut (partitions : ExtTreeMap String (List Int32)) : Value :=
  .object (partitions.toList.map fun e =>
    (e.1, .array (e.2.map fun p => .number (.integer p.toInt))))

def member (key : String) : Option Value → List (String × Value)
  | some v => [(key, v)]
  | none => []

def membersOut {I : Type} (b : RestoreSpecBlock I) (point : Option String) : List (String × Value) :=
  member "point_in_time" (some ((point.map Value.string).getD .null)) ++
  member "time_basis" (b.timeBasis.map fun basis => .string basis.asStr) ++
  member "partitions" (if b.partitions.isEmpty then none else some (partitionsOut b.partitions)) ++
  member "allow_transaction_markers" (if b.allowTransactionMarkers then some (.bool true) else none) ++
  member "rate_limit_bytes_per_sec"
    (b.rateLimitBytesPerSec.map fun rate => .number (.integer rate.toNat))

def RestoreSpecBlock.serialize (C : Chrono) (Y : Yaml) (b : RestoreSpecBlock C.Instant) :
    Except Refusal Y.Text :=
  match b.pointOut C with
  | .error e => .error (.custom e)
  | .ok point => (Y.toString (.object (membersOut b point))).mapError .yaml

def olderPointInTime (C : Chrono) (Y : Yaml) (text : Y.Text) : Except Refusal (Option C.Instant) :=
  match Y.fromStr text with
  | .error e => .error (.yaml e)
  | .ok (.object fields) =>
      match optional asString (fields.lookup "point_in_time") with
      | none => .error .shape
      | some none => .ok none
      | some (some point) => ((C.parse point).map some).mapError .custom
  | .ok _ => .error .shape

section Members

theorem asI32_toInt (p : Int32) : asI32 (.number (.integer p.toInt)) = some p := by
  have low := p.le_toInt
  have high := p.toInt_lt
  rw [asI32, if_pos ⟨by omega, by omega⟩, Int32.ofInt_toInt]

theorem asU64_toNat (n : UInt64) : asU64 (.number (.integer n.toNat)) = some n := by
  have high := n.toNat_lt
  rw [asU64, if_pos ⟨by omega, by omega⟩, Int.toNat_natCast, UInt64.ofNat_toNat]

theorem mapM_some {α β : Type} {f : α → Option β} {g : α → β} {l : List α}
    (each : ∀ a ∈ l, f a = some (g a)) : l.mapM f = some (l.map g) := by
  induction l with
  | nil => rfl
  | cons a l ih =>
      rw [List.mapM_cons, each a List.mem_cons_self, ih fun b later => each b (List.mem_cons_of_mem a later)]
      rfl

theorem ofEntries_toList (partitions : ExtTreeMap String (List Int32)) :
    TreeMaps.ofEntries partitions.toList = partitions := by
  apply ExtTreeMap.ext_getElem?
  intro topic
  refine Option.ext fun list => ?_
  rw [TreeMaps.getElem?_ofEntries, ExtTreeMap.mem_toList_iff_getElem?_eq_some]
  intro e here e' there same
  have held := ExtTreeMap.mem_toList_iff_getElem?_eq_some.mp here
  have held' := ExtTreeMap.mem_toList_iff_getElem?_eq_some.mp there
  rw [same, held'] at held
  exact (Option.some.inj held).symm

theorem asPartitions_partitionsOut (partitions : ExtTreeMap String (List Int32)) :
    asPartitions (partitionsOut partitions) = some partitions := by
  have lists (l : List Int32) :
      asPartitionList (.array (l.map fun p => .number (.integer p.toInt))) = some l := by
    have each : l.mapM (asI32 ∘ fun p : Int32 => .number (.integer p.toInt)) = some (l.map id) :=
      mapM_some fun p _ => asI32_toInt p
    rw [asPartitionList, List.mapM_map, each, List.map_id]
  have entries : partitions.toList.mapM ((fun e : String × Value =>
      (asPartitionList e.2).map fun list => (e.1, list)) ∘ fun e : String × List Int32 =>
        (e.1, Value.array (e.2.map fun p => .number (.integer p.toInt)))) =
      some (partitions.toList.map id) :=
    mapM_some fun e _ => by rw [Function.comp_apply, lists, Option.map_some, id]
  rw [partitionsOut, asPartitions, List.mapM_map, entries, List.map_id, Option.map_some,
    ofEntries_toList]

theorem lookup_member (key k : String) (o : Option Value) :
    (member key o).lookup k = if k = key then o else none := by
  cases o with
  | none => exact (ite_self none).symm
  | some v =>
      rw [member, List.lookup_cons, List.lookup_nil]
      by_cases same : k = key
      · rw [if_pos same, beq_iff_eq.mpr same]
      · rw [if_neg same, beq_false_of_ne same]

theorem deserialize_membersOut {I : Type} (b : RestoreSpecBlock I) (point : Option String) :
    RestoreSpecBlockWire.deserialize (.object (membersOut b point)) = some
      { pointInTime := point
        timeBasis := b.timeBasis
        windowStart := none
        partitions := b.partitions
        allowTransactionMarkers := b.allowTransactionMarkers
        rateLimitBytesPerSec := b.rateLimitBytesPerSec } := by
  have point_ : optional asString ((membersOut b point).lookup "point_in_time") = some point := by
    simp only [membersOut, List.lookup_append, lookup_member]
    cases point <;> rfl
  have basis : optional asTimeBasis ((membersOut b point).lookup "time_basis") =
      some b.timeBasis := by
    simp only [membersOut, List.lookup_append, lookup_member]
    cases b.timeBasis with
    | none => rfl
    | some basis => cases basis; rfl
  have start : optional some ((membersOut b point).lookup "window_start") = some none := by
    simp only [membersOut, List.lookup_append, lookup_member]
    rfl
  have parts : defaulted ∅ asPartitions ((membersOut b point).lookup "partitions") =
      some b.partitions := by
    have found : (membersOut b point).lookup "partitions" =
        if b.partitions.isEmpty then none else some (partitionsOut b.partitions) := by
      simp [membersOut, List.lookup_append, lookup_member]
    rw [found]
    by_cases every : b.partitions.isEmpty = true
    · rw [if_pos every, ExtTreeMap.isEmpty_iff.mp every]
      rfl
    · rw [if_neg every]
      exact asPartitions_partitionsOut b.partitions
  have allow : defaulted false asBool ((membersOut b point).lookup "allow_transaction_markers") =
      some b.allowTransactionMarkers := by
    have found : (membersOut b point).lookup "allow_transaction_markers" =
        if b.allowTransactionMarkers then some (.bool true) else none := by
      simp [membersOut, List.lookup_append, lookup_member]
    rw [found]
    cases b.allowTransactionMarkers <;> rfl
  have rate : optional asU64 ((membersOut b point).lookup "rate_limit_bytes_per_sec") =
      some b.rateLimitBytesPerSec := by
    have found : (membersOut b point).lookup "rate_limit_bytes_per_sec" =
        b.rateLimitBytesPerSec.map fun rate => .number (.integer rate.toNat) := by
      simp [membersOut, List.lookup_append, lookup_member]
    rw [found]
    cases b.rateLimitBytesPerSec with
    | none => rfl
    | some rate => exact congrArg (Option.map some) (asU64_toNat rate)
  rw [RestoreSpecBlockWire.deserialize, point_, basis, start, parts, allow, rate]
  rfl

theorem keys_member (key : String) (o : Option Value) :
    List.Sublist ((member key o).map Prod.fst) [key] := by
  cases o with
  | none => exact List.nil_sublist _
  | some v => exact List.Sublist.refl _

theorem mem_member {key : String} {o : Option Value} {e : String × Value}
    (written : e ∈ member key o) : o = some e.2 := by
  cases o with
  | none => exact absurd written List.not_mem_nil
  | some v => rw [List.mem_singleton.mp written]

theorem valid_numbers (l : List Int32) :
    (Value.array (l.map fun p => .number (.integer p.toInt))).Valid := by
  rw [Value.Valid]
  induction l with
  | nil => trivial
  | cons p l ih => exact ⟨trivial, ih⟩

theorem valid_partitionsOut (partitions : ExtTreeMap String (List Int32)) :
    (partitionsOut partitions).Valid := by
  refine ⟨?_, JsonValues.validFields_iff.mpr fun e written => ?_⟩
  · have keys := TreeMaps.keys_nodup partitions
    rw [← ExtTreeMap.map_fst_toList_eq_keys] at keys
    rw [List.map_map]
    exact keys
  · obtain ⟨own, _, rfl⟩ := List.mem_map.mp written
    exact valid_numbers own.2

theorem valid_membersOut {I : Type} (b : RestoreSpecBlock I) (point : Option String) :
    (Value.object (membersOut b point)).Valid := by
  refine ⟨?_, JsonValues.validFields_iff.mpr fun e written => ?_⟩
  · have once : ["point_in_time", "time_basis", "partitions", "allow_transaction_markers",
        "rate_limit_bytes_per_sec"].Nodup := by decide
    refine once.sublist ?_
    unfold membersOut
    simp only [List.map_append]
    exact ((((keys_member _ _).append (keys_member _ _)).append (keys_member _ _)).append
      (keys_member _ _)).append (keys_member _ _)
  · unfold membersOut at written
    simp only [List.mem_append] at written
    rcases written with (((here | here) | here) | here) | here
    · rw [← Option.some.inj (mem_member here)]
      cases point <;> trivial
    · obtain ⟨basis, _, same⟩ := Option.map_eq_some_iff.mp (mem_member here)
      exact same ▸ trivial
    · have same := mem_member here
      split at same
      · cases same
      · exact Option.some.inj same ▸ valid_partitionsOut b.partitions
    · have same := mem_member here
      split at same
      · exact Option.some.inj same ▸ trivial
      · cases same
    · obtain ⟨rate, _, same⟩ := Option.map_eq_some_iff.mp (mem_member here)
      exact same ▸ trivial

end Members

section Stated

variable {C : Chrono}

/-- What is true of a block that was read. -/
structure RestoreSpecBlock.Stated (b : RestoreSpecBlock C.Instant) : Prop where
  narrowed : b.partitions.isEmpty = false → b.pointInTime.isSome
  started : b.windowStart.isSome → b.pointInTime.isSome
  rate : b.rateLimitBytesPerSec ≠ some 0

theorem slash_of_splitOnce {text : String} {parts : String × String}
    (split_ : Text.splitOnce '/' text = some parts) : '/' ∈ text.toList := by
  obtain ⟨⟨before, after⟩, chars, _⟩ := Option.map_eq_some_iff.mp split_
  rw [Text.splitOnceChars_eq_some chars]
  exact List.mem_append_right before List.mem_cons_self

inductive StatedAs (point : Option String) : Option C.Instant → Option C.Instant →
    Option PointInTimeForm → Prop
  | absent : point = none → StatedAs point none none none
  | instant (t : C.Instant) : point.isSome → StatedAs point none (some t) (some .instant)
  | openStart {text : String} (t : C.Instant) : point = some text → '/' ∈ text.toList →
      StatedAs point none (some t) (some .openStart)
  | interval {text : String} (start t : C.Instant) : point = some text → '/' ∈ text.toList →
      StatedAs point (some start) (some t) (some .interval)

theorem statedAs_of_statedPoint {point : Option String} {start end_ : Option C.Instant}
    {form : Option PointInTimeForm} (stated : statedPoint C point = .ok (start, end_, form)) :
    StatedAs point start end_ form := by
  unfold statedPoint at stated
  split at stated
  · cases stated
    exact .absent rfl
  · rename_i text
    split at stated
    · rename_i read
      cases stated
      unfold parsePointInTimeForm at read
      split at read
      · cases parsed : parseInstant C text with
        | error e => rw [parsed] at read; cases read
        | ok t =>
            rw [parsed] at read
            cases read
            exact .instant _ rfl
      · rename_i first second split_
        have slash := slash_of_splitOnce split_
        split at read
        · cases parsed : parseInstant C second with
          | error e => rw [parsed] at read; cases read
          | ok t =>
              rw [parsed] at read
              cases read
              exact .openStart _ rfl slash
        · obtain ⟨u, _, read⟩ := Results.bind_eq_ok.mp read
          obtain ⟨t, _, read⟩ := Results.bind_eq_ok.mp read
          cases read
          exact .interval _ _ rfl slash
    · cases stated

theorem stated_of_ofWire {wire : RestoreSpecBlockWire} {b : RestoreSpecBlock C.Instant}
    (read : RestoreSpecBlock.ofWire C wire = .ok b) :
    b.Stated ∧ ((b.windowStart.isSome ∨ b.partitions.isEmpty = false) →
      ∃ text, wire.pointInTime = some text ∧ '/' ∈ text.toList) := by
  unfold RestoreSpecBlock.ofWire at read
  split at read
  · cases read
  · split at read
    · cases read
    · rename_i start end_ form stated
      have as_ := statedAs_of_statedPoint stated
      split at read
      · cases read
      · rename_i goes
        split at read
        · cases read
        · rename_i rate
          cases read
          cases as_ with
          | absent none_ =>
              refine ⟨⟨fun narrowed => ?_, id, rate⟩, ?_⟩
              · dsimp only at narrowed
                rw [narrowed] at goes
                cases goes
              · rintro (started | narrowed)
                · cases started
                · dsimp only at narrowed
                  rw [narrowed] at goes
                  cases goes
          | instant t here =>
              refine ⟨⟨fun _ => rfl, fun _ => rfl, rate⟩, ?_⟩
              rintro (started | narrowed)
              · cases started
              · dsimp only at narrowed
                rw [narrowed] at goes
                cases goes
          | openStart t here slash => exact ⟨⟨fun _ => rfl, fun _ => rfl, rate⟩, fun _ => ⟨_, here, slash⟩⟩
          | interval start t here slash =>
              exact ⟨⟨fun _ => rfl, fun _ => rfl, rate⟩, fun _ => ⟨_, here, slash⟩⟩

theorem parseInstant_ok {text : String} {t : C.Instant} (trim : Text.trim text = text)
    (parsed : C.parse text = .ok t) : parseInstant C text = .ok t := by
  rw [parseInstant, trim, parsed]

theorem open_plain : '/' ∉ OPEN_INTERVAL_START.toList := by decide

theorem splitOnce_none {text : String} (plain : '/' ∉ text.toList) :
    Text.splitOnce '/' text = none := by
  rw [Text.splitOnce, Text.splitOnceChars_eq_none plain]
  rfl

theorem splitOnce_joined {first : String} (plain : '/' ∉ first.toList) (second : String) :
    Text.splitOnce '/' (first ++ "/" ++ second) = some (first, second) := by
  have chars : (first ++ "/" ++ second).toList = first.toList ++ '/' :: second.toList := by
    simp [String.toList_append]
  rw [Text.splitOnce, chars, Text.splitOnceChars_append plain]
  simp

theorem statedPoint_pointOut (documented : C.Documented) {b : RestoreSpecBlock C.Instant}
    (stated : b.Stated) : ∃ point form, b.pointOut C = .ok point ∧
      statedPoint C point = .ok (b.windowStart, b.pointInTime, form) ∧
      formRefusal b.partitions.isEmpty form = none := by
  have plain (t : C.Instant) : '/' ∉ (C.rfc3339 t).toList :=
    documented.slash _ t (documented.parse_rfc3339 t)
  have read (t : C.Instant) : parseInstant C (C.rfc3339 t) = .ok t :=
    parseInstant_ok (documented.trim_rfc3339 t) (documented.parse_rfc3339 t)
  unfold RestoreSpecBlock.pointOut
  cases start : b.windowStart with
  | none =>
      cases end_ : b.pointInTime with
      | none =>
          have every : b.partitions.isEmpty = true := by
            cases narrowed : b.partitions.isEmpty with
            | true => rfl
            | false =>
                have some_ := stated.narrowed narrowed
                rw [end_] at some_
                cases some_
          dsimp only
          rw [every]
          exact ⟨none, none, rfl, rfl, rfl⟩
      | some t =>
          dsimp only
          cases every : b.partitions.isEmpty with
          | true =>
              refine ⟨_, some .instant, rfl, ?_, rfl⟩
              have slashless := documented.slash _ t (documented.parse_iso8601 t)
              have parsed : parseInstant C (C.iso8601 t) = .ok t :=
                parseInstant_ok (documented.trim_iso8601 t) (documented.parse_iso8601 t)
              simp only [statedPoint, parsePointInTimeForm, splitOnce_none slashless, parsed]
              rfl
          | false =>
              refine ⟨_, some .openStart, rfl, ?_, rfl⟩
              have split_ := splitOnce_joined open_plain (C.rfc3339 t)
              have dots : Text.trim OPEN_INTERVAL_START = OPEN_INTERVAL_START := by decide
              simp only [statedPoint, parsePointInTimeForm, split_, dots, if_true, read]
              rfl
  | some u =>
      cases end_ : b.pointInTime with
      | none =>
          have some_ := stated.started (by rw [start]; rfl)
          rw [end_] at some_
          cases some_
      | some t =>
          refine ⟨_, some .interval, rfl, ?_, ?_⟩
          · have split_ := splitOnce_joined (plain u) (C.rfc3339 t)
            have other : Text.trim (C.rfc3339 u) ≠ OPEN_INTERVAL_START := by
              rw [documented.trim_rfc3339]
              exact documented.dots u
            simp only [statedPoint, parsePointInTimeForm, split_, if_neg other, read]
            rfl
          · cases b.partitions.isEmpty <;> rfl

end Stated

/-- The block has one meaning on both sides of its text. -/
structure OneMeaning (C : Chrono) (Y : Yaml) : Prop where
  /-- A block that is read is written, and reads from that text. -/
  roundTrip : ∀ text b, RestoreSpecBlock.deserialize C Y text = .ok b →
    ∃ out, b.serialize C Y = .ok out ∧ RestoreSpecBlock.deserialize C Y out = .ok b
  /-- A text that states a start or a subset is none an older runner reads. -/
  refused : ∀ text b, RestoreSpecBlock.deserialize C Y text = .ok b →
    (b.windowStart.isSome ∨ b.partitions.isEmpty = false) →
      ∀ point, olderPointInTime C Y text ≠ .ok point
  /-- A block that narrows partitions shares its text with none that does not. -/
  apart : ∀ b b' : RestoreSpecBlock C.Instant, b.partitions.isEmpty = false →
    b'.partitions.isEmpty = true → ∀ out, b.serialize C Y = .ok out → b'.serialize C Y ≠ .ok out

theorem deserialize_eq_ok {C : Chrono} {Y : Yaml} {text : Y.Text} {b : RestoreSpecBlock C.Instant} :
    RestoreSpecBlock.deserialize C Y text = .ok b ↔ ∃ v wire, Y.fromStr text = .ok v ∧
      RestoreSpecBlockWire.deserialize v = some wire ∧ RestoreSpecBlock.ofWire C wire = .ok b := by
  unfold RestoreSpecBlock.deserialize
  cases Y.fromStr text with
  | error e =>
      constructor
      · intro same
        cases same
      · rintro ⟨_, _, same, _⟩
        cases same
  | ok v =>
      dsimp only
      cases read : RestoreSpecBlockWire.deserialize v with
      | none =>
          constructor
          · intro same
            cases same
          · rintro ⟨v', wire, same, read', _⟩
            cases same
            rw [read] at read'
            cases read'
      | some wire =>
          constructor
          · exact fun same => ⟨v, wire, rfl, read, Results.mapError_eq_ok.mp same⟩
          · rintro ⟨v', wire', same, read', block⟩
            cases same
            rw [read] at read'
            cases read'
            exact Results.mapError_eq_ok.mpr block

theorem wire_pointInTime {v : Value} {wire : RestoreSpecBlockWire}
    (read : RestoreSpecBlockWire.deserialize v = some wire) : ∃ fields, v = .object fields ∧
      optional asString (fields.lookup "point_in_time") = some wire.pointInTime := by
  unfold RestoreSpecBlockWire.deserialize at read
  split at read
  · rename_i fields
    obtain ⟨point, here, read⟩ := Option.bind_eq_some_iff.mp read
    obtain ⟨_, _, read⟩ := Option.bind_eq_some_iff.mp read
    obtain ⟨_, _, read⟩ := Option.bind_eq_some_iff.mp read
    obtain ⟨_, _, read⟩ := Option.bind_eq_some_iff.mp read
    obtain ⟨_, _, read⟩ := Option.bind_eq_some_iff.mp read
    obtain ⟨_, _, read⟩ := Option.bind_eq_some_iff.mp read
    cases read
    exact ⟨fields, rfl, here⟩
  · cases read

theorem fromStr_serialize {C : Chrono} {Y : Yaml} (texts : Y.Documented)
    {b : RestoreSpecBlock C.Instant} {out : Y.Text} (written : b.serialize C Y = .ok out) :
    ∃ point, b.pointOut C = .ok point ∧ Y.fromStr out = .ok (.object (membersOut b point)) := by
  unfold RestoreSpecBlock.serialize at written
  split at written
  · cases written
  · rename_i point here
    obtain ⟨text, wrote, reads⟩ := texts _ (valid_membersOut b point)
    have same := Results.mapError_eq_ok.mp written
    rw [wrote] at same
    cases same
    exact ⟨point, here, reads⟩

theorem newYear_text : Text.trim "2026-01-01T00:00:00Z" = "2026-01-01T00:00:00Z" ∧
    "2026-01-01T00:00:00Z" ≠ ".." := by decide

def newYear : Chrono where
  Instant := Unit
  parse := fun text => if text = "2026-01-01T00:00:00Z" then .ok () else .error "input is invalid"
  rfc3339 := fun _ => "2026-01-01T00:00:00Z"
  iso8601 := fun _ => "2026-01-01T00:00:00Z"

def asWritten : Yaml where
  Text := Value
  fromStr := .ok
  toString := .ok

theorem newYear_documented : newYear.Documented where
  parse_rfc3339 := fun _ => rfl
  parse_iso8601 := fun _ => rfl
  trim_rfc3339 := fun _ => newYear_text.1
  trim_iso8601 := fun _ => newYear_text.1
  slash := by
    intro text t parsed
    have same : text = "2026-01-01T00:00:00Z" := by
      by_contra other
      have refused : newYear.parse text = .error "input is invalid" := if_neg other
      rw [refused] at parsed
      cases parsed
    rw [same]
    decide
  dots := fun _ => newYear_text.2

end Logweir.RestoreSpec
