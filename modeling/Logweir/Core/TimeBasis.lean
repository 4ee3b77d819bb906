import Logweir.Core.RecordTimes
import Logweir.Library.Ordered
import Logweir.Library.TreeMaps
import Mathlib.Tactic.SplitIfs

/-!
# The time basis of a restore

`logweir_core::time_basis`.  A selection by time reads the producers' clocks, so each
selected topic is `CreateTime` by the records, or listed in the signed label, or the
plan is refused.  The manifest's first entry of a topic decides; the label is the
truth exactly when that entry stands for every entry of the topic.
-/

set_option autoImplicit false

namespace Logweir.TimeSelection

open Std (ExtTreeMap ExtTreeSet)
open Logweir.Engine Logweir.ReplaySelection Logweir.RecordTimes Logweir.Ordered

def TIMESTAMP_TYPE_KEY : String := "message.timestamp.type"

def CREATE_TIME : String := "CreateTime"

def LOG_APPEND_TIME : String := "LogAppendTime"

def TERMINAL_STATE_POINT_IN_TIME_BY_PRODUCER_TIME : String := "PointInTimeByProducerTime"

abbrev Instant := Int

def timestampMillis (t : Instant) : Int := t / 1000000

structure ConfiguredTopic extends TopicFacts where
  configurations : ExtTreeMap String String

def widenTopic (times : RecordTimes) (t : ConfiguredTopic) : ConfiguredTopic :=
  { t with partitions := t.partitions.map fun p =>
      { p with segments := p.segments.map (widenSegment times) } }

structure EffectiveConfigValue where
  value : String
  source : String
deriving DecidableEq, Repr

structure TopicConfigCoverage where
  timestampType : Option EffectiveConfigValue
deriving DecidableEq, Repr

structure SourceConfigCoverage where
  recorded : Option (ExtTreeMap String TopicConfigCoverage)

def SourceConfigCoverage.entry (c : SourceConfigCoverage) (topic : String) :
    Option TopicConfigCoverage :=
  c.recorded.bind fun m => m[topic]?

inductive TimeBasis where
  | producerTime
deriving DecidableEq, Repr

def TimeBasis.asStr : TimeBasis → String
  | .producerTime => "producerTime"

structure DrillSpec where
  pointInTime : Option Instant
  windowStart : Option Instant
  timeBasis : Option TimeBasis
  windowEnd : Instant

inductive RecordedTimestampType where
  | createTime
  | logAppendTime
  | notRecorded
deriving DecidableEq, Repr

structure TopicTimestampType where
  value : RecordedTimestampType
  evidence : String
deriving DecidableEq, Repr

/-- One source topic's recorded timestamp type: `LogAppendTime` from either record
wins, then `CreateTime` from either. -/
def recordedTimestampType (manifest : ExtTreeMap String String)
    (receiptEntry : Option TopicConfigCoverage) : TopicTimestampType :=
  let manifest := manifest[TIMESTAMP_TYPE_KEY]?
  let receipt := receiptEntry.bind TopicConfigCoverage.timestampType
  let fromManifest (value : String) :=
    "the archive manifest's topic override " ++ TIMESTAMP_TYPE_KEY ++ "=" ++ value
  let fromReceipt (value source : String) :=
    "the bound backup receipt's effective " ++ TIMESTAMP_TYPE_KEY ++ " " ++ value ++ " from " ++ source
  let said (text : String) := receipt.filter fun r => r.value = text
  if manifest = some LOG_APPEND_TIME then
    { value := .logAppendTime, evidence := fromManifest LOG_APPEND_TIME }
  else
    match said LOG_APPEND_TIME with
    | some r => { value := .logAppendTime, evidence := fromReceipt LOG_APPEND_TIME r.source }
    | none =>
        if manifest = some CREATE_TIME then
          { value := .createTime, evidence := fromManifest CREATE_TIME }
        else
          match said CREATE_TIME with
          | some r => { value := .createTime, evidence := fromReceipt CREATE_TIME r.source }
          | none => { value := .notRecorded, evidence := "" }

def newestRecordedTimestampMs (t : TopicFacts) : Option Int :=
  ((t.partitions.flatMap fun p => p.segments).map
    fun seg => max seg.startTimestamp seg.endTimestamp).max?

def selectsByTime (spec : DrillSpec) (topic : Option ConfiguredTopic) : Bool :=
  if spec.pointInTime.isSome ∨ spec.windowStart.isSome then true
  else
    (topic.bind fun t => newestRecordedTimestampMs t.toTopicFacts).any
      fun newest => decide (timestampMillis spec.windowEnd < newest)

structure TimeBasisLabel where
  plan : Option String
  producerTime : List String
  notRecorded : List String
deriving DecidableEq, Repr

inductive Verdict where
  | unlisted
  | notRecorded
  | producerTime
  | refused (why : String)
deriving DecidableEq, Repr

def Verdict.why : Verdict → Option String
  | .refused why => some why
  | _ => none

variable (rfc3339 : Instant → String)
variable (spec : DrillSpec) (facts : List ConfiguredTopic) (coverage : SourceConfigCoverage)

def found (topic : String) : Option ConfiguredTopic := facts.find? fun t => t.name = topic

def recorded (topic : String) : TopicTimestampType :=
  recordedTimestampType (((found facts topic).map ConfiguredTopic.configurations).getD ∅)
    (coverage.entry topic)

def verdict (topic : String) : Verdict :=
  if !selectsByTime spec (found facts topic) then .unlisted
  else
    match (recorded facts coverage topic).value with
    | .createTime => .unlisted
    | .notRecorded => .notRecorded
    | .logAppendTime =>
        if spec.timeBasis = some .producerTime then .producerTime
        else .refused ("`" ++ topic ++ "` (" ++ (recorded facts coverage topic).evidence ++ ")")

def selection : String :=
  match spec.windowStart, spec.pointInTime with
  | some start, some point =>
      "restore.point_in_time " ++ rfc3339 start ++ "/" ++ rfc3339 point ++
        ", a window with a stated start"
  | _, some point => "restore.point_in_time " ++ rfc3339 point
  | _, none =>
      "sample.window_end " ++ rfc3339 spec.windowEnd ++ ", which is earlier than the newest " ++
        "timestamp the archive manifest records for the topic"

/-- The decision for one restore: the signed label, or the refusal. -/
def decide_ (topics : List String) : Except String TimeBasisLabel :=
  let topics := sortDedup topics
  let listed (v : Verdict) := topics.filter fun topic => verdict spec facts coverage topic = v
  let refused := topics.filterMap fun topic => (verdict spec facts coverage topic).why
  if refused.isEmpty then
    .ok { plan := spec.timeBasis.map TimeBasis.asStr
          producerTime := listed .producerTime
          notRecorded := listed .notRecorded }
  else
    .error (TERMINAL_STATE_POINT_IN_TIME_BY_PRODUCER_TIME ++
      ": this plan selects records by time (" ++ selection rfc3339 spec ++
      ") over source topic(s) recorded as " ++ LOG_APPEND_TIME ++ ": " ++
      String.intercalate ", " refused ++
      ". The archive holds each record's PRODUCER timestamp, not the broker's append time, so " ++
      "the selection would read the producers' clocks: a record the broker appended after the " ++
      "point can be restored and one it appended before can be left out, and the drill compares " ++
      "the target with the archive, so it would pass. The run stopped before the restore's " ++
      "target topics were created. To restore by producer time knowingly, state " ++
      "`restore.time_basis: producerTime` in the plan and have the changed plan approved (the " ++
      "field is inside plan_hash); the signed scorecard then labels the selection. A restore " ++
      "that states no point in time and whose sample.window_end is at or after the archive's " ++
      "newest record is not a selection by time.")

section

variable (records : String → List Int) (topics : List String)

/-- `times` is what reading every segment of these topics says. -/
def Exact (times : RecordTimes) (sel : ReplaySelection) : Prop :=
  ∀ t ∈ facts, ∀ p ∈ t.partitions, ∀ seg ∈ p.segments,
    times[seg.key]? = timesOf id sel (records seg.key)

def engineEnd : Int := timestampMillis (spec.pointInTime.getD spec.windowEnd)

def engineStart : Option Int :=
  match spec.windowStart with
  | some start => some (timestampMillis start)
  | none => BackupSetFacts.earliestCoveredTimestampMs
      { topics := facts.map ConfiguredTopic.toTopicFacts } (ExtTreeSet.ofList topics)

/-- The timestamp is outside the window the engine is asked for. -/
def Outside (ts : Int) : Prop :=
  engineEnd spec < ts ∨ ∃ start, engineStart spec facts topics = some start ∧ ts < start

/-- Some archived record of the topic lies outside the window. -/
def Loses (topic : String) : Prop :=
  ∃ t ∈ facts, t.name = topic ∧ ∃ p ∈ t.partitions, ∃ seg ∈ p.segments, ∃ ts ∈ records seg.key,
    Outside spec facts topics ts

/-- One of the two records gives the topic this type. -/
def Says (topic type : String) : Prop :=
  (∃ t ∈ facts, t.name = topic ∧ t.configurations[TIMESTAMP_TYPE_KEY]? = some type) ∨
    ∃ entry r, coverage.entry topic = some entry ∧ entry.timestampType = some r ∧ r.value = type

/-- What a label says of a topic with a record outside the window. -/
structure Tells (label : TimeBasisLabel) (topic : String) : Prop where
  covered : (¬ Says facts coverage topic LOG_APPEND_TIME ∧ Says facts coverage topic CREATE_TIME) ∨
    topic ∈ label.producerTime ∨ topic ∈ label.notRecorded
  producerTime : topic ∈ label.producerTime ↔ Says facts coverage topic LOG_APPEND_TIME
  stated : topic ∈ label.producerTime → spec.timeBasis = some .producerTime
  notRecorded : topic ∈ label.notRecorded ↔
    ¬ Says facts coverage topic LOG_APPEND_TIME ∧ ¬ Says facts coverage topic CREATE_TIME

/-- Topic by topic, the records are these and possibly one more `LogAppendTime`. -/
structure AddsLogAppend (facts facts' : List ConfiguredTopic) (coverage coverage' : SourceConfigCoverage) :
    Prop where
  entries : List.Forall₂ (fun t t' => t'.toTopicFacts = t.toTopicFacts ∧
    (t'.configurations[TIMESTAMP_TYPE_KEY]? = t.configurations[TIMESTAMP_TYPE_KEY]? ∨
      t'.configurations[TIMESTAMP_TYPE_KEY]? = some LOG_APPEND_TIME)) facts facts'
  receipt : ∀ topic, coverage'.entry topic = coverage.entry topic ∨
    ∃ source, coverage'.entry topic = some ⟨some ⟨LOG_APPEND_TIME, source⟩⟩

/-- The time basis of a restore, stated truthfully. -/
structure Truthful : Prop where
  tells : ∀ label, decide_ rfc3339 spec facts coverage topics = .ok label →
    ∀ topic ∈ topics, Loses spec facts records topics topic → Tells spec facts coverage label topic
  lists : ∀ label, decide_ rfc3339 spec facts coverage topics = .ok label →
    label.producerTime.Pairwise (· < ·) ∧ label.notRecorded.Pairwise (· < ·) ∧
      (∀ topic ∈ label.producerTime, topic ∈ topics ∧ topic ∉ label.notRecorded) ∧
      ∀ topic ∈ label.notRecorded, topic ∈ topics
  order : ∀ topics', (∀ topic, topic ∈ topics' ↔ topic ∈ topics) →
    decide_ rfc3339 spec facts coverage topics' = decide_ rfc3339 spec facts coverage topics
  refused : ∀ why, decide_ rfc3339 spec facts coverage topics = .error why →
    ∀ facts' coverage', AddsLogAppend facts facts' coverage coverage' →
      ∃ why', decide_ rfc3339 spec facts' coverage' topics = .error why'

/-- The first entry of a topic stands for all of them: it is selected by time and
records the type they record together, or it is not and they say `CreateTime`. -/
def Stands (topic : String) : Prop :=
  if selectsByTime spec (found facts topic) then
    ((recorded facts coverage topic).value = .logAppendTime ↔
      Says facts coverage topic LOG_APPEND_TIME) ∧
    ((recorded facts coverage topic).value = .notRecorded ↔
      ¬ Says facts coverage topic LOG_APPEND_TIME ∧ ¬ Says facts coverage topic CREATE_TIME)
  else ¬ Says facts coverage topic LOG_APPEND_TIME ∧ Says facts coverage topic CREATE_TIME

/-- The plan is refused over a first entry. -/
def Refuses : Prop :=
  spec.timeBasis ≠ some .producerTime ∧ ∃ topic ∈ topics,
    selectsByTime spec (found facts topic) = true ∧
      (recorded facts coverage topic).value = .logAppendTime

end

section

variable {rfc3339 spec facts coverage} {topics : List String} {topic : String}

theorem verdict_producerTime : verdict spec facts coverage topic = .producerTime ↔
    selectsByTime spec (found facts topic) = true ∧
      (recorded facts coverage topic).value = .logAppendTime ∧
      spec.timeBasis = some .producerTime := by
  unfold verdict
  cases selectsByTime spec (found facts topic) with
  | false => simp
  | true =>
      cases (recorded facts coverage topic).value with
      | createTime => simp
      | notRecorded => simp
      | logAppendTime =>
          by_cases accepted : spec.timeBasis = some .producerTime <;> simp [accepted]

theorem verdict_notRecorded : verdict spec facts coverage topic = .notRecorded ↔
    selectsByTime spec (found facts topic) = true ∧
      (recorded facts coverage topic).value = .notRecorded := by
  unfold verdict
  cases selectsByTime spec (found facts topic) with
  | false => simp
  | true =>
      cases (recorded facts coverage topic).value with
      | createTime => simp
      | notRecorded => simp
      | logAppendTime =>
          by_cases accepted : spec.timeBasis = some .producerTime <;> simp [accepted]

theorem verdict_refused : (∃ why, (verdict spec facts coverage topic).why = some why) ↔
    selectsByTime spec (found facts topic) = true ∧
      (recorded facts coverage topic).value = .logAppendTime ∧
      spec.timeBasis ≠ some .producerTime := by
  unfold verdict
  cases selectsByTime spec (found facts topic) with
  | false => simp [Verdict.why]
  | true =>
      cases (recorded facts coverage topic).value with
      | createTime => simp [Verdict.why]
      | notRecorded => simp [Verdict.why]
      | logAppendTime =>
          by_cases accepted : spec.timeBasis = some .producerTime <;> simp [accepted, Verdict.why]

theorem refusals_nil : ((sortDedup topics).filterMap fun topic =>
    (verdict spec facts coverage topic).why) = [] ↔ ¬ Refuses spec facts coverage topics := by
  rw [List.filterMap_eq_nil_iff]
  constructor
  · intro none_ refuses
    obtain ⟨stated, topic, member, selects, type⟩ := refuses
    obtain ⟨why, held⟩ := verdict_refused.mpr ⟨selects, type, stated⟩
    rw [none_ topic (mem_sortDedup.mpr member)] at held
    cases held
  · intro allowed topic member
    cases why : (verdict spec facts coverage topic).why with
    | none => rfl
    | some text =>
        obtain ⟨selects, type, stated⟩ := verdict_refused.mp ⟨text, why⟩
        exact absurd ⟨stated, topic, mem_sortDedup.mp member, selects, type⟩ allowed

theorem decide_ok {label : TimeBasisLabel} :
    decide_ rfc3339 spec facts coverage topics = .ok label ↔
      ¬ Refuses spec facts coverage topics ∧ label =
        { plan := spec.timeBasis.map TimeBasis.asStr
          producerTime := (sortDedup topics).filter fun t =>
            verdict spec facts coverage t = .producerTime
          notRecorded := (sortDedup topics).filter fun t =>
            verdict spec facts coverage t = .notRecorded } := by
  unfold decide_
  by_cases refuses : Refuses spec facts coverage topics
  · have some_ : ((sortDedup topics).filterMap fun topic =>
        (verdict spec facts coverage topic).why).isEmpty ≠ true := fun empty =>
      refusals_nil.mp (List.isEmpty_iff.mp empty) refuses
    rw [if_neg some_]
    exact ⟨fun impossible => (by cases impossible), fun both => absurd refuses both.1⟩
  · rw [if_pos (List.isEmpty_iff.mpr (refusals_nil.mpr refuses)), Except.ok.injEq]
    exact ⟨fun same => ⟨refuses, same.symm⟩, fun both => both.2.symm⟩

theorem decide_error : (∃ why, decide_ rfc3339 spec facts coverage topics = .error why) ↔
    Refuses spec facts coverage topics := by
  constructor
  · rintro ⟨why, refused⟩
    by_contra allowed
    rw [decide_ok.mpr ⟨allowed, rfl⟩] at refused
    cases refused
  · intro refuses
    cases answer : decide_ rfc3339 spec facts coverage topics with
    | ok label => exact absurd refuses (decide_ok.mp answer).1
    | error why => exact ⟨why, rfl⟩

end

section

variable {rfc3339 spec facts coverage} {topics : List String} {topic type : String}
  {records : String → List Int}

/-- One of a topic's two records is of this type. -/
def SaysOf (configurations : ExtTreeMap String String) (entry : Option TopicConfigCoverage)
    (type : String) : Prop :=
  configurations[TIMESTAMP_TYPE_KEY]? = some type ∨
    ∃ r, entry.bind TopicConfigCoverage.timestampType = some r ∧ r.value = type

section Recorded

variable {configurations : ExtTreeMap String String} {entry : Option TopicConfigCoverage}

theorem said_none {text : String} : (entry.bind TopicConfigCoverage.timestampType).filter
    (fun r => decide (r.value = text)) = none ↔
      ¬ ∃ r, entry.bind TopicConfigCoverage.timestampType = some r ∧ r.value = text := by
  rw [Option.filter_eq_none_iff]
  simp only [decide_eq_true_eq, not_exists, not_and]

theorem recorded_spoken :
    ((recordedTimestampType configurations entry).value = .logAppendTime ∧
      SaysOf configurations entry LOG_APPEND_TIME) ∨
    ((recordedTimestampType configurations entry).value = .createTime ∧
      ¬ SaysOf configurations entry LOG_APPEND_TIME ∧ SaysOf configurations entry CREATE_TIME) ∨
    ((recordedTimestampType configurations entry).value = .notRecorded ∧
      ¬ SaysOf configurations entry LOG_APPEND_TIME ∧
        ¬ SaysOf configurations entry CREATE_TIME) := by
  unfold recordedTimestampType
  simp only
  split
  · rename_i override
    exact .inl ⟨rfl, .inl override⟩
  rename_i other
  split
  · rename_i r said
    obtain ⟨held, value⟩ := Option.filter_eq_some_iff.mp said
    exact .inl ⟨rfl, .inr ⟨r, held, of_decide_eq_true value⟩⟩
  rename_i unsaid
  have none_ : ¬ SaysOf configurations entry LOG_APPEND_TIME := not_or.mpr ⟨other, said_none.mp unsaid⟩
  split
  · rename_i override
    exact .inr (.inl ⟨rfl, none_, .inl override⟩)
  rename_i other'
  split
  · rename_i r said
    obtain ⟨held, value⟩ := Option.filter_eq_some_iff.mp said
    exact .inr (.inl ⟨rfl, none_, .inr ⟨r, held, of_decide_eq_true value⟩⟩)
  · rename_i unsaid'
    exact .inr (.inr ⟨rfl, none_, not_or.mpr ⟨other', said_none.mp unsaid'⟩⟩)

theorem recorded_logAppendTime :
    (recordedTimestampType configurations entry).value = .logAppendTime ↔
      SaysOf configurations entry LOG_APPEND_TIME := by
  rcases @recorded_spoken configurations entry with
    ⟨value, said⟩ | ⟨value, unsaid, -⟩ | ⟨value, unsaid, -⟩
  · exact ⟨fun _ => said, fun _ => value⟩
  · rw [value]
    exact ⟨fun impossible => (by cases impossible), fun said => absurd said unsaid⟩
  · rw [value]
    exact ⟨fun impossible => (by cases impossible), fun said => absurd said unsaid⟩

theorem recorded_notRecorded :
    (recordedTimestampType configurations entry).value = .notRecorded ↔
      ¬ SaysOf configurations entry LOG_APPEND_TIME ∧ ¬ SaysOf configurations entry CREATE_TIME := by
  rcases @recorded_spoken configurations entry with
    ⟨value, said⟩ | ⟨value, -, said⟩ | ⟨value, unsaid⟩
  · rw [value]
    exact ⟨fun impossible => (by cases impossible), fun unsaid => absurd said unsaid.1⟩
  · rw [value]
    exact ⟨fun impossible => (by cases impossible), fun unsaid => absurd said unsaid.2⟩
  · exact ⟨fun _ => unsaid, fun _ => value⟩

end Recorded

theorem recorded_adds {configurations configurations' : ExtTreeMap String String}
    {entry entry' : Option TopicConfigCoverage}
    (manifest : configurations'[TIMESTAMP_TYPE_KEY]? = configurations[TIMESTAMP_TYPE_KEY]? ∨
      configurations'[TIMESTAMP_TYPE_KEY]? = some LOG_APPEND_TIME)
    (receipt : entry' = entry ∨ ∃ source, entry' = some ⟨some ⟨LOG_APPEND_TIME, source⟩⟩)
    (type : (recordedTimestampType configurations entry).value = .logAppendTime) :
    (recordedTimestampType configurations' entry').value = .logAppendTime := by
  rw [recorded_logAppendTime] at type ⊢
  rcases type with override | ⟨r, held, value⟩
  · rcases manifest with same | added
    · exact .inl (same.trans override)
    · exact .inl added
  · rcases receipt with rfl | ⟨source, rfl⟩
    · exact .inr ⟨r, held, value⟩
    · exact .inr ⟨_, rfl, rfl⟩

/-- The manifest lists the topic at most once. -/
def Once (facts : List ConfiguredTopic) (topic : String) : Prop :=
  (facts.filter fun t => t.name = topic).length ≤ 1

instance (facts : List ConfiguredTopic) (topic : String) : Decidable (Once facts topic) :=
  inferInstanceAs (Decidable (_ ≤ _))

theorem once_found (once : Once facts topic) {t : ConfiguredTopic} (member : t ∈ facts)
    (name : t.name = topic) : found facts topic = some t ∧ ∀ t' ∈ facts, t'.name = topic → t' = t := by
  have here : t ∈ facts.filter fun t => t.name = topic :=
    List.mem_filter.mpr ⟨member, decide_eq_true name⟩
  have only : facts.filter (fun t => t.name = topic) = [t] := by
    cases listed : facts.filter fun t => t.name = topic with
    | nil => rw [listed] at here; cases here
    | cons u rest =>
        unfold Once at once
        rw [listed] at here once
        cases rest with
        | nil => rw [List.mem_singleton.mp here]
        | cons v rest => exact absurd once (by simp)
  constructor
  · unfold found
    rw [← List.head?_filter, only]
    rfl
  · intro t' member' name'
    have there : t' ∈ facts.filter fun t => t.name = topic :=
      List.mem_filter.mpr ⟨member', decide_eq_true name'⟩
    rw [only] at there
    exact List.mem_singleton.mp there

theorem says_once (once : Once facts topic) {t : ConfiguredTopic} (member : t ∈ facts)
    (name : t.name = topic) : Says facts coverage topic type ↔
      SaysOf t.configurations (coverage.entry topic) type := by
  have receipt : (∃ entry r, coverage.entry topic = some entry ∧ entry.timestampType = some r ∧
      r.value = type) ↔ ∃ r, (coverage.entry topic).bind TopicConfigCoverage.timestampType = some r ∧
        r.value = type := by
    constructor
    · rintro ⟨entry, r, held, said, value⟩
      exact ⟨r, by rw [held, Option.bind_some, said], value⟩
    · rintro ⟨r, said, value⟩
      obtain ⟨entry, held, said⟩ := Option.bind_eq_some_iff.mp said
      exact ⟨entry, r, held, said, value⟩
  unfold Says SaysOf
  rw [receipt]
  apply or_congr_left
  constructor
  · rintro ⟨t', member', name', override⟩
    rw [(once_found once member name).2 t' member' name'] at override
    exact override
  · exact fun override => ⟨t, member, name, override⟩

theorem found_adds {facts' : List ConfiguredTopic} {coverage' : SourceConfigCoverage}
    (adds : AddsLogAppend facts facts' coverage coverage') (topic : String) :
    (found facts topic = none ∧ found facts' topic = none) ∨
      ∃ t t', found facts topic = some t ∧ found facts' topic = some t' ∧
        t'.toTopicFacts = t.toTopicFacts ∧
        (t'.configurations[TIMESTAMP_TYPE_KEY]? = t.configurations[TIMESTAMP_TYPE_KEY]? ∨
          t'.configurations[TIMESTAMP_TYPE_KEY]? = some LOG_APPEND_TIME) := by
  have entries := adds.entries
  clear adds
  induction entries with
  | nil => exact .inl ⟨rfl, rfl⟩
  | @cons t t' facts facts' same _ ih =>
      have name : t'.name = t.name := congrArg TopicFacts.name same.1
      by_cases here : t.name = topic
      · refine .inr ⟨t, t', List.find?_cons_of_pos (decide_eq_true here),
          List.find?_cons_of_pos (decide_eq_true (name.trans here)), same.1, same.2⟩
      · have there : ¬ t'.name = topic := fun same' => here (name.symm.trans same')
        unfold found at ih ⊢
        rw [List.find?_cons_of_neg (by simpa using here), List.find?_cons_of_neg (by simpa using there)]
        exact ih

theorem refuses_adds {facts' : List ConfiguredTopic} {coverage' : SourceConfigCoverage}
    (adds : AddsLogAppend facts facts' coverage coverage')
    (refuses : Refuses spec facts coverage topics) : Refuses spec facts' coverage' topics := by
  obtain ⟨stated, topic, member, selects, type⟩ := refuses
  refine ⟨stated, topic, member, ?_⟩
  unfold recorded at type ⊢
  rcases found_adds adds topic with ⟨none_, none'⟩ | ⟨t, t', some_, some', same, override⟩
  · rw [none_] at selects type
    rw [none']
    exact ⟨selects, recorded_adds (.inl rfl) (adds.receipt topic) type⟩
  · rw [some_] at selects type
    rw [some']
    refine ⟨?_, recorded_adds override (adds.receipt topic) type⟩
    unfold selectsByTime at selects ⊢
    simp only [Option.bind_some] at selects ⊢
    rw [same]
    exact selects

variable {manifest : List ConfiguredTopic} {times : RecordTimes} {sel : ReplaySelection}

theorem widened_spans (exact_ : Exact manifest records times sel) {t : ConfiguredTopic}
    (member : t ∈ manifest.map (widenTopic times)) {p : PartitionFacts} (part : p ∈ t.partitions)
    {seg : SegmentFacts} (segment : seg ∈ p.segments) {ts : Int} (record : ts ∈ records seg.key) :
    seg.startTimestamp ≤ ts ∧ ts ≤ seg.endTimestamp := by
  obtain ⟨t, described, rfl⟩ := List.mem_map.mp member
  obtain ⟨p, listed, rfl⟩ := List.mem_map.mp part
  obtain ⟨seg, here, rfl⟩ := List.mem_map.mp segment
  have key : (widenSegment times seg).key = seg.key := by
    unfold widenSegment
    split <;> rfl
  rw [key] at record
  have read := exact_ t described p listed seg here
  cases held : times[seg.key]? with
  | none =>
      rw [held] at read
      rw [timesOf_none id sel (records seg.key) read.symm] at record
      cases record
  | some times_ =>
      rw [held] at read
      obtain ⟨least, most⟩ := (timesOf_spec id sel (records seg.key) times_ read.symm).1 ts record
      simp only [widenSegment, held]
      exact ⟨Int.le_trans (Int.min_le_right _ _) least, Int.le_trans most (Int.le_max_right _ _)⟩

theorem selects_of_loses (exact_ : Exact manifest records times sel)
    (member : topic ∈ topics) {t : ConfiguredTopic} (listed : t ∈ manifest.map (widenTopic times))
    (name : t.name = topic) {p : PartitionFacts} (part : p ∈ t.partitions) {seg : SegmentFacts}
    (segment : seg ∈ p.segments) {ts : Int} (record : ts ∈ records seg.key)
    (outside : Outside spec (manifest.map (widenTopic times)) topics ts) :
    selectsByTime spec (some t) = true := by
  obtain ⟨least, most⟩ := widened_spans exact_ listed part segment record
  unfold selectsByTime
  split
  · rfl
  rename_i unstated
  rw [not_or, Option.not_isSome_iff_eq_none, Option.not_isSome_iff_eq_none] at unstated
  obtain ⟨point, start⟩ := unstated
  rcases outside with after | ⟨first, starts, before⟩
  · unfold engineEnd at after
    rw [point, Option.getD_none] at after
    have own : max seg.startTimestamp seg.endTimestamp ∈ (t.partitions.flatMap fun p =>
        p.segments).map fun seg => max seg.startTimestamp seg.endTimestamp :=
      List.mem_map_of_mem (List.mem_flatMap.mpr ⟨p, part, segment⟩)
    rw [Option.bind_some, newestRecordedTimestampMs]
    cases newest : ((t.partitions.flatMap fun p => p.segments).map
        fun seg => max seg.startTimestamp seg.endTimestamp).max? with
    | none =>
        rw [List.max?_eq_none_iff.mp newest] at own
        cases own
    | some newest_ =>
        have bound := (List.max?_eq_some_iff.mp newest).2 _ own
        have last := Int.le_max_right seg.startTimestamp seg.endTimestamp
        exact decide_eq_true (by omega)
  · -- The floor of the window is below every record.
    unfold engineStart at starts
    rw [start] at starts
    have named : (ExtTreeSet.ofList topics).contains t.name = true := by
      rw [ExtTreeSet.contains_ofList, name, List.contains_iff_mem]
      exact member
    have floor := earliestCovered_le _ _ first starts t.toTopicFacts
      (List.mem_map_of_mem listed) named p part seg segment
    omega

theorem stands_of_once (exact_ : Exact manifest records times sel) (member : topic ∈ topics)
    (once : Once (manifest.map (widenTopic times)) topic)
    (loses : Loses spec (manifest.map (widenTopic times)) records topics topic) :
    Stands spec (manifest.map (widenTopic times)) coverage topic := by
  obtain ⟨t, listed, name, p, part, seg, segment, ts, record, outside⟩ := loses
  have first := (once_found once listed name).1
  unfold Stands recorded
  rw [first, if_pos (selects_of_loses exact_ member listed name part segment record outside),
    says_once once listed name, says_once once listed name]
  exact ⟨recorded_logAppendTime, recorded_notRecorded⟩

theorem mem_producerTime (allowed : ¬ Refuses spec facts coverage topics) (member : topic ∈ topics) :
    topic ∈ (sortDedup topics).filter (fun t => verdict spec facts coverage t = .producerTime) ↔
      selectsByTime spec (found facts topic) = true ∧
        (recorded facts coverage topic).value = .logAppendTime := by
  rw [List.mem_filter, decide_eq_true_eq, verdict_producerTime]
  constructor
  · exact fun held => ⟨held.2.1, held.2.2.1⟩
  · rintro ⟨selects, type⟩
    refine ⟨mem_sortDedup.mpr member, selects, type, ?_⟩
    by_contra unstated
    exact allowed ⟨unstated, topic, member, selects, type⟩

theorem mem_notRecorded (member : topic ∈ topics) :
    topic ∈ (sortDedup topics).filter (fun t => verdict spec facts coverage t = .notRecorded) ↔
      selectsByTime spec (found facts topic) = true ∧
        (recorded facts coverage topic).value = .notRecorded := by
  rw [List.mem_filter, decide_eq_true_eq, verdict_notRecorded]
  exact ⟨fun held => held.2, fun held => ⟨mem_sortDedup.mpr member, held⟩⟩

theorem tells_iff_stands {label : TimeBasisLabel} (member : topic ∈ topics)
    (accepted : decide_ rfc3339 spec facts coverage topics = .ok label) :
    Tells spec facts coverage label topic ↔ Stands spec facts coverage topic := by
  obtain ⟨allowed, rfl⟩ := decide_ok.mp accepted
  have producer := mem_producerTime allowed member
  have unrecorded : topic ∈ (sortDedup topics).filter (fun t =>
      verdict spec facts coverage t = .notRecorded) ↔ _ := mem_notRecorded member
  unfold Stands
  by_cases selects : selectsByTime spec (found facts topic) = true
  · rw [if_pos selects]
    simp only [selects, true_and] at producer unrecorded
    constructor
    · exact fun tells => ⟨producer.symm.trans tells.producerTime,
        unrecorded.symm.trans tells.notRecorded⟩
    · rintro ⟨appended, none_⟩
      refine ⟨?_, producer.trans appended, fun listed => ?_, unrecorded.trans none_⟩
      · by_cases late : Says facts coverage topic LOG_APPEND_TIME
        · exact .inr (.inl (producer.mpr (appended.mpr late)))
        · by_cases created : Says facts coverage topic CREATE_TIME
          · exact .inl ⟨late, created⟩
          · exact .inr (.inr (unrecorded.mpr (none_.mpr ⟨late, created⟩)))
      · by_contra unstated
        exact allowed ⟨unstated, topic, member, selects, producer.mp listed⟩
  · rw [if_neg selects]
    have producer := fun listed => selects (producer.mp listed).1
    have unrecorded := fun listed => selects (unrecorded.mp listed).1
    constructor
    · intro tells
      rcases tells.covered with created | listed | listed
      · exact created
      · exact absurd listed producer
      · exact absurd listed unrecorded
    · rintro ⟨late, created⟩
      exact ⟨.inl ⟨late, created⟩, ⟨fun listed => absurd listed producer, fun said => absurd said late⟩,
        fun listed => absurd listed producer,
        ⟨fun listed => absurd listed unrecorded, fun neither => absurd created neither.2⟩⟩

theorem decide_congr {topics' : List String} (same : ∀ topic, topic ∈ topics' ↔ topic ∈ topics) :
    decide_ rfc3339 spec facts coverage topics' = decide_ rfc3339 spec facts coverage topics := by
  unfold decide_
  rw [sortDedup_congr same]

theorem label_lists {label : TimeBasisLabel}
    (accepted : decide_ rfc3339 spec facts coverage topics = .ok label) :
    label.producerTime.Pairwise (· < ·) ∧ label.notRecorded.Pairwise (· < ·) ∧
      (∀ topic ∈ label.producerTime, topic ∈ topics ∧ topic ∉ label.notRecorded) ∧
      ∀ topic ∈ label.notRecorded, topic ∈ topics := by
  obtain ⟨-, rfl⟩ := decide_ok.mp accepted
  refine ⟨(ascending_sortDedup topics).filter _, (ascending_sortDedup topics).filter _,
    fun topic listed => ?_, fun topic listed => mem_sortDedup.mp (List.mem_of_mem_filter listed)⟩
  refine ⟨mem_sortDedup.mp (List.mem_of_mem_filter listed), fun both => ?_⟩
  have first := of_decide_eq_true (List.mem_filter.mp listed).2
  have second := of_decide_eq_true (List.mem_filter.mp both).2
  rw [first] at second
  cases second

/-- The label is the truth exactly when the first entry of each listed topic stands
for every entry of it. -/
theorem decide_truthful_iff (exact_ : Exact manifest records times sel) :
    Truthful rfc3339 spec (manifest.map (widenTopic times)) coverage records topics ↔
      Refuses spec (manifest.map (widenTopic times)) coverage topics ∨
        ∀ topic ∈ topics, Loses spec (manifest.map (widenTopic times)) records topics topic →
          Once (manifest.map (widenTopic times)) topic ∨
            Stands spec (manifest.map (widenTopic times)) coverage topic := by
  constructor
  · intro truthful
    by_cases refuses : Refuses spec (manifest.map (widenTopic times)) coverage topics
    · exact .inl refuses
    · refine .inr fun topic member loses => .inr ?_
      have accepted : decide_ rfc3339 spec (manifest.map (widenTopic times)) coverage topics =
        .ok _ := decide_ok.mpr ⟨refuses, rfl⟩
      exact (tells_iff_stands member accepted).mp (truthful.tells _ accepted topic member loses)
  · intro condition
    refine ⟨fun label accepted topic member loses => ?_, fun label accepted => label_lists accepted,
      fun topics' same => decide_congr same, fun why refused facts' coverage' adds => ?_⟩
    · rw [tells_iff_stands member accepted]
      rcases condition with refuses | stands
      · exact absurd refuses (decide_ok.mp accepted).1
      · rcases stands topic member loses with once | stands
        · exact stands_of_once exact_ member once loses
        · exact stands
    · exact decide_error.mpr (refuses_adds adds (decide_error.mp ⟨why, refused⟩))

end

def segmentAt (key : String) (first last : Int) : SegmentFacts where
  key
  startOffset := 0
  endOffset := 1
  startTimestamp := first
  endTimestamp := last
  recordCount := 2
  sha256 := ""

def ordersEntry (key : String) (first last : Int) (configurations : ExtTreeMap String String) :
    ConfiguredTopic where
  name := "orders"
  partitions := [{ partitionId := 0, segments := [segmentAt key first last], gaps := [], pruned := [] }]
  configurations

def endsAtFifty : DrillSpec where
  pointInTime := none
  windowStart := none
  timeBasis := none
  windowEnd := 50000000

def ordersRecords : String → List Int := fun key => if key = "a" then [40, 30] else [45, 100]

def ordersTimes : RecordTimes :=
  TreeMaps.ofEntries [("a", ⟨30, 40, 2⟩), ("b", ⟨45, 100, 1⟩)]

def ordersSelection : ReplaySelection where
  topics := ExtTreeSet.ofList ["orders"]
  windowStartMs := none
  windowEndMs := 50
  partitions := ∅

def lateOverride : ExtTreeMap String String :=
  TreeMaps.ofEntries [(TIMESTAMP_TYPE_KEY, LOG_APPEND_TIME)]

/-- Listed once, the topic is refused. -/
theorem orders_once : Truthful (fun _ => "1970-01-01T00:00:00.050+00:00") endsAtFifty
    ([ordersEntry "b" 45 100 lateOverride].map (widenTopic ordersTimes)) ⟨none⟩ ordersRecords
    ["orders"] := by
  have exact_ : Exact [ordersEntry "b" 45 100 lateOverride] ordersRecords ordersTimes
      ordersSelection := by
    intro t member p part seg segment
    rw [List.mem_singleton.mp member] at part
    rw [List.mem_singleton.mp part] at segment
    rw [List.mem_singleton.mp segment]
    decide +kernel
  exact (decide_truthful_iff exact_).mpr (.inr fun topic member _ => .inl (by
    rw [List.mem_singleton.mp member]
    decide +kernel))

/-- Listed twice, its second entry is not read. -/
theorem second_entry_escapes : ¬ Truthful (fun _ => "1970-01-01T00:00:00.050+00:00") endsAtFifty
    ([ordersEntry "a" 40 30 ∅, ordersEntry "b" 45 100 lateOverride].map (widenTopic ordersTimes))
    ⟨none⟩ ordersRecords ["orders"] := by
  intro truthful
  have unlisted : verdict endsAtFifty ([ordersEntry "a" 40 30 ∅,
      ordersEntry "b" 45 100 lateOverride].map (widenTopic ordersTimes)) ⟨none⟩ "orders" =
        .unlisted := by decide +kernel
  have allowed : ¬ Refuses endsAtFifty ([ordersEntry "a" 40 30 ∅,
      ordersEntry "b" 45 100 lateOverride].map (widenTopic ordersTimes)) ⟨none⟩ ["orders"] := by
    rintro ⟨stated, topic, member, selects, type⟩
    obtain ⟨why, held⟩ := verdict_refused.mpr ⟨selects, type, stated⟩
    rw [List.mem_singleton.mp member, unlisted] at held
    cases held
  have told := truthful.tells _ (decide_ok.mpr ⟨allowed, rfl⟩) "orders" (List.mem_singleton_self _)
    ⟨widenTopic ordersTimes (ordersEntry "b" 45 100 lateOverride),
      List.mem_cons_of_mem _ List.mem_cons_self, rfl, _, List.mem_singleton_self _, _,
      List.mem_singleton_self _, 100, by decide +kernel, .inl (by decide)⟩
  have late := told.producerTime.mpr (.inl ⟨widenTopic ordersTimes (ordersEntry "b" 45 100
    lateOverride), List.mem_cons_of_mem _ List.mem_cons_self, rfl, by decide +kernel⟩)
  have listed := of_decide_eq_true (List.mem_filter.mp late).2
  rw [unlisted] at listed
  cases listed

end Logweir.TimeSelection
