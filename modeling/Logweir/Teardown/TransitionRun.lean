import Logweir.Runner.Seal
import Logweir.Teardown.Phase9
import Logweir.Topics.Transition

/-!
# Phase 9: the configuration transition

`logweir::drill::phase9_transition`.  After a passing verdict each `adminApi` topic whose overrides are
still the ones it was created with gets its whole desired set by one `AlterConfigs`, and is reported applied
once the set reads back.
-/

set_option autoImplicit false

namespace Logweir.Phase9

open Std (ExtTreeMap)
open Logweir.Programs Program
open Logweir.Topics

abbrev Overrides := ExtTreeMap String (Except String (ExtTreeMap String String))

def overridesOf (entries : List ConfigEntryObservation) : ExtTreeMap String String :=
  TreeMaps.ofEntries
    ((entries.filter fun e => e.source == .dynamicTopicConfig).map fun e => (e.name, e.value.getD ""))

def overridesAnswered (names : List String) : DescribeAnswer → Overrides
  | .ok answers => TreeMaps.ofEntries (answers.map fun a => (a.1, a.2.map overridesOf))
  | .error e => TreeMaps.ofEntries (names.map fun n => (n, .error e))

def readOverrides (names : List String) : Phase Overrides :=
  if names.isEmpty then return ∅
  else do
    let answer ← call (.describeTopicConfigs names)
    return overridesAnswered names answer

/-- `KafkaError::Client`. -/
def client (message : String) : String := "kafka: " ++ message

inductive Settling (α : Type) where
  | done (value : α)
  | notYet (error : String)
  | failed (error : String)

/-- `logweir_kafka::reader::settle`: `early` is how many of its readings of the clock come before the
deadline.  What the attempts keep between them is passed along. -/
def settle {σ α : Type} (attempt : σ → Phase (Settling α × σ)) : Nat → σ → Phase (Except String α × σ)
  | early, kept => do
    let (settling, kept) ← attempt kept
    match settling with
    | .done value => return (.ok value, kept)
    | .failed error => return (.error error, kept)
    | .notYet error =>
      match early with
      | 0 => return (.error error, kept)
      | early + 1 => settle attempt early kept

def readBackOnce (topic : String) (set : ExtTreeMap String String)
    (last : Option (ExtTreeMap String String)) :
    Phase (Settling Unit × Option (ExtTreeMap String String)) := do
  let now ← readOverrides [topic]
  match now[topic]? with
  | some (.ok now) =>
    if now.toList = set.toList then return (.done (), last)
    else
      return (.notYet (client "the overrides have not read back as the desired set"), some now)
  | some (.error e) => return (.failed (client e), last)
  | none => return (.failed (client "the topic was not in the configuration read's answer"), last)

def shown (overrides : ExtTreeMap String String) : String :=
  toString overrides.size ++ " override(s) [" ++ ", ".intercalate overrides.keys ++ "]"

/-- How long a read-back may take: the seconds it states, and for each topic the readings of the clock
that come before the deadline. -/
structure Wait where
  seconds : Nat
  early : String → Nat

def readBack (topic : String) (set : ExtTreeMap String String) (within : Wait) :
    Phase (Except String Unit) := do
  let (answer, last) ← settle (readBackOnce topic set) (within.early topic) none
  match answer with
  | .ok () => return .ok ()
  | .error e =>
    return .error (match last with
      | some now => "AlterConfigs answered, and within " ++ toString within.seconds ++
          "s the topic's overrides read back as " ++ shown now ++ " rather than the desired set: " ++
          "the broker refused it (an authorizer's ALTER_CONFIGS denial is not reported per topic by " ++
          "this client) or did not apply it"
      | none => "the overrides could not be read back after AlterConfigs: " ++ e)

structure TransitionFailure where
  topic : String
  error : String
  desired : ExtTreeMap String String

structure TransitionSkip where
  topic : String
  reason : String
  desired : ExtTreeMap String String

structure TransitionOutcome where
  transition : String
  notRun : Option String := none
  applied : List String := []
  failed : List TransitionFailure := []
  skipped : List TransitionSkip := []
  exported : List String
  desiredStateKey : Option String

structure TopicConfigurationAdmission where
  transition : Transition
  topics : ExtTreeMap String TopicDesired

def notRunReason (transition : Transition) (passed kept : Bool) : Option String :=
  if transition = .none then some "transitionNone"
  else if !passed then some "verdictNotPass"
  else if !kept then some "topicsNotKept"
  else none

def ERROR_MAX_CHARS : Nat := 256

def bounded (error : String) : String :=
  let one := Runner.oneLine error
  if one.length ≤ ERROR_MAX_CHARS then one
  else String.ofList (one.toList.take (ERROR_MAX_CHARS - 1)) ++ "…"

/-- One turn of the loop over the `adminApi` topics. -/
def transitionTopic (now : Overrides) (within : Wait) (outcome : TransitionOutcome)
    (entry : String × TopicDesired) : Phase TransitionOutcome :=
  let (name, topic) := entry
  let desired := topic.finalOverrides
  let failing (error : String) : TransitionOutcome :=
    { outcome with failed := outcome.failed ++ [{ topic := name, error := bounded error, desired }] }
  match now[name]? with
  | some (.error e) =>
    return failing ("the topic's overrides could not be read before the transition: " ++ e)
  | none =>
    return failing "the topic's overrides were not in the configuration read's answer"
  | some (.ok current) =>
    match stepFor topic current with
    | .exported => return outcome
    | .skip reason =>
      return { outcome with skipped := outcome.skipped ++ [{ topic := name, reason, desired }] }
    | .alter set => do
      let altered : Except String Unit ← call (Call.alterTopicConfigs name set)
      match altered with
      | .error e => return failing ("AlterConfigs failed: " ++ e)
      | .ok () =>
        let answer ← readBack name set within
        match answer with
        | .ok () => return { outcome with applied := outcome.applied ++ [name] }
        | .error e => return failing e

def TopicConfigurationAdmission.routed (admission : TopicConfigurationAdmission) (route : String) :
    List (String × TopicDesired) :=
  admission.topics.toList.filter fun e => e.2.route == route

def run (admission : TopicConfigurationAdmission) (passed kept : Bool)
    (desiredStateKey : Option String) (within : Wait) : Phase TransitionOutcome :=
  let outcome : TransitionOutcome :=
    { transition := admission.transition.wireName
      exported := (admission.routed ROUTE_DESIRED_STATE_EXPORT).map Prod.fst
      desiredStateKey }
  match notRunReason admission.transition passed kept with
  | some reason => return { outcome with notRun := some reason }
  | none => do
    let entries := admission.routed ROUTE_ADMIN_API
    let now ← readOverrides (entries.map Prod.fst)
    entries.foldlM (transitionTopic now within) outcome

def Call.topics : Call → List String
  | .deleteTopics names => names
  | .describeTopicConfigs topics => topics
  | .alterTopicConfigs topic _ => [topic]

/-- A read in the log answered `set` for the topic. -/
def ReadAs (log : List (Event Call Answer)) (topic : String) (set : ExtTreeMap String String) : Prop :=
  ∃ names, ∃ answer : DescribeAnswer, ⟨.describeTopicConfigs names, answer⟩ ∈ log ∧ topic ∈ names ∧
    (overridesAnswered names answer)[topic]? = some (.ok set)

/-- The run's one read of the topics answered what the topic was created with, and nothing since was about
this topic. -/
def Unchanged (log : List (Event Call Answer)) (name : String) (topic : TopicDesired) : Prop :=
  ∃ first rest, log = first :: rest ∧ ReadAs [first] name topic.createdOverrides ∧
    ∀ e ∈ rest, name ∉ e.call.topics

def MaySend (admission : TopicConfigurationAdmission) (log : List (Event Call Answer)) : Call → Prop
  | .deleteTopics _ => False
  | .describeTopicConfigs _ => True
  | .alterTopicConfigs name set => ∃ topic, admission.topics[name]? = some topic ∧
      topic.route = ROUTE_ADMIN_API ∧ set = topic.finalOverrides ∧ Unchanged log name topic

/-- The topic's set was sent and answered, and then read back. -/
def SetAndReadBack (log : List (Event Call Answer)) (name : String) (topic : TopicDesired) : Prop :=
  ∃ before after, log = before ++ ⟨.alterTopicConfigs name topic.finalOverrides, .ok ()⟩ :: after ∧
    ReadAs after name topic.finalOverrides

theorem ReadAs.append {log more : List (Event Call Answer)} {topic : String}
    {set : ExtTreeMap String String} (read : ReadAs log topic set) : ReadAs (log ++ more) topic set := by
  obtain ⟨names, answer, member, rest⟩ := read
  exact ⟨names, answer, List.mem_append_left more member, rest⟩

theorem SetAndReadBack.append {log more : List (Event Call Answer)} {name : String}
    {topic : TopicDesired} (applied : SetAndReadBack log name topic) :
    SetAndReadBack (log ++ more) name topic := by
  obtain ⟨before, after, rfl, read⟩ := applied
  refine ⟨before, after ++ more, ?_, read.append⟩
  rw [List.append_assoc, List.cons_append]

def TransitionOutcome.listed (outcome : TransitionOutcome) : List String :=
  outcome.applied ++ outcome.skipped.map TransitionSkip.topic ++
    outcome.failed.map TransitionFailure.topic

section

variable {admission : TopicConfigurationAdmission} {log : List (Event Call Answer)}
  {outcome : TransitionOutcome} {name : String} {topic : TopicDesired}
  {set current : ExtTreeMap String String}

theorem listed_applied :
    { outcome with applied := outcome.applied ++ [name] }.listed.Perm (name :: outcome.listed) := by
  unfold TransitionOutcome.listed
  rw [List.append_assoc, List.append_assoc, List.append_assoc, List.singleton_append]
  exact List.perm_middle

theorem listed_skipped (skip : TransitionSkip) :
    { outcome with skipped := outcome.skipped ++ [skip] }.listed.Perm (skip.topic :: outcome.listed) := by
  unfold TransitionOutcome.listed
  rw [List.map_append, List.map_singleton, ← List.append_assoc,
    List.append_assoc (outcome.applied ++ _), List.singleton_append]
  exact List.perm_middle

theorem listed_failed (failure : TransitionFailure) :
    { outcome with failed := outcome.failed ++ [failure] }.listed.Perm
      (failure.topic :: outcome.listed) := by
  unfold TransitionOutcome.listed
  rw [List.map_append, List.map_singleton, ← List.append_assoc]
  exact List.perm_append_singleton _ _

theorem stepFor_alter (altered : stepFor topic current = .alter set) :
    current = topic.createdOverrides ∧ set = topic.finalOverrides := by
  unfold stepFor at altered
  split_ifs at altered with exported notRecorded changed
  cases altered
  exact ⟨(ExtTreeMap.toList_inj.mp (not_not.mp changed)).symm, rfl⟩

theorem route_ne (admin : topic.route = ROUTE_ADMIN_API) : topic.route ≠ ROUTE_DESIRED_STATE_EXPORT := by
  rw [admin]
  decide

theorem stepFor_exported (admin : topic.route = ROUTE_ADMIN_API) : stepFor topic current ≠ .exported := by
  unfold stepFor
  rw [if_neg (route_ne admin)]
  split_ifs <;> exact TopicStep.noConfusion

theorem readOverrides_meets {names : List String} (some_ : names ≠ []) :
    (readOverrides names).Meets (MaySend admission)
      (fun log' now => ∃ answer : DescribeAnswer,
        log' = log ++ [⟨.describeTopicConfigs names, answer⟩] ∧ now = overridesAnswered names answer)
      log := by
  unfold readOverrides
  rw [if_neg (by rwa [List.isEmpty_iff])]
  exact meets_ask trivial fun answer => meets_pure ⟨answer, rfl, rfl⟩

theorem readBackOnce_meets (last : Option (ExtTreeMap String String)) :
    (readBackOnce name set last).Meets (MaySend admission)
      (fun log' r => ∃ added, log' = log ++ added ∧
        (∀ e ∈ added, e.call = .describeTopicConfigs [name]) ∧
        ∀ value, r.1 = .done value → ReadAs added name set) log := by
  unfold readBackOnce
  refine meets_bind (readOverrides_meets (List.cons_ne_nil _ _)) ?_
  rintro log' now ⟨answer, rfl, rfl⟩
  have own : ∀ e ∈ [(⟨.describeTopicConfigs [name], answer⟩ : Event Call Answer)],
      e.call = .describeTopicConfigs [name] := by
    intro e member
    rw [List.mem_singleton.mp member]
  split
  · rename_i now held
    split_ifs with same
    · refine meets_pure ⟨_, rfl, own, fun value _ => ?_⟩
      refine ⟨[name], answer, List.mem_singleton_self _, List.mem_singleton_self _, ?_⟩
      rw [held, ExtTreeMap.toList_inj.mp same]
    · exact meets_pure ⟨_, rfl, own, fun value none_ => nomatch none_⟩
  · exact meets_pure ⟨_, rfl, own, fun value none_ => nomatch none_⟩
  · exact meets_pure ⟨_, rfl, own, fun value none_ => nomatch none_⟩

theorem settle_meets (early : Nat) : ∀ (last : Option (ExtTreeMap String String))
    (log : List (Event Call Answer)), (settle (readBackOnce name set) early last).Meets
      (MaySend admission)
      (fun log' r => ∃ added, log' = log ++ added ∧
        (∀ e ∈ added, e.call = .describeTopicConfigs [name]) ∧
        ∀ value, r.1 = .ok value → ReadAs added name set) log := by
  induction early with
  | zero =>
      intro last log
      unfold settle
      refine meets_bind (readBackOnce_meets last) ?_
      rintro log' ⟨settling, kept⟩ ⟨added, rfl, own, found⟩
      cases settling with
      | done value => exact meets_pure ⟨added, rfl, own, fun _ _ => found value rfl⟩
      | failed error => exact meets_pure ⟨added, rfl, own, fun value none_ => nomatch none_⟩
      | notYet error => exact meets_pure ⟨added, rfl, own, fun value none_ => nomatch none_⟩
  | succ early ih =>
      intro last log
      unfold settle
      refine meets_bind (readBackOnce_meets last) ?_
      rintro log' ⟨settling, kept⟩ ⟨added, rfl, own, found⟩
      cases settling with
      | done value => exact meets_pure ⟨added, rfl, own, fun _ _ => found value rfl⟩
      | failed error => exact meets_pure ⟨added, rfl, own, fun value none_ => nomatch none_⟩
      | notYet error =>
          refine meets_mono (ih kept (log ++ added)) ?_
          rintro log' r ⟨more, rfl, own', found'⟩
          refine ⟨added ++ more, List.append_assoc _ _ _, ?_, ?_⟩
          · intro e member
            exact (List.mem_append.mp member).elim (own e) (own' e)
          · intro value ended
            obtain ⟨names, answer, member, rest⟩ := found' value ended
            exact ⟨names, answer, List.mem_append_right added member, rest⟩

theorem readBack_meets (within : Wait) : (readBack name set within).Meets (MaySend admission)
    (fun log' r => ∃ added, log' = log ++ added ∧
      (∀ e ∈ added, e.call = .describeTopicConfigs [name]) ∧ (r = .ok () → ReadAs added name set))
    log := by
  unfold readBack
  refine meets_bind (settle_meets _ none log) ?_
  rintro log' ⟨answer, last⟩ ⟨added, rfl, own, found⟩
  cases answer with
  | ok value => exact meets_pure ⟨added, rfl, own, fun _ => found value rfl⟩
  | error e => exact meets_pure ⟨added, rfl, own, fun none_ => nomatch none_⟩

/-- What one turn of the loop adds to the log and to the outcome. -/
structure Turned (name : String) (topic : TopicDesired) (outcome : TransitionOutcome)
    (added : List (Event Call Answer)) (after : TransitionOutcome) : Prop where
  about : ∀ e ∈ added, e.call.topics = [name]
  listed : after.listed.Perm (name :: outcome.listed)
  notRun : after.notRun = outcome.notRun
  applied : ∀ n ∈ after.applied, n ∈ outcome.applied ∨ n = name ∧ SetAndReadBack added name topic

theorem Turned.failed {added : List (Event Call Answer)} {failure : TransitionFailure}
    (own : failure.topic = name) (about : ∀ e ∈ added, e.call.topics = [name]) :
    Turned name topic outcome added { outcome with failed := outcome.failed ++ [failure] } where
  about := about
  listed := own ▸ listed_failed failure
  notRun := rfl
  applied _ member := .inl member

theorem transitionTopic_meets {names : List String} {answer : DescribeAnswer} (within : Wait)
    {rest : List (Event Call Answer)} (held : admission.topics[name]? = some topic)
    (admin : topic.route = ROUTE_ADMIN_API) (asked : name ∈ names)
    (fresh : ∀ e ∈ rest, name ∉ e.call.topics) :
    (transitionTopic (overridesAnswered names answer) within outcome (name, topic)).Meets
      (MaySend admission)
      (fun log' after => ∃ added, log' = ⟨.describeTopicConfigs names, answer⟩ :: rest ++ added ∧
        Turned name topic outcome added after)
      (⟨.describeTopicConfigs names, answer⟩ :: rest) := by
  have quiet : ∀ e ∈ ([] : List (Event Call Answer)), e.call.topics = [name] :=
    fun e none_ => absurd none_ List.not_mem_nil
  unfold transitionTopic
  dsimp only
  split
  · exact meets_pure ⟨[], (List.append_nil _).symm, .failed rfl quiet⟩
  · exact meets_pure ⟨[], (List.append_nil _).symm, .failed rfl quiet⟩
  · rename_i current read
    split
    · rename_i exported
      exact absurd exported (stepFor_exported admin)
    · exact meets_pure ⟨[], (List.append_nil _).symm, quiet, listed_skipped _, rfl,
        fun n member => .inl member⟩
    · rename_i set altered
      obtain ⟨unchanged, rfl⟩ := stepFor_alter altered
      refine meets_ask ⟨topic, held, admin, rfl, _, rest, rfl, ?_, fresh⟩ fun answered => ?_
      · exact ⟨names, answer, List.mem_singleton_self _, asked, unchanged ▸ read⟩
      · have sent : ∀ e ∈ [(⟨.alterTopicConfigs name topic.finalOverrides, answered⟩ :
            Event Call Answer)], e.call.topics = [name] := by
          intro e member
          rw [List.mem_singleton.mp member]
          rfl
        cases answered with
        | error e => exact meets_pure ⟨_, rfl, .failed rfl sent⟩
        | ok u =>
            refine meets_bind (readBack_meets within) ?_
            rintro log' r ⟨added, rfl, own, found⟩
            have about : ∀ e ∈ [(⟨.alterTopicConfigs name topic.finalOverrides, .ok u⟩ :
                Event Call Answer)] ++ added, e.call.topics = [name] := by
              intro e member
              rcases List.mem_append.mp member with first | later
              · exact sent e first
              · rw [own e later]
                rfl
            rw [List.append_assoc]
            cases r with
            | error e => exact meets_pure ⟨_, rfl, .failed rfl about⟩
            | ok v =>
                refine meets_pure ⟨_, rfl, about, listed_applied, rfl, ?_⟩
                intro n member
                rcases List.mem_append.mp member with before | last
                · exact .inl before
                · exact .inr ⟨List.mem_singleton.mp last, [], added, rfl, found rfl⟩

theorem mem_routed {route : String} : (name, topic) ∈ admission.routed route ↔
    admission.topics[name]? = some topic ∧ topic.route = route := by
  unfold TopicConfigurationAdmission.routed
  rw [List.mem_filter, ExtTreeMap.mem_toList_iff_getElem?_eq_some, beq_iff_eq]

theorem routed_nodup (route : String) : ((admission.routed route).map Prod.fst).Nodup := by
  refine List.Nodup.sublist (List.filter_sublist.map _) ?_
  rw [ExtTreeMap.map_fst_toList_eq_keys]
  exact TreeMaps.keys_nodup _

structure Progress (admission : TopicConfigurationAdmission) (first : Event Call Answer)
    (front : List (String × TopicDesired)) (log : List (Event Call Answer))
    (outcome : TransitionOutcome) : Prop where
  grown : ∃ rest, log = first :: rest ∧ ∀ e ∈ rest, ∃ entry ∈ front, e.call.topics = [entry.1]
  listed : outcome.listed.Perm (front.map Prod.fst)
  notRun : outcome.notRun = none
  applied : ∀ n ∈ outcome.applied, ∃ topic, (n, topic) ∈ front ∧ SetAndReadBack log n topic

theorem transitions_meet {start : TransitionOutcome} (none_ : start.listed = [])
    (runs : start.notRun = none) (within : Wait)
    {names : List String} (asked : names = (admission.routed ROUTE_ADMIN_API).map Prod.fst)
    (answer : DescribeAnswer) :
    ((admission.routed ROUTE_ADMIN_API).foldlM
      (transitionTopic (overridesAnswered names answer) within) start).Meets (MaySend admission)
      (Progress admission ⟨.describeTopicConfigs names, answer⟩ (admission.routed ROUTE_ADMIN_API))
      [⟨.describeTopicConfigs names, answer⟩] := by
  have each : ∀ front entry back log outcome, front ++ entry :: back = admission.routed ROUTE_ADMIN_API →
      Progress admission ⟨.describeTopicConfigs names, answer⟩ front log outcome →
      (transitionTopic (overridesAnswered names answer) within outcome entry).Meets (MaySend admission)
        (Progress admission ⟨.describeTopicConfigs names, answer⟩ (front ++ [entry])) log := by
    rintro front ⟨name, topic⟩ back log outcome whole ⟨⟨rest, rfl, about⟩, listed, notRun, applied⟩
    have member : (name, topic) ∈ admission.routed ROUTE_ADMIN_API :=
      whole ▸ List.mem_append_right front List.mem_cons_self
    obtain ⟨held, admin⟩ := mem_routed.mp member
    have distinct : ((admission.routed ROUTE_ADMIN_API).map Prod.fst).Nodup := routed_nodup _
    rw [← whole, List.map_append, List.map_cons] at distinct
    have new : ∀ entry ∈ front, entry.1 ≠ name := fun entry earlier same =>
      (List.disjoint_of_nodup_append distinct) (List.mem_map_of_mem earlier)
        (same ▸ List.mem_cons_self)
    have fresh : ∀ e ∈ rest, name ∉ e.call.topics := by
      intro e later again
      obtain ⟨entry, earlier, same⟩ := about e later
      rw [same] at again
      exact new entry earlier (List.mem_singleton.mp again).symm
    refine meets_mono (transitionTopic_meets within held admin
      (asked ▸ List.mem_map_of_mem member) fresh) ?_
    rintro log' after ⟨added, rfl, turned⟩
    refine ⟨⟨rest ++ added, rfl, ?_⟩, ?_, turned.notRun.trans notRun, ?_⟩
    · intro e member
      rcases List.mem_append.mp member with earlier | now
      · obtain ⟨entry, done, same⟩ := about e earlier
        exact ⟨entry, List.mem_append_left _ done, same⟩
      · exact ⟨(name, topic), List.mem_append_right front List.mem_cons_self, turned.about e now⟩
    · rw [List.map_append, List.map_singleton]
      exact turned.listed.trans ((listed.cons name).trans (List.perm_append_singleton _ _).symm)
    · intro n said
      rcases turned.applied n said with earlier | ⟨rfl, now⟩
      · obtain ⟨t, done, set⟩ := applied n earlier
        exact ⟨t, List.mem_append_left _ done, set.append⟩
      · obtain ⟨before, after, rfl, read⟩ := now
        refine ⟨topic, List.mem_append_right front List.mem_cons_self, ?_⟩
        exact ⟨_ :: rest ++ before, after, (List.append_assoc _ _ _).symm, read⟩
  refine meets_foldlM each (List.nil_append _) ?_
  exact ⟨⟨[], rfl, fun e none_ => absurd none_ List.not_mem_nil⟩, none_ ▸ List.Perm.nil, runs,
    fun n said => absurd (List.mem_append_left _ (List.mem_append_left _ said))
      (none_ ▸ List.not_mem_nil)⟩

end

end Logweir.Phase9
