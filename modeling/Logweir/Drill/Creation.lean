import Logweir.Core.CreationStop
import Logweir.Core.ReplaySelection
import Logweir.Topics.Transition

/-!
# The creation of a restore's topics

`logweir::drill::phase0_admit::create_target_topics_from`.  The cluster is listed, asked once to
create every mapped topic, and what it answers for each name decides which list of the report the
name is in.  Every name is accounted for once, and a name without a definite answer is claimed by
nobody.
-/

set_option autoImplicit false

namespace Logweir.Drill.Creation

open Std (ExtTreeMap)
open Logweir.CreationStop Logweir.Topics

structure NewTopicSpec where
  name : String
  numPartitions : Int
  replicationFactor : Int
  configs : List (String × String)

structure TopicFacts extends Engine.TopicFacts where
  originalPartitionCount : Option Int

structure BackupSetFacts where
  topics : List TopicFacts

structure TopicPreflight where
  topicsCreated : List String

structure TopicConfigurationAdmission where
  topics : ExtTreeMap String TopicDesired

def TARGET_TOPIC_CONFIGS : List (String × String) :=
  [("message.timestamp.type", "CreateTime"), ("retention.ms", "-1")]

def pinnedConfigs : List (String × String) := TARGET_TOPIC_CONFIGS

def creationConfigs (desired : TopicDesired) : List (String × String) :=
  let order := (duringRestore .kafka3).map Prod.fst
  (desired.duringRestore.toList.mergeSort fun a b => decide (order.idxOf a.1 ≤ order.idxOf b.1)) ++
    desired.atCreation.toList

def restorePartitionCount (t : TopicFacts) : Int :=
  t.originalPartitionCount.getD (((t.partitions.map fun p => p.partitionId).max?).getD (-1) + 1)

def specOf (topicMapping : ExtTreeMap String String) (defaultReplicationFactor : Int)
    (configured : Option TopicConfigurationAdmission) (t : TopicFacts) : Option NewTopicSpec :=
  topicMapping[t.name]?.map fun dst =>
    let desired := configured.bind fun c => c.topics[dst]?
    { name := dst
      numPartitions := restorePartitionCount t
      replicationFactor := (desired.map fun d => min (d.replicationFactor.target : Int)
        (2 ^ 31 - 1)).getD defaultReplicationFactor
      configs := (desired.map creationConfigs).getD pinnedConfigs }

def specsOf (topicMapping : ExtTreeMap String String) (facts : BackupSetFacts)
    (defaultReplicationFactor : Int) (configured : Option TopicConfigurationAdmission) :
    List NewTopicSpec :=
  facts.topics.filterMap (specOf topicMapping defaultReplicationFactor configured)

abbrev Answer := String × Except String Unit

structure Cluster where
  /-- The topics it lists before any is created. -/
  before : Except String (List String)
  createTopics : List NewTopicSpec → Except String (List Answer)
  /-- The topics it lists when the run looks once more. -/
  after : Except String (List String)
  /-- Whether it serves a topic with so many partitions in time. -/
  awaitServed : String → Int → Except String Unit
  /-- How it says that a topic exists. -/
  topicAlreadyExists : String

def Cluster.isTopicAlreadyExists (cluster : Cluster) (error : String) : Bool :=
  error == cluster.topicAlreadyExists

def CREATED_TOPIC_SETTLE : Nat := 30

structure Unconfirmed where
  names : List String
  seen : Bool
  listingError : Option String

def Unconfirmed.none : Unconfirmed := ⟨[], true, .none⟩

def Unconfirmed.look (cluster : Cluster) (candidates : List String) : Unconfirmed :=
  match cluster.after with
  | .ok existing => ⟨candidates.filter fun name => existing.contains name, true, .none⟩
  | .error e => ⟨candidates, false, some e⟩

def TERMINAL_STATE_CREATED_TOPICS_LEFT : String := "CreatedTopicsLeft"

def TERMINAL_STATE_TARGET_TOPIC_APPEARED : String := "TargetTopicAppeared"

def LEFT_TOPIC_SENTENCE : String :=
  "created by this restore and left empty; remove it yourself once you have checked nothing " ++
  "writes to it"

def UNCONFIRMED_TOPIC_SENTENCE : String :=
  "exists now; this restore asked the cluster to create it and got no definite answer, so it " ++
  "may be this restore's or someone else's: check what it holds and who writes to it before " ++
  "you remove it"

def UNCONFIRMED_UNLISTED_TOPIC_SENTENCE : String :=
  "may exist now; this restore asked the cluster to create it, got no definite answer, and " ++
  "could not list the cluster afterwards: look for it, and check what it holds and who writes " ++
  "to it before you remove it"

structure CreationStop where
  reason : String
  appeared : List String
  left : List String
  unconfirmed : List String
  unconfirmedSeen : Bool
  message : String

def quoted (names : List String) : String :=
  ", ".intercalate (names.map fun n => "`" ++ n ++ "`")

/-- `str::trim_end`. -/
def trimEnd (s : String) : String := String.ofList (s.toList.rdropWhile Text.isWhitespace)

def sentence (why : String) : String :=
  if (trimEnd why).toList.getLast? = some '.' then trimEnd why else trimEnd why ++ "."

def appearedPart (appeared : List String) : List String :=
  if appeared.isEmpty then []
  else
    ["mapped target topic(s) " ++ quoted appeared ++ " exist now, although phase 0 found every " ++
      "mapped name absent: someone created them while this run was admitted (a producer on a " ++
      "cluster that auto-creates, an operator, a declarative owner). Creation is exclusive, so the " ++
      "restore stops here and writes nothing into a topic it did not create."]

def leftPart (left unconfirmed : List String) : String :=
  if !left.isEmpty then
    quoted left ++ ": " ++ LEFT_TOPIC_SENTENCE ++ ". Logweir never deletes a topic under a name it " ++
      "may not own: a producer could write to it between any check and the delete."
  else if unconfirmed.isEmpty then "This run created no topic."
  else "No CreateTopics answer says this run created a topic."

def unconfirmedPart (unconfirmed : Unconfirmed) : List String :=
  if unconfirmed.names.isEmpty then []
  else
    [quoted unconfirmed.names ++ ": " ++
      (if unconfirmed.seen then UNCONFIRMED_TOPIC_SENTENCE
        else UNCONFIRMED_UNLISTED_TOPIC_SENTENCE) ++ "." ++
      (unconfirmed.listingError.map fun e =>
        " (The cluster could not be listed: " ++ e ++ ".)").getD "" ++
      " Logweir deletes none of them."]

def CreationStop.new (appeared left : List String) (unconfirmed : Unconfirmed)
    (why : Option String) : CreationStop :=
  let reason := if appeared.isEmpty then TERMINAL_STATE_CREATED_TOPICS_LEFT
    else TERMINAL_STATE_TARGET_TOPIC_APPEARED
  let parts := appearedPart appeared ++ (why.map sentence).toList ++
    [leftPart left unconfirmed.names] ++ unconfirmedPart unconfirmed
  { reason
    appeared
    left
    unconfirmed := unconfirmed.names
    unconfirmedSeen := unconfirmed.seen
    message := reason ++ ": " ++ " ".intercalate parts }

def CreationStop.lists (stop : CreationStop) : CreationStopLists where
  appeared := .of stop.appeared
  left := .of stop.left
  unconfirmed := .of stop.unconfirmed
  unconfirmedSeen := stop.unconfirmedSeen && !stop.unconfirmed.isEmpty

def CreationStop.statusLineValue (stop : CreationStop) : String := stop.lists.lineValue

inductive DrillError where
  | operational (detail : String)
  | kafka (detail : String)
  | creationStopped (stop : CreationStop)

def creationStopped (appeared left : List String) (unconfirmed : Unconfirmed)
    (why : Option String) : DrillError :=
  if appeared.isEmpty && left.isEmpty && unconfirmed.names.isEmpty then
    .operational (why.getD "the target topics could not be created; nothing was created")
  else .creationStopped (.new appeared left unconfirmed why)

structure Classified where
  topicsCreated : List String
  lost : List String
  indefinite : List String
  failed : Option (String × String)

def answersFor (results : List Answer) (name : String) : List (Except String Unit) :=
  (results.filter fun r => r.1 == name).map Prod.snd

def Classified.push (cluster : Cluster) (results : List Answer) (c : Classified) (name : String) :
    Classified :=
  match answersFor results name with
  | [.ok ()] => { c with topicsCreated := c.topicsCreated ++ [name] }
  | [.error e] =>
      if cluster.isTopicAlreadyExists e then { c with lost := c.lost ++ [name] }
      else
        { c with
          indefinite := c.indefinite ++ [name]
          failed := c.failed.or (some (name, e)) }
  | _ => { c with indefinite := c.indefinite ++ [name] }

def sortUnstable (names : List String) : List String := names.mergeSort fun a b => decide (a ≤ b)

def inexactWhy (answered expected : List String) : String :=
  "CreateTopics answered for [" ++ ", ".intercalate answered ++ "] when this run asked for [" ++
    ", ".intercalate expected ++ "]: a name without exactly one answer was neither created nor " ++
    "refused, so the restore stops before the engine starts."

def failedWhy (specs : List NewTopicSpec) (name e : String) : String :=
  let configs := ((specs.find? fun spec => spec.name == name).map fun spec => spec.configs).getD
    pinnedConfigs
  "target topic `" ++ name ++ "` could not be created with the pinned configuration (" ++
    ", ".intercalate (configs.map fun kv => kv.1 ++ "=" ++ kv.2) ++ "): " ++ e

def unservedWhy (spec : NewTopicSpec) (e : String) : String :=
  "target topic `" ++ spec.name ++ "` was created but the cluster did not serve its " ++
    toString spec.numPartitions ++ " partition(s) within " ++ toString CREATED_TOPIC_SETTLE ++
    "s: " ++ e

def awaitAll (cluster : Cluster) (created : List String) : List NewTopicSpec →
    Except DrillError Unit
  | [] => .ok ()
  | spec :: specs =>
      match cluster.awaitServed spec.name spec.numPartitions with
      | .ok () => awaitAll cluster created specs
      | .error e =>
          .error (creationStopped [] created Unconfirmed.none (some (unservedWhy spec e)))

def decideAnswers (cluster : Cluster) (specs : List NewTopicSpec) (results : List Answer)
    (c : Classified) : Except DrillError Unit :=
  let answered := sortUnstable (results.map Prod.fst)
  let expected := sortUnstable (specs.map NewTopicSpec.name)
  if answered ≠ expected ∨ c.lost ≠ [] ∨ c.indefinite ≠ [] then
    let why := if answered ≠ expected then some (inexactWhy answered expected)
      else c.failed.map fun f => failedWhy specs f.1 f.2
    let unconfirmed := if c.indefinite.isEmpty then Unconfirmed.none
      else Unconfirmed.look cluster c.indefinite
    .error (creationStopped c.lost c.topicsCreated unconfirmed why)
  else awaitAll cluster c.topicsCreated specs

def failedCall (cluster : Cluster) (asked : List String) (e : String) : DrillError :=
  let unconfirmed := Unconfirmed.look cluster asked
  if unconfirmed.names.isEmpty then .kafka e
  else
    creationStopped [] [] unconfirmed
      (some ("CreateTopics failed as a whole, with no answer for any of [" ++
        ", ".intercalate asked ++ "]: " ++ e))

def appearedOf (existing : List String) (specs : List NewTopicSpec) : List String :=
  (specs.filter fun spec => existing.contains spec.name).map NewTopicSpec.name

/-- `create_target_topics_from`: its result, and the preflight it has written to. -/
def createTargetTopicsFrom (cluster : Cluster) (topicMapping : ExtTreeMap String String)
    (facts : BackupSetFacts) (defaultReplicationFactor : Int)
    (configured : Option TopicConfigurationAdmission) (preflight : TopicPreflight) :
    Except DrillError Unit × TopicPreflight :=
  let specs := specsOf topicMapping facts defaultReplicationFactor configured
  if specs.isEmpty then (.ok (), preflight)
  else
    match cluster.before with
    | .error e => (.error (.kafka e), preflight)
    | .ok existing =>
        let appeared := appearedOf existing specs
        if !appeared.isEmpty then
          (.error (creationStopped appeared [] Unconfirmed.none none), preflight)
        else
          let asked := specs.map NewTopicSpec.name
          match cluster.createTopics specs with
          | .error e => (.error (failedCall cluster asked e), preflight)
          | .ok results =>
              let c := asked.foldl (Classified.push cluster results)
                ⟨preflight.topicsCreated, [], [], none⟩
              (decideAnswers cluster specs results c, { preflight with topicsCreated := c.topicsCreated })

section Answers

variable {cluster : Cluster} {results : List Answer} {name : String}

/-- The name has one answer, and it is that the topic was created. -/
def Created (results : List Answer) (name : String) : Prop := answersFor results name = [.ok ()]

/-- The name has one answer, and it is that the topic exists already. -/
def ToldExists (cluster : Cluster) (results : List Answer) (name : String) : Prop :=
  ∃ e, answersFor results name = [.error e] ∧ cluster.isTopicAlreadyExists e = true

def Indefinite (cluster : Cluster) (results : List Answer) (name : String) : Prop :=
  ¬Created results name ∧ ¬ToldExists cluster results name

theorem not_toldExists (created : Created results name) : ¬ToldExists cluster results name := by
  rintro ⟨e, only, _⟩
  rw [Created, only] at created
  cases created

theorem push_cases (cluster : Cluster) (results : List Answer) (c : Classified) (name : String) :
    (Created results name ∧
      c.push cluster results name = { c with topicsCreated := c.topicsCreated ++ [name] }) ∨
    (ToldExists cluster results name ∧
      c.push cluster results name = { c with lost := c.lost ++ [name] }) ∨
    (Indefinite cluster results name ∧ ∃ failed,
      c.push cluster results name =
        { c with indefinite := c.indefinite ++ [name], failed := failed }) := by
  unfold Classified.push
  split
  · rename_i only
    exact .inl ⟨only, rfl⟩
  · rename_i e only
    split
    · rename_i exists_
      exact .inr (.inl ⟨⟨e, only, exists_⟩, rfl⟩)
    · rename_i other
      refine .inr (.inr ⟨⟨?_, ?_⟩, _, rfl⟩)
      · intro created
        rw [Created, only] at created
        cases created
      · rintro ⟨e', same, exists_⟩
        rw [only] at same
        cases same
        exact other exists_
  · rename_i notOk notError
    exact .inr (.inr ⟨⟨notOk, fun ⟨e, only, _⟩ => notError e only⟩, _, rfl⟩)

/-- The three lists of the loop hold the asked names by their answers. -/
structure Sorted (cluster : Cluster) (results : List Answer) (start : Classified)
    (asked : List String) (c : Classified) : Prop where
  topicsCreated : ∀ name, name ∈ c.topicsCreated ↔
    name ∈ start.topicsCreated ∨ name ∈ asked ∧ Created results name
  lost : ∀ name, name ∈ c.lost ↔
    name ∈ start.lost ∨ name ∈ asked ∧ ToldExists cluster results name
  indefinite : ∀ name, name ∈ c.indefinite ↔
    name ∈ start.indefinite ∨ name ∈ asked ∧ Indefinite cluster results name

theorem sorted_push (cluster : Cluster) (results : List Answer) (c : Classified) (name : String) :
    Sorted cluster results c [name] (c.push cluster results name) := by
  have only {other : String} {P : Prop} (here : P → other = name → False) :
      ¬(other ∈ [name] ∧ P) := fun both => here both.2 (List.mem_singleton.mp both.1)
  have added {l : List String} {P : String → Prop} (holds : P name) (other : String) :
      other ∈ l ++ [name] ↔ other ∈ l ∨ other ∈ [name] ∧ P other := by
    rw [List.mem_append]
    refine or_congr_right (iff_self_and.mpr fun same => ?_)
    rw [List.mem_singleton.mp same]
    exact holds
  have kept {l : List String} {P : String → Prop} (fails : ¬P name) (other : String) :
      other ∈ l ↔ other ∈ l ∨ other ∈ [name] ∧ P other := by
    refine (or_iff_left (only ?_)).symm
    rintro holds rfl
    exact fails holds
  rcases push_cases cluster results c name with
    ⟨created, pushed⟩ | ⟨exists_, pushed⟩ | ⟨indefinite, failed, pushed⟩
  · rw [pushed]
    exact ⟨added created, kept (not_toldExists created), kept fun none_ => none_.1 created⟩
  · rw [pushed]
    exact ⟨kept fun created => not_toldExists created exists_, added exists_,
      kept fun none_ => none_.2 exists_⟩
  · rw [pushed]
    exact ⟨kept indefinite.1, kept indefinite.2, added indefinite⟩

theorem sorted_foldl (cluster : Cluster) (results : List Answer) (asked : List String)
    (start : Classified) :
    Sorted cluster results start asked (asked.foldl (Classified.push cluster results) start) := by
  induction asked generalizing start with
  | nil =>
      have none_ {P : String → Prop} (name : String) : ¬(name ∈ ([] : List String) ∧ P name) :=
        fun both => absurd both.1 List.not_mem_nil
      exact ⟨fun name => (or_iff_left (none_ name)).symm, fun name => (or_iff_left (none_ name)).symm,
        fun name => (or_iff_left (none_ name)).symm⟩
  | cons name asked ih =>
      have first := sorted_push cluster results start name
      have later := ih (start.push cluster results name)
      have both {l : List String} {P : String → Prop} (other : String) :
          (other ∈ l ∨ other ∈ [name] ∧ P other) ∨ other ∈ asked ∧ P other ↔
            other ∈ l ∨ other ∈ name :: asked ∧ P other := by
        rw [or_assoc, ← or_and_right, ← List.mem_append, List.singleton_append]
      exact ⟨fun other => by rw [List.foldl_cons, later.topicsCreated, first.topicsCreated, both],
        fun other => by rw [List.foldl_cons, later.lost, first.lost, both],
        fun other => by rw [List.foldl_cons, later.indefinite, first.indefinite, both]⟩

end Answers

def DrillError.appeared : DrillError → List String
  | .creationStopped stop => stop.appeared
  | _ => []

def DrillError.left : DrillError → List String
  | .creationStopped stop => stop.left
  | _ => []

def DrillError.unconfirmed : DrillError → List String
  | .creationStopped stop => stop.unconfirmed
  | _ => []

/-- What `CreateTopics` answered this run.  It is called where topics are mapped and the listing
shows none of them, and a failed call answers for no name. -/
def answersOf (cluster : Cluster) (specs : List NewTopicSpec) : List Answer :=
  match cluster.before with
  | .ok existing =>
      if specs.isEmpty || !(appearedOf existing specs).isEmpty then []
      else (cluster.createTopics specs).toOption.getD []
  | .error _ => []

def Listed (cluster : Cluster) (name : String) : Prop :=
  ∃ existing, cluster.before = .ok existing ∧ name ∈ existing

/-- Every asked name has one answer, that it was created, and no other name has any. -/
structure AllCreated (results : List Answer) (asked : List String) : Prop where
  created : ∀ name ∈ asked, Created results name
  only : ∀ r ∈ results, r.1 ∈ asked

/-- Every asked name is in at most one of the three lists, and in the two that make a claim by what
is known of it. -/
structure Accounts (cluster : Cluster) (results : List Answer) (asked : List String)
    (error : DrillError) : Prop where
  apart : ∀ name ∈ asked, ¬(name ∈ error.appeared ∧ name ∈ error.left) ∧
    ¬(name ∈ error.appeared ∧ name ∈ error.unconfirmed) ∧
    ¬(name ∈ error.left ∧ name ∈ error.unconfirmed)
  left : ∀ name, name ∈ error.left ↔ name ∈ asked ∧ Created results name
  appeared : ∀ name, name ∈ error.appeared ↔
    name ∈ asked ∧ (Listed cluster name ∨ ToldExists cluster results name)
  unconfirmed : ∀ name ∈ error.unconfirmed, name ∈ asked
  indefinite : ∀ name, ¬Listed cluster name → Indefinite cluster results name →
    name ∉ error.left ∧ name ∉ error.appeared

section Stops

variable {cluster : Cluster}

theorem creationStopped_lists (appeared left : List String) (unconfirmed : Unconfirmed)
    (why : Option String) :
    (creationStopped appeared left unconfirmed why).appeared = appeared ∧
    (creationStopped appeared left unconfirmed why).left = left ∧
    (creationStopped appeared left unconfirmed why).unconfirmed = unconfirmed.names := by
  unfold creationStopped
  split
  · rename_i empty
    simp only [Bool.and_eq_true, List.isEmpty_iff] at empty
    exact ⟨empty.1.1.symm, empty.1.2.symm, empty.2.symm⟩
  · exact ⟨rfl, rfl, rfl⟩

theorem look_subset {candidates : List String} {name : String}
    (member : name ∈ (Unconfirmed.look cluster candidates).names) : name ∈ candidates := by
  unfold Unconfirmed.look at member
  split at member
  · exact (List.mem_filter.mp member).1
  · exact member

theorem awaitAll_cases (cluster : Cluster) (created : List String) (specs : List NewTopicSpec) :
    awaitAll cluster created specs = .ok () ∨ ∃ why,
      awaitAll cluster created specs =
        .error (creationStopped [] created Unconfirmed.none (some why)) := by
  induction specs with
  | nil => exact .inl rfl
  | cons spec specs ih =>
      rw [awaitAll]
      split
      · exact ih
      · exact .inr ⟨_, rfl⟩

theorem CreationStop.lists_genuine (stop : CreationStop) : stop.lists.Genuine where
  appeared := NameList.genuine_of _
  left := NameList.genuine_of _
  unconfirmed := NameList.genuine_of _
  flagged empty := by
    rw [CreationStop.lists, isEmpty_of] at empty
    rw [CreationStop.lists, empty, Bool.not_true, Bool.and_false]

end Stops

section Accounting

variable {cluster : Cluster} {specs : List NewTopicSpec} {results : List Answer}

theorem accounts_classified {asked : List String} {c : Classified} {error : DrillError}
    (sorted : Sorted cluster results ⟨[], [], [], none⟩ asked c)
    (unlisted : ∀ name ∈ asked, ¬Listed cluster name) (appeared : error.appeared = c.lost)
    (left : error.left = c.topicsCreated)
    (unconfirmed : ∀ name ∈ error.unconfirmed, name ∈ c.indefinite) :
    Accounts cluster results asked error := by
  have created (name : String) : name ∈ error.left ↔ name ∈ asked ∧ Created results name := by
    rw [left, sorted.topicsCreated]
    exact or_iff_right List.not_mem_nil
  have lost (name : String) :
      name ∈ error.appeared ↔ name ∈ asked ∧ ToldExists cluster results name := by
    rw [appeared, sorted.lost]
    exact or_iff_right List.not_mem_nil
  have indefinite (name : String) (member : name ∈ error.unconfirmed) :
      name ∈ asked ∧ Indefinite cluster results name :=
    ((sorted.indefinite name).mp (unconfirmed name member)).resolve_left List.not_mem_nil
  refine ⟨fun name _ => ⟨?_, ?_, ?_⟩, created, fun name => ?_, fun name member =>
    (indefinite name member).1, fun name _ none_ => ⟨fun member => none_.1 ((created name).mp member).2,
      fun member => none_.2 ((lost name).mp member).2⟩⟩
  · rintro ⟨here, there⟩
    exact not_toldExists ((created name).mp there).2 ((lost name).mp here).2
  · rintro ⟨here, there⟩
    exact (indefinite name there).2.2 ((lost name).mp here).2
  · rintro ⟨here, there⟩
    exact (indefinite name there).2.1 ((created name).mp here).2
  · rw [lost]
    refine and_congr_right fun member => (or_iff_right (unlisted name member)).symm

theorem decideAnswers_spec {c : Classified}
    (sorted : Sorted cluster results ⟨[], [], [], none⟩ (specs.map NewTopicSpec.name) c)
    (unlisted : ∀ name ∈ specs.map NewTopicSpec.name, ¬Listed cluster name) :
    (∀ done, decideAnswers cluster specs results c = .ok done →
      AllCreated results (specs.map NewTopicSpec.name)) ∧
    ∀ error, decideAnswers cluster specs results c = .error error →
      Accounts cluster results (specs.map NewTopicSpec.name) error := by
  have stops (unconfirmed : Unconfirmed) (why : Option String)
      (within : ∀ name ∈ unconfirmed.names, name ∈ c.indefinite) :
      Accounts cluster results (specs.map NewTopicSpec.name)
        (creationStopped c.lost c.topicsCreated unconfirmed why) := by
    have lists := creationStopped_lists c.lost c.topicsCreated unconfirmed why
    refine accounts_classified sorted unlisted lists.1 lists.2.1 fun name member => ?_
    rw [lists.2.2] at member
    exact within name member
  unfold decideAnswers
  simp only
  split
  · refine ⟨fun done ok => (by cases ok), fun error same => ?_⟩
    rw [← Except.error.inj same]
    apply stops
    intro name member
    split at member
    · exact absurd member List.not_mem_nil
    · exact look_subset member
  · rename_i exact_
    have same : sortUnstable (results.map Prod.fst) =
        sortUnstable (specs.map NewTopicSpec.name) := by
      by_contra other
      exact exact_ (.inl other)
    have noLost : c.lost = [] := by
      by_contra other
      exact exact_ (.inr (.inl other))
    have noIndefinite : c.indefinite = [] := by
      by_contra other
      exact exact_ (.inr (.inr other))
    refine ⟨fun done _ => ⟨fun name member => ?_, fun r member => ?_⟩, fun error failed => ?_⟩
    · by_contra notCreated
      have notTold : ¬ToldExists cluster results name := by
        intro told
        have lost := (sorted.lost name).mpr (.inr ⟨member, told⟩)
        rw [noLost] at lost
        exact absurd lost List.not_mem_nil
      have indefinite := (sorted.indefinite name).mpr (.inr ⟨member, notCreated, notTold⟩)
      rw [noIndefinite] at indefinite
      exact absurd indefinite List.not_mem_nil
    · have answered : r.1 ∈ sortUnstable (results.map Prod.fst) :=
        List.mem_mergeSort.mpr (List.mem_map.mpr ⟨r, member, rfl⟩)
      rw [same] at answered
      exact List.mem_mergeSort.mp answered
    · rcases awaitAll_cases cluster c.topicsCreated specs with ok | ⟨why, unserved⟩
      · rw [ok] at failed
        cases failed
      · rw [unserved, ← noLost] at failed
        rw [← Except.error.inj failed]
        exact stops _ _ fun name none_ => absurd none_ List.not_mem_nil

theorem accounts_silent {asked : List String} {error : DrillError}
    (unlisted : ∀ name ∈ asked, ¬Listed cluster name) (noAppeared : error.appeared = [])
    (noLeft : error.left = []) (within : ∀ name ∈ error.unconfirmed, name ∈ asked) :
    Accounts cluster [] asked error := by
  have silent (name : String) : ¬Created [] name ∧ ¬ToldExists cluster [] name :=
    ⟨fun created => absurd created (List.cons_ne_nil _ _).symm, fun ⟨_, told, _⟩ =>
      absurd told (List.cons_ne_nil _ _).symm⟩
  have empty {name : String} {l : List String} (nil : l = []) : name ∉ l := by
    rw [nil]
    exact List.not_mem_nil
  refine ⟨fun name _ => ⟨fun both => empty noLeft both.2, fun both => empty noAppeared both.1,
    fun both => empty noLeft both.1⟩, fun name => ?_, fun name => ?_, within,
    fun name _ _ => ⟨empty noLeft, empty noAppeared⟩⟩
  · exact ⟨fun member => absurd member (empty noLeft), fun both => absurd both.2 (silent name).1⟩
  · refine ⟨fun member => absurd member (empty noAppeared), fun both => ?_⟩
    rcases both.2 with listed | told
    · exact absurd listed (unlisted name both.1)
    · exact absurd told (silent name).2

theorem accounts_appeared {existing : List String} (listed : cluster.before = .ok existing) :
    Accounts cluster [] (specs.map NewTopicSpec.name)
      (creationStopped (appearedOf existing specs) [] Unconfirmed.none none) := by
  have lists := creationStopped_lists (appearedOf existing specs) [] Unconfirmed.none none
  have silent (name : String) : ¬Created [] name ∧ ¬ToldExists cluster [] name :=
    ⟨fun created => absurd created (List.cons_ne_nil _ _).symm, fun ⟨_, told, _⟩ =>
      absurd told (List.cons_ne_nil _ _).symm⟩
  have isListed (name : String) : Listed cluster name ↔ name ∈ existing := by
    refine ⟨fun ⟨other, found, member⟩ => ?_, fun member => ⟨existing, listed, member⟩⟩
    rw [listed] at found
    rw [Except.ok.inj found]
    exact member
  have appeared (name : String) : name ∈ appearedOf existing specs ↔
      name ∈ specs.map NewTopicSpec.name ∧ name ∈ existing := by
    unfold appearedOf
    simp only [List.mem_map, List.mem_filter, List.contains_iff_mem]
    constructor
    · rintro ⟨spec, ⟨member, here⟩, rfl⟩
      exact ⟨⟨spec, member, rfl⟩, here⟩
    · rintro ⟨⟨spec, member, rfl⟩, here⟩
      exact ⟨spec, ⟨member, here⟩, rfl⟩
  rw [Unconfirmed.none] at lists
  refine ⟨fun name _ => ?_, fun name => ?_, fun name => ?_, fun name member => ?_, ?_⟩
  · rw [Unconfirmed.none, lists.1, lists.2.1, lists.2.2]
    exact ⟨fun both => absurd both.2 List.not_mem_nil, fun both => absurd both.2 List.not_mem_nil,
      fun both => absurd both.2 List.not_mem_nil⟩
  · rw [Unconfirmed.none, lists.2.1]
    exact ⟨fun member => absurd member List.not_mem_nil, fun both => absurd both.2 (silent name).1⟩
  · rw [Unconfirmed.none, lists.1, appeared, isListed, or_iff_left (silent name).2]
  · rw [Unconfirmed.none, lists.2.2] at member
    exact absurd member List.not_mem_nil
  · intro name unlisted _
    rw [Unconfirmed.none, lists.1, lists.2.1]
    exact ⟨List.not_mem_nil, fun member => unlisted ((isListed name).mpr ((appeared name).mp member).2)⟩

end Accounting

section Run

variable (cluster : Cluster) (topicMapping : ExtTreeMap String String) (facts : BackupSetFacts)
  (defaultReplicationFactor : Int) (configured : Option TopicConfigurationAdmission)
  {preflight : TopicPreflight}

theorem createTargetTopicsFrom_spec (fresh : preflight.topicsCreated = []) :
    (∀ done after, createTargetTopicsFrom cluster topicMapping facts defaultReplicationFactor
        configured preflight = (.ok done, after) →
      AllCreated
        (answersOf cluster (specsOf topicMapping facts defaultReplicationFactor configured))
        ((specsOf topicMapping facts defaultReplicationFactor configured).map NewTopicSpec.name)) ∧
    ∀ error after, createTargetTopicsFrom cluster topicMapping facts defaultReplicationFactor
        configured preflight = (.error error, after) →
      Accounts cluster
        (answersOf cluster (specsOf topicMapping facts defaultReplicationFactor configured))
        ((specsOf topicMapping facts defaultReplicationFactor configured).map NewTopicSpec.name)
        error := by
  unfold createTargetTopicsFrom answersOf
  generalize specsOf topicMapping facts defaultReplicationFactor configured = specs
  simp only
  cases empty : specs.isEmpty with
  | true =>
      rw [List.isEmpty_iff.mp empty]
      refine ⟨fun done after _ => ⟨fun name none_ => absurd none_ List.not_mem_nil, ?_⟩,
        fun error after failed => by cases failed⟩
      intro r member
      split at member
      · exact absurd member List.not_mem_nil
      · exact absurd member List.not_mem_nil
  | false =>
      simp only [Bool.false_eq_true, if_false, Bool.false_or]
      cases before : cluster.before with
      | error e =>
          refine ⟨fun done after ok => (by cases ok), fun error after failed => ?_⟩
          cases failed
          refine accounts_silent ?_ rfl rfl fun name none_ => absurd none_ List.not_mem_nil
          rintro name _ ⟨existing, listed, _⟩
          rw [before] at listed
          cases listed
      | ok existing =>
          simp only
          by_cases appeared : appearedOf existing specs = []
          · have unlisted : ∀ name ∈ specs.map NewTopicSpec.name, ¬Listed cluster name := by
              rintro name member ⟨other, listed, here⟩
              rw [before] at listed
              cases listed
              obtain ⟨spec, asked, rfl⟩ := List.mem_map.mp member
              have found : spec.name ∈ appearedOf existing specs :=
                List.mem_map.mpr ⟨spec, List.mem_filter.mpr
                  ⟨asked, List.contains_iff_mem.mpr here⟩, rfl⟩
              rw [appeared] at found
              exact absurd found List.not_mem_nil
            simp only [appeared, List.isEmpty_nil, Bool.not_true, Bool.false_eq_true, if_false]
            cases called : cluster.createTopics specs with
            | error e =>
                refine ⟨fun done after ok => (by cases ok), fun error after failed => ?_⟩
                cases failed
                have lists := creationStopped_lists [] []
                  (Unconfirmed.look cluster (specs.map NewTopicSpec.name))
                  (some ("CreateTopics failed as a whole, with no answer for any of [" ++
                    ", ".intercalate (specs.map NewTopicSpec.name) ++ "]: " ++ e))
                unfold failedCall
                simp only
                split
                · exact accounts_silent unlisted rfl rfl fun name none_ =>
                    absurd none_ List.not_mem_nil
                · refine accounts_silent unlisted lists.1 lists.2.1 fun name member => ?_
                  rw [lists.2.2] at member
                  exact look_subset member
            | ok results =>
                have sorted := sorted_foldl cluster results (specs.map NewTopicSpec.name)
                  ⟨preflight.topicsCreated, [], [], none⟩
                rw [fresh] at sorted
                have decided := decideAnswers_spec sorted unlisted
                rw [fresh]
                exact ⟨fun done after same => decided.1 done (Prod.mk.inj same).1,
                  fun error after same => decided.2 error (Prod.mk.inj same).1⟩
          · have shown : (appearedOf existing specs).isEmpty = false := by
              rw [Bool.eq_false_iff]
              exact fun nil => appeared (List.isEmpty_iff.mp nil)
            simp only [shown, Bool.not_false, if_true]
            refine ⟨fun done after ok => (by cases ok), fun error after failed => ?_⟩
            cases failed
            exact accounts_appeared before

/-- A creation step that ends well has every asked name created and answered for once.  One that
stops accounts for every name once, by what is known of it, and its report is read as it was
written. -/
theorem creation_accounts_once {fromStr : String → Option JsonValues.Value}
    (reads : Json.Reads fromStr) (fresh : preflight.topicsCreated = []) :
    (∀ done after, createTargetTopicsFrom cluster topicMapping facts defaultReplicationFactor
        configured preflight = (.ok done, after) →
      AllCreated
        (answersOf cluster (specsOf topicMapping facts defaultReplicationFactor configured))
        ((specsOf topicMapping facts defaultReplicationFactor configured).map NewTopicSpec.name)) ∧
    (∀ error after, createTargetTopicsFrom cluster topicMapping facts defaultReplicationFactor
        configured preflight = (.error error, after) →
      Accounts cluster
        (answersOf cluster (specsOf topicMapping facts defaultReplicationFactor configured))
        ((specsOf topicMapping facts defaultReplicationFactor configured).map NewTopicSpec.name)
        error ∧
      ∀ stop, error = .creationStopped stop →
        parseValue fromStr stop.statusLineValue = some stop.lists ∧
        stop.statusLineValue.utf8ByteSize ≤ MAX_VALUE_BYTES) ∧
    ∀ (list : NameList) (keep : String → Bool) (atMost : Nat),
      (list.heldTo keep atMost).names.length ≤ (list.heldTo keep atMost).count ∧
        ((list.heldTo keep atMost).names.length ≤ atMost →
          (list.heldTo keep atMost).count ≤ atMost) := by
  obtain ⟨created, accounts⟩ := createTargetTopicsFrom_spec cluster topicMapping facts
    defaultReplicationFactor configured fresh
  refine ⟨created, fun error after failed => ⟨accounts error after failed, fun stop _ => ?_⟩,
    NameList.heldTo_bounds⟩
  exact ⟨parseValue_lineValue reads stop.lists_genuine,
    CreationStopLists.lineValue_le stop.lists_genuine⟩

end Run

def mixedFacts : BackupSetFacts where
  topics := ["audit", "ledger", "orders"].map fun name =>
    { name, partitions := [], originalPartitionCount := some 3 }

def mixedMapping : ExtTreeMap String String :=
  .ofList [("audit", "audit"), ("ledger", "ledger"), ("orders", "orders")]

def mixedCluster : Cluster where
  before := .ok []
  createTopics _ := .ok [("orders", .ok ()),
    ("audit", .error "TopicAlreadyExists (Broker: Topic already exists)"),
    ("ledger", .error "RequestTimedOut (Broker: Request timed out)")]
  after := .ok ["audit", "ledger", "orders"]
  awaitServed _ _ := .ok ()
  topicAlreadyExists := "TopicAlreadyExists (Broker: Topic already exists)"

/-- The step stops, and each of the three is in its own list. -/
theorem mixed_accounts_once :
    ∃ error after, createTargetTopicsFrom mixedCluster mixedMapping mixedFacts 3 none ⟨[]⟩ =
        (.error error, after) ∧
      "audit" ∈ error.appeared ∧ "orders" ∈ error.left ∧
      "ledger" ∉ error.left ∧ "ledger" ∉ error.appeared ∧
      ∀ stop, error = .creationStopped stop →
        parseValue Json.written stop.statusLineValue = some stop.lists := by
  have fresh : (⟨[]⟩ : TopicPreflight).topicsCreated = [] := rfl
  have once := creation_accounts_once mixedCluster mixedMapping mixedFacts 3 none
    Json.reads_written fresh
  have asked : (specsOf mixedMapping mixedFacts 3 none).map NewTopicSpec.name =
      ["audit", "ledger", "orders"] := rfl
  have audit : answersFor (answersOf mixedCluster (specsOf mixedMapping mixedFacts 3 none)) "audit" =
      [.error "TopicAlreadyExists (Broker: Topic already exists)"] := rfl
  have ledger : answersFor (answersOf mixedCluster (specsOf mixedMapping mixedFacts 3 none))
      "ledger" = [.error "RequestTimedOut (Broker: Request timed out)"] := rfl
  cases ran : createTargetTopicsFrom mixedCluster mixedMapping mixedFacts 3 none ⟨[]⟩ with
  | mk result after =>
      cases result with
      | ok done =>
          have created := (once.1 done after ran).created "audit" (by rw [asked]; decide)
          cases audit.symm.trans created
      | error error =>
          obtain ⟨accounts, read⟩ := once.2.1 error after ran
          have indefinite : Indefinite mixedCluster
              (answersOf mixedCluster (specsOf mixedMapping mixedFacts 3 none)) "ledger" := by
            refine ⟨fun created => ?_, ?_⟩
            · cases ledger.symm.trans created
            · rintro ⟨e, only, told⟩
              cases ledger.symm.trans only
              cases told
          have unlisted : ¬Listed mixedCluster "ledger" := by
            rintro ⟨existing, listed, member⟩
            cases listed
            exact absurd member List.not_mem_nil
          obtain ⟨notLeft, notAppeared⟩ := accounts.indefinite "ledger" unlisted indefinite
          exact ⟨error, after, rfl,
            (accounts.appeared "audit").mpr ⟨by rw [asked]; decide, .inr ⟨_, audit, rfl⟩⟩,
            (accounts.left "orders").mpr ⟨by rw [asked]; decide, rfl⟩, notLeft, notAppeared,
            fun stop same => (read stop same).1⟩

end Logweir.Drill.Creation
