import Logweir.Library.Text
import Logweir.Library.TreeMaps
import Mathlib.Algebra.Group.Nat.Defs
import Mathlib.Tactic.SplitIfs

/-!
# The topic configuration model and its portability table

`logweir_core::topic_configuration`: what a receipt records of a topic's
configuration, the class the table gives a key, and the rules of a plan's owner
declarations.
-/

set_option autoImplicit false

namespace Logweir.Topics

open Logweir.Text

def TOPIC_OVERRIDE_SOURCE : String := "dynamicTopicConfig"
def PORTABLE : String := "portable"
def INHERITED : String := "inherited"
def REMOVED_IN_KAFKA_4 : String := "removedInKafka4"
def CLUSTER_BOUND : String := "clusterBound"
def REQUIRES_TIERED_STORAGE : String := "requiresTieredStorage"
def PROVIDER_ONLY : String := "providerOnly"
def SECRET : String := "secret"
def OWNER_KINDS : List String := ["strimzi", "external"]
def MAX_OWNER_REFERENCE_CHARS : Nat := 256

structure ConfigEntry where
  value : Option String
  source : String
  portability : String
deriving DecidableEq, Repr

structure TopicOwner where
  kind : String
  basis : String
  reference : String
deriving DecidableEq, Repr

structure DeclaredOwner where
  topic : String
  kind : String
  reference : String
deriving DecidableEq, Repr

inductive KeyClass where
  | portable
  | removedInKafka4
  | clusterBound
  | requiresTieredStorage
deriving DecidableEq, Repr

def KeyClass.wireName : KeyClass → String
  | .portable => PORTABLE
  | .removedInKafka4 => REMOVED_IN_KAFKA_4
  | .clusterBound => CLUSTER_BOUND
  | .requiresTieredStorage => REQUIRES_TIERED_STORAGE

structure KeyRule where
  key : String
  class_ : KeyClass
deriving DecidableEq, Repr

/-- The portability table, in key order. -/
def TABLE : List KeyRule :=
  [⟨"cleanup.policy", .portable⟩,
    ⟨"compression.gzip.level", .portable⟩,
    ⟨"compression.lz4.level", .portable⟩,
    ⟨"compression.type", .portable⟩,
    ⟨"compression.zstd.level", .portable⟩,
    ⟨"delete.retention.ms", .portable⟩,
    ⟨"file.delete.delay.ms", .portable⟩,
    ⟨"flush.messages", .portable⟩,
    ⟨"flush.ms", .portable⟩,
    ⟨"follower.replication.throttled.replicas", .clusterBound⟩,
    ⟨"index.interval.bytes", .portable⟩,
    ⟨"leader.replication.throttled.replicas", .clusterBound⟩,
    ⟨"local.retention.bytes", .requiresTieredStorage⟩,
    ⟨"local.retention.ms", .requiresTieredStorage⟩,
    ⟨"max.compaction.lag.ms", .portable⟩,
    ⟨"max.message.bytes", .portable⟩,
    ⟨"message.downconversion.enable", .removedInKafka4⟩,
    ⟨"message.format.version", .removedInKafka4⟩,
    ⟨"message.timestamp.after.max.ms", .portable⟩,
    ⟨"message.timestamp.before.max.ms", .portable⟩,
    ⟨"message.timestamp.difference.max.ms", .removedInKafka4⟩,
    ⟨"message.timestamp.type", .portable⟩,
    ⟨"min.cleanable.dirty.ratio", .portable⟩,
    ⟨"min.compaction.lag.ms", .portable⟩,
    ⟨"min.insync.replicas", .portable⟩,
    ⟨"preallocate", .portable⟩,
    ⟨"remote.log.copy.disable", .requiresTieredStorage⟩,
    ⟨"remote.log.delete.on.disable", .requiresTieredStorage⟩,
    ⟨"remote.storage.enable", .requiresTieredStorage⟩,
    ⟨"retention.bytes", .portable⟩,
    ⟨"retention.ms", .portable⟩,
    ⟨"segment.bytes", .portable⟩,
    ⟨"segment.index.bytes", .portable⟩,
    ⟨"segment.jitter.ms", .portable⟩,
    ⟨"segment.ms", .portable⟩,
    ⟨"unclean.leader.election.enable", .portable⟩]

def ruleFor (key : String) : Option KeyRule := TABLE.find? fun r => r.key == key

def classify (key source : String) (sensitive : Bool) : String :=
  if sensitive then SECRET
  else if source ≠ TOPIC_OVERRIDE_SOURCE then INHERITED
  else
    match ruleFor key with
    | some r => r.class_.wireName
    | none => PROVIDER_ONLY

def referenceFits (reference : String) : Bool :=
  !(trim reference).isEmpty && reference.length ≤ MAX_OWNER_REFERENCE_CHARS &&
    !reference.toList.any isControl

def refuseDeclared (owner : DeclaredOwner) (named : List String) : Option String :=
  if !named.contains owner.topic then
    some ("source.topic_owners names topic " ++ debug owner.topic ++
      ", which is not one of source.topics")
  else if !OWNER_KINDS.contains owner.kind then
    some ("source.topic_owners[" ++ debug owner.topic ++ "].kind " ++ debug owner.kind ++
      " is not \"strimzi\" or \"external\"")
  else if !referenceFits owner.reference then
    some ("source.topic_owners[" ++ debug owner.topic ++ "].reference must be 1 to " ++
      toString MAX_OWNER_REFERENCE_CHARS ++ " characters with no control character")
  else none

def refuseDeclarationsAfter (seen : List String) (named : List String) :
    List DeclaredOwner → Option String
  | [] => none
  | owner :: owners =>
    match refuseDeclared owner named with
    | some why => some why
    | none =>
      if seen.contains owner.topic then
        some ("source.topic_owners declares topic " ++ debug owner.topic ++ " more than once")
      else refuseDeclarationsAfter (owner.topic :: seen) named owners

def refuseDeclarations (owners : List DeclaredOwner) (named : List String) : Option String :=
  refuseDeclarationsAfter [] named owners

def declaredOwner (owner : DeclaredOwner) : TopicOwner where
  kind := owner.kind
  basis := "declared"
  reference := owner.reference

def applyRoute (owned detectionRan : Bool) : String :=
  if owned then "desiredStateExport" else if detectionRan then "adminApi" else "unknown"

end Logweir.Topics

/-!
## A restore's target topic configuration, in stages

`logweir_core::topic_transition`.  Every recorded entry of a topic reaches the
target at its creation, after the verification, or never.  The main result says
the stages lose nothing and that nothing which could drop or re-stamp a restored
record is in force before the verdict.
-/

namespace Logweir.Topics

open Std (ExtTreeMap)
open Logweir.Results Logweir.Text

inductive Transition where
  | afterVerification
  | none
deriving DecidableEq, Repr

def TRANSITION_AFTER_VERIFICATION : String := "afterVerification"
def TRANSITION_NONE : String := "none"
def TRANSITIONS : List String := [TRANSITION_AFTER_VERIFICATION, TRANSITION_NONE]

def Transition.wireName : Transition → String
  | .afterVerification => TRANSITION_AFTER_VERIFICATION
  | .none => TRANSITION_NONE

structure TopicConfigurationPlan where
  transition : Transition
  owners : Option (List DeclaredOwner)
deriving DecidableEq, Repr

def TOPIC_CONFIGURATION_NOT_RECORDED : String := "TopicConfigurationNotRecorded"
def TOPIC_CLASS_DISAGREES : String := "TopicClassDisagrees"
def TOPIC_OWNER_NOT_CHECKED : String := "TopicOwnerNotChecked"
def CONFIG_CHANGED_SINCE_CREATION : String := "ConfigChangedSinceCreation"
def CONFIGURATION_NOT_RECORDED : String := "ConfigurationNotRecorded"
def LONG_MAX : String := "9223372036854775807"

def AFTER_VERIFICATION_KEYS : List String :=
  ["cleanup.policy", "local.retention.bytes", "local.retention.ms",
    "message.timestamp.after.max.ms", "message.timestamp.before.max.ms",
    "message.timestamp.difference.max.ms", "message.timestamp.type", "retention.bytes",
    "retention.ms"]

def MIN_INSYNC_REPLICAS : String := "min.insync.replicas"
def RF_SOURCE_FACTOR : String := "sourceFactor"
def RF_TARGET_BROKERS : String := "targetBrokers"
def RF_NOT_RECORDED : String := "notRecorded"
def RF_REASONS : List String := [RF_SOURCE_FACTOR, RF_TARGET_BROKERS, RF_NOT_RECORDED]
def ROUTE_ADMIN_API : String := "adminApi"
def ROUTE_DESIRED_STATE_EXPORT : String := "desiredStateExport"
def ROUTES : List String := [ROUTE_ADMIN_API, ROUTE_DESIRED_STATE_EXPORT]
def NOT_APPLIED_REMOVED : String := "removedInKafka4"

inductive TargetLine where
  | kafka3
  | kafka4
  | unknown
deriving DecidableEq, Repr

def duringRestore (line : TargetLine) : List (String × String) :=
  [("message.timestamp.type", "CreateTime"),
    ("retention.ms", "-1"),
    ("retention.bytes", "-1"),
    ("cleanup.policy", "delete"),
    ("message.timestamp.before.max.ms", LONG_MAX),
    ("message.timestamp.after.max.ms", LONG_MAX)] ++
    if line = .kafka3 then [("message.timestamp.difference.max.ms", LONG_MAX)] else []

inductive Stage where
  | atCreation
  | afterVerification
  | never (reason : String)
deriving DecidableEq, Repr

def stageOf (key class_ : String) (line : TargetLine) : Stage :=
  let deferred := AFTER_VERIFICATION_KEYS.contains key
  if class_ = PORTABLE ∨ class_ = REQUIRES_TIERED_STORAGE then
    if deferred then .afterVerification else .atCreation
  else if class_ = REMOVED_IN_KAFKA_4 ∧ line = .kafka3 then
    if deferred then .afterVerification else .atCreation
  else if class_ = REMOVED_IN_KAFKA_4 then .never NOT_APPLIED_REMOVED
  else if class_ = INHERITED then .never INHERITED
  else if class_ = CLUSTER_BOUND then .never CLUSTER_BOUND
  else if class_ = SECRET then .never SECRET
  else .never PROVIDER_ONLY

def rederivedClass (key : String) (entry : ConfigEntry) : String :=
  if entry.portability = SECRET then SECRET else classify key entry.source false

def synonym : List (String × String) :=
  [("cleanup.policy", "log.cleanup.policy"),
    ("delete.retention.ms", "log.cleaner.delete.retention.ms"),
    ("max.compaction.lag.ms", "log.cleaner.max.compaction.lag.ms"),
    ("max.message.bytes", "message.max.bytes"),
    ("message.timestamp.after.max.ms", "log.message.timestamp.after.max.ms"),
    ("message.timestamp.before.max.ms", "log.message.timestamp.before.max.ms"),
    ("message.timestamp.difference.max.ms", "log.message.timestamp.difference.max.ms"),
    ("message.timestamp.type", "log.message.timestamp.type"),
    ("min.compaction.lag.ms", "log.cleaner.min.compaction.lag.ms"),
    ("min.insync.replicas", "min.insync.replicas"),
    ("retention.bytes", "log.retention.bytes"),
    ("retention.ms", "log.retention.ms"),
    ("unclean.leader.election.enable", "unclean.leader.election.enable")]

def targetDefault (key : String) (broker : ExtTreeMap String String) : Option String :=
  (synonym.lookup key).bind fun name => broker[name]?

structure ReplicationChoice where
  source : Option Nat
  target : Nat
  reason : String
deriving DecidableEq, Repr

def replicationChoice (source brokers : Option Nat) (defaultReplicationFactor : Int) :
    ReplicationChoice :=
  match source.filter (fun f => f ≥ 1) with
  | some factor =>
    match brokers.filter (fun b => b ≥ 1) with
    | some b =>
      if b < factor then { source := some factor, target := b, reason := RF_TARGET_BROKERS }
      else { source := some factor, target := factor, reason := RF_SOURCE_FACTOR }
    | none => { source := some factor, target := factor, reason := RF_SOURCE_FACTOR }
  | none =>
    { source := none, target := (max defaultReplicationFactor 1).toNat, reason := RF_NOT_RECORDED }

structure NotApplied where
  key : String
  value : Option String
  portability : String
  reason : String
  targetDefault : Option String
deriving DecidableEq, Repr

structure Capped where
  source : String
  applied : String
deriving DecidableEq, Repr

structure TopicConfiguration where
  partitions : Option Nat
  replicationFactor : Option Nat
  entries : Option (ExtTreeMap String ConfigEntry)
  owner : Option TopicOwner

def TopicConfiguration.recorded (topic : TopicConfiguration) : List (String × ConfigEntry) :=
  (topic.entries.map fun entries => entries.toList).getD []

structure TopicDesired where
  sourceTopic : String
  partitions : Option Nat
  replicationFactor : ReplicationChoice
  duringRestore : ExtTreeMap String String
  atCreation : ExtTreeMap String String
  deferred : ExtTreeMap String String
  notApplied : List NotApplied
  capped : ExtTreeMap String Capped
  route : String
  owner : Option TopicOwner
  notRecorded : Bool

def TopicDesired.createdOverrides (d : TopicDesired) : ExtTreeMap String String :=
  d.duringRestore ∪ d.atCreation

def TopicDesired.finalOverrides (d : TopicDesired) : ExtTreeMap String String :=
  d.atCreation ∪ d.deferred

structure PlanInputs where
  plan : TopicConfigurationPlan
  model : Option (ExtTreeMap String TopicConfiguration)
  ownerDetection : List String
  /-- Source topic to target topic. -/
  mapping : ExtTreeMap String String
  line : TargetLine
  brokers : Option Nat
  defaultReplicationFactor : Int
  broker : ExtTreeMap String String

/-- `u32::from_str`. -/
def parseU32 (s : String) : Option Nat :=
  let digits :=
    match s.toList with
    | '+' :: rest => rest
    | chars => chars
  if digits.isEmpty || !digits.all Char.isDigit then none
  else
    let value := digits.foldl (fun n c => 10 * n + (c.toNat - 48)) 0
    if value < 2 ^ 32 then some value else none

def capMinInsync (value : String) (replicationFactor : Nat) : String :=
  match parseU32 (trim value) with
  | some n => if n > replicationFactor then toString replicationFactor else value
  | none => value

structure Sorted where
  atCreation : ExtTreeMap String String := ∅
  deferred : ExtTreeMap String String := ∅
  notApplied : List NotApplied := []
  capped : ExtTreeMap String Capped := ∅

/-- One turn of the loop over a topic's entries. -/
def sortEntry (source : String) (factor : Nat) (line : TargetLine)
    (broker : ExtTreeMap String String) (st : Sorted) (e : String × ConfigEntry) :
    Except String Sorted :=
  let (key, entry) := e
  let class_ := rederivedClass key entry
  if class_ ≠ entry.portability then
    .error (TOPIC_CLASS_DISAGREES ++ ": source topic `" ++ source ++ "` key `" ++ key ++
      "` is recorded as `" ++ entry.portability ++ "` and this build's table classes it `" ++
      class_ ++ "`; nothing was created")
  else
    match stageOf key class_ line, entry.value with
    | .atCreation, some value =>
      let applied := if key = MIN_INSYNC_REPLICAS then capMinInsync value factor else value
      .ok
        { st with
          atCreation := st.atCreation.insert key applied
          capped :=
            if applied ≠ value then st.capped.insert key { source := value, applied } else st.capped }
    | .afterVerification, some value => .ok { st with deferred := st.deferred.insert key value }
    | .never reason, value =>
      .ok
        { st with
          notApplied := st.notApplied ++
            [{ key
               value := if class_ = SECRET then none else value
               portability := entry.portability
               reason
               targetDefault := targetDefault key broker }] }
    | _, none =>
      .ok
        { st with
          notApplied := st.notApplied ++
            [{ key
               value := none
               portability := entry.portability
               reason := entry.portability
               targetDefault := none }] }

def desiredFor (source : String) (topic : TopicConfiguration) (owner : Option TopicOwner)
    (route : String) (inputs : PlanInputs) : Except String TopicDesired := do
  let factor := replicationChoice topic.replicationFactor inputs.brokers
    inputs.defaultReplicationFactor
  let st ← topic.recorded.foldlM (sortEntry source factor.target inputs.line inputs.broker) {}
  -- An owned topic is created with Logweir's settings only; its own are exported.
  let exported := route = ROUTE_DESIRED_STATE_EXPORT
  return {
    sourceTopic := source
    partitions := topic.partitions
    replicationFactor := factor
    duringRestore := TreeMaps.ofEntries (duringRestore inputs.line)
    atCreation := if exported then ∅ else st.atCreation
    deferred := if exported then st.deferred ∪ st.atCreation else st.deferred
    notApplied := st.notApplied
    capped := st.capped
    route
    owner
    notRecorded := topic.entries.isNone }

def planTopic (inputs : PlanInputs) (model : ExtTreeMap String TopicConfiguration)
    (source : String) : Except String TopicDesired :=
  match model[source]? with
  | none =>
    .error (TOPIC_CONFIGURATION_NOT_RECORDED ++ ": the bound point's configuration model has " ++
      "no entry for source topic `" ++ source ++ "`")
  | some topic => do
    let detectionRan := !inputs.ownerDetection.isEmpty || inputs.plan.owners.isSome
    let declared := ((inputs.plan.owners.getD []).find? fun o => o.topic == source).map declaredOwner
    let owner := declared.or topic.owner
    let route := applyRoute owner.isSome detectionRan
    refuseIf (!ROUTES.contains route)
      (TOPIC_OWNER_NOT_CHECKED ++ ": source topic `" ++ source ++ "` has no recorded owner and " ++
        "its backup looked for none (owner_detection is empty); state the owners in " ++
        "target.topic_configuration.owners (`[]` when no topic has one), or restore from " ++
        "a point whose backup looked")
    desiredFor source topic owner route inputs

/-- Every topic's desired state, keyed by target topic. -/
def planTopics (inputs : PlanInputs) : Except String (ExtTreeMap String TopicDesired) :=
  match inputs.model with
  | none =>
    .error (TOPIC_CONFIGURATION_NOT_RECORDED ++ ": the plan asks for target.topic_configuration " ++
      "and the bound recovery point records no configuration model (a plan bound to no point, " ++
      "or a receipt before format 1.3.0); restore without the block, or from a point " ++
      "backed up by this build")
  | some model => do
    let sources := inputs.mapping.keys
    match inputs.plan.owners.bind fun owners => refuseDeclarations owners sources with
    | some why =>
      throw ("target.topic_configuration.owners is refused: " ++
        why.replace "source.topic_owners" "target.topic_configuration.owners")
    | none =>
      inputs.mapping.toList.foldlM (fun out e => do
        let desired ← planTopic inputs model e.1
        return out.insert e.2 desired) ∅

inductive TopicStep where
  | alter (overrides : ExtTreeMap String String)
  | exported
  | skip (reason : String)

def stepFor (topic : TopicDesired) (overridesNow : ExtTreeMap String String) : TopicStep :=
  if topic.route = ROUTE_DESIRED_STATE_EXPORT then .exported
  else if topic.notRecorded then .skip CONFIGURATION_NOT_RECORDED
  else if topic.createdOverrides.toList ≠ overridesNow.toList then
    .skip CONFIG_CHANGED_SINCE_CREATION
  else .alter topic.finalOverrides

structure DesiredStateRef where
  key : String
  sha256 : String
  bytes : Nat
deriving DecidableEq, Repr

structure TopicConfigurationBlock where
  transition : String
  targetLine : String
  topics : ExtTreeMap String TopicDesired
  desiredState : Option DesiredStateRef

inductive BlockFault where
  | transition
  | topic
  | desiredState
  | secret
deriving DecidableEq, Repr

def isDigest (sha256 : String) : Bool :=
  "sha256:".toList.isPrefixOf sha256.toList &&
    (let hex := sha256.toList.drop 7
     hex.length == 64 && hex.all fun c => c.isDigit || ('a' ≤ c && c ≤ 'f'))

def blockFault (block : TopicConfigurationBlock) : Option BlockFault :=
  let topics := block.topics.toList.map Prod.snd
  let exported := topics.any fun t => t.route == ROUTE_DESIRED_STATE_EXPORT
  let shaped := block.desiredState.all fun d => isDigest d.sha256
  if !TRANSITIONS.contains block.transition then some .transition
  else if topics.any (fun t => !ROUTES.contains t.route ||
      !RF_REASONS.contains t.replicationFactor.reason || t.replicationFactor.target == 0) then
    some .topic
  else if exported != block.desiredState.isSome || !shaped then some .desiredState
  else if topics.any (fun t => t.notApplied.any fun n =>
      (n.portability == SECRET) == n.value.isSome) then some .secret
  else none

end Logweir.Topics
