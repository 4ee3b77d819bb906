import Mathlib.Algebra.Group.Int.Defs
import Mathlib.Algebra.Group.Nat.Defs

/-!
# Schedules and runs

`weirkeeper::crds::{backup, backup_schedule}`: the `Backup` and the
`BackupSchedule` as the API server stores them, with the fields the schedule
controller reads or writes.
-/

set_option autoImplicit false

namespace Logweir.Schedule

abbrev Instant := Int

/-- `Duration::seconds`. -/
def seconds (n : Int) : Int := n * 1000000000

def u32Max : Nat := 2 ^ 32 - 1

def i32Max : Int := 2 ^ 31 - 1

/-- `i32::try_from(n).unwrap_or(i32::MAX)`. -/
def i32OfU32 (n : Nat) : Int := if (n : Int) ≤ i32Max then n else i32Max

structure LocalRef where
  name : String
  deriving DecidableEq, Repr

structure ArchiveRef where
  url : String
  secretRef : Option LocalRef
  deriving DecidableEq, Repr

structure TopicExclusions where
  topics : Option (List String)
  prefixes : Option (List String)
  deriving DecidableEq, Repr

inductive IncompleteDiscovery where
  | refuse
  | backUpVisibleTopics
  deriving DecidableEq, Repr

structure AllUserTopics where
  exclude : Option TopicExclusions
  incompleteDiscovery : IncompleteDiscovery
  deriving DecidableEq, Repr

inductive TriggerKind where
  | scheduled
  | catchUp
  | retry
  | manual
  deriving DecidableEq, Repr

structure Trigger where
  kind : TriggerKind
  attempt : Int
  retryOf : Option LocalRef
  timeZone : Option String
  deriving DecidableEq, Repr

structure ScheduleRef where
  name : String
  uid : Option String
  generation : Option Int
  runPolicySha256 : Option String
  deriving DecidableEq, Repr

structure BackupSpec where
  sourceRef : LocalRef
  topics : List String
  allUserTopics : Option AllUserTopics
  consumerGroups : Option (List String)
  archive : ArchiveRef
  destinationRef : Option LocalRef
  scheduleRef : Option ScheduleRef
  slot : Option String
  triggeredBy : String
  trigger : Option Trigger
  deadlineSeconds : Int
  deriving DecidableEq, Repr

structure Condition where
  type : String
  status : String
  observedGeneration : Option Int
  lastTransitionTime : Option Instant
  reason : Option String
  message : Option String
  deriving DecidableEq, Repr

structure BackupStatus where
  phase : Option String
  exitCode : Option Int
  exitReason : Option String
  conditions : Option (List Condition)
  deriving DecidableEq, Repr

structure OwnerReference where
  apiVersion : String
  kind : String
  name : String
  uid : String
  controller : Option Bool
  deriving DecidableEq, Repr

structure Backup where
  name : String
  namespace_ : Option String
  resourceVersion : Option Nat
  labels : List (String × String)
  annotations : List (String × String)
  ownerReferences : List OwnerReference
  spec : BackupSpec
  status : Option BackupStatus
  deriving DecidableEq, Repr

def insertKey (entries : List (String × String)) (key value : String) : List (String × String) :=
  (key, value) :: entries.filter fun e => e.1 ≠ key

inductive ConcurrencyPolicy where
  | forbid
  | allow
  deriving DecidableEq, Repr

inductive CatchUpPolicy where
  | none
  | latest
  deriving DecidableEq, Repr

structure RetrySpec where
  maxRetries : Int
  delaySeconds : Option Int
  deriving DecidableEq, Repr

structure Retention where
  keepLast : Option Int
  keepDays : Option Int
  deriving DecidableEq, Repr

structure BackupScheduleSpec where
  schedule : String
  sourceRef : LocalRef
  topics : List String
  allUserTopics : Option AllUserTopics
  consumerGroups : Option (List String)
  archive : ArchiveRef
  destinationRef : Option LocalRef
  concurrencyPolicy : ConcurrencyPolicy
  timeZone : Option String
  startingDeadlineSeconds : Option Int
  catchUpPolicy : Option CatchUpPolicy
  retry : Option RetrySpec
  activeDeadlineSeconds : Option Int
  retention : Option Retention
  suspend : Bool
  deriving DecidableEq, Repr

structure PolicyStatus where
  generation : Int
  runPolicySha256 : String
  timeZone : String
  tzdb : String
  effectiveSince : Instant
  evaluatedAt : Instant
  deriving DecidableEq, Repr

structure NextRun where
  runAt : Instant
  localTime : String
  adjustment : Option String
  deriving DecidableEq, Repr

structure LastSlot where
  slot : String
  dueAt : Instant
  attempt : Int
  disposition : String
  backupRef : Option LocalRef
  reason : String
  decidedAt : Instant
  deriving DecidableEq, Repr

structure MissedSlot where
  slot : String
  reason : String
  recordedAt : Instant
  deriving DecidableEq, Repr

structure MissedSlots where
  count : Int
  countCapped : Bool
  lastEvaluatedSlot : Option String
  recent : Option (List MissedSlot)
  deriving DecidableEq, Repr

structure PendingRun where
  name : String
  slot : String
  attempt : Int
  kind : String
  generation : Int
  deriving DecidableEq, Repr

structure ActiveRun where
  name : String
  kind : String
  attempt : Int
  deriving DecidableEq, Repr

structure MigrationBlocked where
  name : String
  reason : String
  deriving DecidableEq, Repr

structure ScheduleHistory where
  runCount : Int
  runCountCapped : Bool
  estimatedBytes : Int
  legacyOwnedRuns : Int
  legacyMigratableRuns : Int
  migrationBlocked : Option (List MigrationBlocked)
  ownershipScanComplete : Bool
  inventoriedAt : Instant
  deriving DecidableEq, Repr

structure BackupScheduleStatus where
  observedGeneration : Option Int := none
  policy : Option PolicyStatus := none
  nextRuns : Option (List NextRun) := none
  lastSlot : Option LastSlot := none
  missedSlots : Option MissedSlots := none
  pendingRun : Option PendingRun := none
  activeRuns : Option (List ActiveRun) := none
  lastFireTime : Option Instant := none
  nextFireTime : Option Instant := none
  activeBackupRef : Option LocalRef := none
  pendingBackupRef : Option LocalRef := none
  lastMissedSlot : Option String := none
  history : Option ScheduleHistory := none
  conditions : Option (List Condition) := none
  deriving DecidableEq, Repr

/-- A stored `BackupSchedule`.  The API server sets its namespace, its UID and its
resource version, so the three are not optional here. -/
structure BackupSchedule where
  name : String
  namespace_ : String
  uid : String
  generation : Option Int
  resourceVersion : Nat
  creationTimestamp : Option Instant
  labels : List (String × String)
  spec : BackupScheduleSpec
  status : Option BackupScheduleStatus
  deriving DecidableEq, Repr

def scheduleLabel : String := "logweir.dev/schedule"
def scheduleUidLabel : String := "logweir.dev/schedule-uid"
def slotLabel : String := "logweir.dev/slot"
def triggerLabel : String := "logweir.dev/trigger"
def attemptLabel : String := "logweir.dev/attempt"
def workspaceLabel : String := "logweir.dev/workspace"
def retainedFromOwnerAnnotation : String := "logweir.dev/history-retained-from-owner"
def triggeredBySchedule : String := "schedule"
def group : String := "logweir.dev"
def apiVersion : String := "logweir.dev/v1alpha1"
def backupScheduleKind : String := "BackupSchedule"

/-- The trigger an object declares, or the one read from an object older than
`spec.trigger`. -/
def declaredTrigger (backup : Backup) : TriggerKind × Nat × Option LocalRef :=
  match backup.spec.trigger with
  | some trigger =>
      (trigger.kind, if trigger.attempt < 0 then u32Max else trigger.attempt.toNat, trigger.retryOf)
  | none =>
      if backup.spec.triggeredBy = triggeredBySchedule then (.scheduled, 0, none)
      else (.manual, 0, none)

def legacyOwnerUid (backup : Backup) (schedule : String) : Option String :=
  (backup.ownerReferences.find? fun o =>
    o.controller = some true ∧ o.kind = backupScheduleKind ∧
      group.toList.isPrefixOf o.apiVersion.toList ∧ o.name = schedule ∧ o.uid ≠ "").map
    OwnerReference.uid

def isRunOfSchedule (backup : Backup) (name uid : String) : Bool :=
  let named := backup.spec.scheduleRef.any fun r => decide (r.name = name)
  (named && decide (backup.spec.scheduleRef.bind ScheduleRef.uid = some uid)) ||
    decide (legacyOwnerUid backup name = some uid) ||
    (named && decide (backup.annotations.lookup retainedFromOwnerAnnotation = some uid))

def participatesInConcurrency (backup : Backup) (scheduleName scheduleUid : String) : Bool :=
  isRunOfSchedule backup scheduleName scheduleUid &&
    decide ((declaredTrigger backup).1 ≠ .manual)

def backupIsTerminal (backup : Backup) : Bool :=
  match backup.status.bind BackupStatus.phase with
  | some phase => decide (phase = "Succeeded" ∨ phase = "Failed" ∨ phase = "Refused")
  | none => false

end Logweir.Schedule
