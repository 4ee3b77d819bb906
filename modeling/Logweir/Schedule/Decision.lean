import Logweir.Schedule.Slots

/-!
# What one schedule needs

`weirkeeper::controllers::backup_schedule`, the pure half: the decision about the
latest due slot, its two refinements, and what the attempts of a slot say should
happen next.
-/

set_option autoImplicit false

namespace Logweir.Schedule

inductive SlotDecision where
  | suspended
  | unparseable (e : CronError)
  | unknownTimeZone (got : String)
  | retryNamesTooLong (error : SlotError)
  | invalidTopicSelection (errors : List FieldError)
  | invalidRunPolicy (errors : List FieldError)
  | noDueSlot (nextFire : Option Instant)
  | beforeCreation (due : Instant) (slot : String) (createdAt : Instant) (firedAt : Option Instant)
      (nextFire : Option Instant)
  | alreadyFired (due : Instant) (slot : String) (lastFire : Instant) (nextFire : Option Instant)
  | missed (due : Instant) (slot : String) (reason : MissedReason) (nextFire : Option Instant)
  | catchUpDue (due : Instant) (slot name : String) (nextFire : Option Instant)
  | caughtUp (due : Instant) (slot name : String) (nextFire : Option Instant)
  | catchUpBlocked (slot : String) (activeBackups : List String) (nextFire : Option Instant)
  | inProgress (slot : String) (attempt : Nat) (name : String) (nextFire : Option Instant)
  | retried (due : Instant) (slot name : String) (attempt : Nat) (nextFire : Option Instant)
  | retryPending (slot : String) (attempt : Nat) (dueAt : Instant) (nextFire : Option Instant)
  | retryBlocked (slot : String) (attempt : Nat) (activeBackups : List String)
      (nextFire : Option Instant)
  | retryExhausted (slot : String) (attempt maxRetries : Nat) (retryConfigured : Bool)
      (nextFire : Option Instant)
  | runFailed (slot : String) (attempt : Nat) (name : String) (nextFire : Option Instant)
  | slotNameUnavailable (slot name : String) (nextFire : Option Instant)
  | activeRunLimit (slot : String) (activeBackups : List String) (nextFire : Option Instant)
  | concurrencyBlocked (slot : String) (activeBackups : List String) (nextFire : Option Instant)
  | nameTooLong (slot : String) (error : SlotError) (nextFire : Option Instant)
  | due (due : Instant) (slot name : String) (nextFire : Option Instant)
  deriving DecidableEq, Repr

namespace SlotDecision

def reason : SlotDecision → String
  | suspended => "Suspended"
  | unparseable _ => "UnparseableSchedule"
  | unknownTimeZone _ => "UnknownTimeZone"
  | invalidTopicSelection _ => "InvalidTopicSelection"
  | invalidRunPolicy _ => "InvalidRunPolicy"
  | noDueSlot _ => "NoDueSlot"
  | missed .. => "SlotMissed"
  | concurrencyBlocked .. => "ConcurrencyBlocked"
  | catchUpBlocked .. => "CatchUpBlocked"
  | activeRunLimit .. => "ActiveRunLimit"
  | nameTooLong .. | retryNamesTooLong _ => "NameTooLong"
  | slotNameUnavailable .. => "SlotNameUnavailable"
  | caughtUp .. | catchUpDue .. => "CaughtUp"
  | retried .. => "RetryScheduled"
  | retryPending .. => "RetryPending"
  | retryBlocked .. => "RetryBlocked"
  | retryExhausted _ _ _ retryConfigured _ => if retryConfigured then "RetryExhausted" else "RunFailed"
  | runFailed .. => "RunFailed"
  | due .. | alreadyFired .. | inProgress .. | beforeCreation .. => "Scheduled"

def ready : SlotDecision → Bool
  | suspended | unparseable _ | unknownTimeZone _ | invalidTopicSelection _ | invalidRunPolicy _
  | noDueSlot _ | nameTooLong .. | retryNamesTooLong _ => false
  | _ => true

def nextFireTime : SlotDecision → Option Instant
  | suspended | unparseable _ | unknownTimeZone _ | invalidTopicSelection _ | invalidRunPolicy _
  | retryNamesTooLong _ => none
  | noDueSlot n | beforeCreation _ _ _ _ n | alreadyFired _ _ _ n | inProgress _ _ _ n
  | missed _ _ _ n | concurrencyBlocked _ _ n | catchUpDue _ _ _ n | caughtUp _ _ _ n
  | catchUpBlocked _ _ n | retried _ _ _ _ n | retryPending _ _ _ n | retryBlocked _ _ _ n
  | retryExhausted _ _ _ _ n | runFailed _ _ _ n | slotNameUnavailable _ _ n
  | activeRunLimit _ _ n | nameTooLong _ _ n | due _ _ _ n => n

def dueSlot : SlotDecision → Option (Instant × String)
  | due at_ slot _ _ | catchUpDue at_ slot _ _ | missed at_ slot _ _ | alreadyFired at_ slot _ _ =>
      some (at_, slot)
  | _ => none

def releases : SlotDecision → Bool
  | invalidTopicSelection _ | invalidRunPolicy _ => true
  | _ => false

end SlotDecision

/-- What the controller takes from the modules beside it, besides its cadences: the
run policy's checks and digest, the size estimate of a stored run, and the texts of
its conditions. -/
structure Surroundings extends Cadences where
  validateTopicSelection : BackupSpec → Except (List FieldError) Unit
  validateRunPolicy : BackupSpec → Except (List FieldError) Unit
  runPolicySha256 : BackupSpec → String
  serializedBytes : Backup → Int
  message : SlotDecision → String
  historyMessage : ScheduleHistory → String

def scheduledDeadlineSeconds : Int := 3600

def runPolicySpec (spec : BackupScheduleSpec) : BackupSpec where
  sourceRef := spec.sourceRef
  topics := spec.topics
  archive := spec.archive
  destinationRef := spec.destinationRef
  allUserTopics := spec.allUserTopics
  consumerGroups := spec.consumerGroups
  scheduleRef := none
  slot := none
  triggeredBy := triggeredBySchedule
  trigger := none
  deadlineSeconds := spec.activeDeadlineSeconds.getD scheduledDeadlineSeconds

def DeadlineProblem.error : DeadlineProblem → FieldError
  | .startingOutOfRange got min max => ⟨"spec.startingDeadlineSeconds", "cadence",
      s!"spec.startingDeadlineSeconds is {got}; accepted values are {min}..={max}"⟩
  | .activeOutOfRange got min max => ⟨"spec.activeDeadlineSeconds", "cadence",
      s!"spec.activeDeadlineSeconds is {got}; accepted values are {min}..={max}"⟩

def RetryPolicyProblem.error : RetryPolicyProblem → FieldError
  | .maxRetriesTooHigh got limit => ⟨"spec.retry.maxRetries", "cadence",
      s!"spec.retry.maxRetries is {got}; the highest accepted value is {limit}"⟩
  | .delayOutOfRange got min max => ⟨"spec.retry.delaySeconds", "cadence",
      s!"spec.retry.delaySeconds is {got}; accepted values are {min}..={max}"⟩

variable (S : Surroundings)

def retryRefusal (name : String) (retry : Option RetrySpec) : Option SlotDecision :=
  match retry.map RetrySpec.policy with
  | none => none
  | some policy =>
      match policy.validate with
      | .error problem => some (.invalidRunPolicy [problem.error])
      | .ok () =>
          match retryNamesFit name policy.maxRetries with
          | .error error => some (.retryNamesTooLong error)
          | .ok () => none

/-- What one schedule needs at `now`, the status unread. -/
def SlotDecision.decide (name : String) (spec : BackupScheduleSpec) (now : Instant) :
    SlotDecision :=
  if spec.suspend then .suspended
  else
    match S.validateTopicSelection (runPolicySpec spec) with
    | .error errors => .invalidTopicSelection errors
    | .ok () =>
    match S.validateRunPolicy (runPolicySpec spec) with
    | .error errors => .invalidRunPolicy errors
    | .ok () =>
    match S.parse spec.schedule spec.timeZone with
    | .error (.schedule e) => .unparseable e
    | .error (.unknownTimeZone got) => .unknownTimeZone got
    | .ok cadence =>
    match validateDeadlines spec.startingDeadlineSeconds spec.activeDeadlineSeconds with
    | .error problem => .invalidRunPolicy [problem.error]
    | .ok () =>
    match retryRefusal name spec.retry with
    | some refusal => refusal
    | none =>
    match S.latestDueSlot cadence now with
    | none => .noDueSlot (S.nextFireAfter cadence now)
    | some latest =>
    match scheduledBackupName name (S.slotName latest) with
    | .error error => .nameTooLong (S.slotName latest) error (S.nextFireAfter cadence now)
    | .ok objectName =>
    match admitSlot latest now (spec.startingDeadlineSeconds.getD defaultStartingDeadlineSeconds)
        (spec.catchUpPolicy.getD .none) none with
    | .scheduled => .due latest (S.slotName latest) objectName (S.nextFireAfter cadence now)
    | .catchUp => .catchUpDue latest (S.slotName latest) objectName (S.nextFireAfter cadence now)
    | .missed reason => .missed latest (S.slotName latest) reason (S.nextFireAfter cadence now)

def refineAgainstStatus (decision : SlotDecision) (lastFireTime effectiveSince : Option Instant) :
    SlotDecision :=
  let alreadyFired (due : Instant) := lastFireTime.filter fun last => due ≤ last
  match decision with
  | .missed due slot reason next =>
      match alreadyFired due with
      | some last => .alreadyFired due slot last next
      | none => .missed due slot reason next
  | .catchUpDue due slot name next =>
      match alreadyFired due with
      | some last => .alreadyFired due slot last next
      | none =>
          match effectiveSince.filter fun since => due < since with
          | some _ => .missed due slot .beforeRevision next
          | none => .catchUpDue due slot name next
  | .beforeCreation due slot createdAt _ next =>
      .beforeCreation due slot createdAt (alreadyFired due) next
  | other => other

def slotPredatesCreation (due : Instant) (createdAt : Option Instant) : Bool :=
  createdAt.any fun created => decide (due < created)

def boundByCreation (decision : SlotDecision) (createdAt : Option Instant) : SlotDecision :=
  match decision, createdAt with
  | .due due slot _ next, some created
  | .catchUpDue due slot _ next, some created
  | .missed due slot _ next, some created =>
      if slotPredatesCreation due createdAt then .beforeCreation due slot created none next
      else decision
  | _, _ => decision

structure RunPlan where
  slot : String
  name : String
  kind : TriggerKind
  attempt : Nat
  retryOf : Option String
  deriving DecidableEq, Repr

def TriggerKind.kindName : TriggerKind → String
  | .scheduled => "Scheduled"
  | .catchUp => "CatchUp"
  | .retry => "Retry"
  | .manual => "Manual"

def TriggerKind.label : TriggerKind → String
  | .scheduled => "scheduled"
  | .catchUp => "catch-up"
  | .retry => "retry"
  | .manual => "manual"

structure AttemptOutcome where
  succeeded : Bool
  retryable : Bool
  finishedAt : Instant
  deriving DecidableEq, Repr

structure ObservedAttempt where
  name : String
  attempt : Nat
  outcome : Option AttemptOutcome
  deriving DecidableEq, Repr

inductive AttemptDecision where
  | noAttempt
  | succeeded (name : String) (attempt : Nat)
  | inProgress (name : String) (attempt : Nat)
  | notRetryable (name : String) (attempt : Nat)
  | exhausted (attempt maxRetries : Nat) (retryConfigured : Bool)
  | pending (attempt : Nat) (dueAt : Instant)
  | retry (plan : RunPlan) (retryOf : String)
  | nameTooLong (error : SlotError)
  deriving DecidableEq, Repr

def terminalInstant (backup : Backup) : Option Instant := do
  let conditions ← (← backup.status).conditions
  (← conditions.find? fun c =>
    decide ((c.type = "Failed" ∨ c.type = "Complete") ∧ c.status = "True")).lastTransitionTime

def attemptOutcome (backup : Backup) : Option AttemptOutcome := do
  let status ← backup.status
  let phase ← status.phase
  if ¬ (phase = "Succeeded" ∨ phase = "Failed" ∨ phase = "Refused") then none
  else if phase = "Succeeded" then
    some ⟨true, false, (terminalInstant backup).getD 0⟩
  else
    let finishedAt := terminalInstant backup
    some ⟨false, finishedAt.isSome && isRetryable status.exitCode status.exitReason,
      finishedAt.getD 0⟩

/-- What the observed attempts of the latest due slot say. -/
def decideAttempt (scheduleName : String) (slot : Instant) (observed : List ObservedAttempt)
    (retry : Option RetryPolicy) (now : Instant) : AttemptDecision :=
  match observed.getLast? with
  | none => .noAttempt
  | some highest =>
  match observed.find? fun a => a.outcome.any AttemptOutcome.succeeded with
  | some done => .succeeded done.name done.attempt
  | none =>
  match highest.outcome with
  | none => .inProgress highest.name highest.attempt
  | some outcome =>
  match admitRetry slot (some slot) highest.attempt outcome.retryable outcome.finishedAt retry now with
  | .notRetryable => .notRetryable highest.name highest.attempt
  | .exhausted attempt maxRetries retryConfigured => .exhausted attempt maxRetries retryConfigured
  | .pending dueAt => .pending highest.attempt dueAt
  | .due attempt =>
      match scheduledBackupNameForAttempt scheduleName (S.slotName slot) attempt with
      | .ok name => .retry ⟨S.slotName slot, name, .retry, attempt, some highest.name⟩ highest.name
      | .error error => .nameTooLong error
  | .superseded latest => .pending highest.attempt latest

def scheduledRun (schedule : BackupSchedule) (scheduleUid : String) (plan : RunPlan) : Backup :=
  let policy := runPolicySpec schedule.spec
  let labels := [(scheduleLabel, schedule.name), (scheduleUidLabel, scheduleUid),
    (slotLabel, plan.slot), (triggerLabel, plan.kind.label), (attemptLabel, toString plan.attempt)]
  { name := plan.name
    namespace_ := some schedule.namespace_
    resourceVersion := none
    labels := match schedule.labels.lookup workspaceLabel with
      | some workspace => insertKey labels workspaceLabel workspace
      | none => labels
    annotations := []
    ownerReferences := []
    spec := { policy with
      scheduleRef := some ⟨schedule.name, some scheduleUid, schedule.generation,
        some (S.runPolicySha256 policy)⟩
      slot := some plan.slot
      trigger := some ⟨plan.kind, i32OfU32 plan.attempt, plan.retryOf.map LocalRef.mk,
        schedule.spec.timeZone⟩ }
    status := none }

end Logweir.Schedule
