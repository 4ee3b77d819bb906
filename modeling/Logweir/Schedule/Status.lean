import Logweir.Schedule.Decision

/-!
# What one reconcile writes

The mutable half of one reconcile, the two `/status` merge patches it sends, and
what a patch makes of a stored status.  A block sent under a key replaces the stored
block: every field the new one leaves out is sent as `null`.
-/

set_option autoImplicit false

namespace Logweir.Schedule

def maxActiveRuns : Nat := 10
def recentMissedSlots : Nat := 10

def i64SaturatingAdd (a b : Int) : Int := min (a + b) (2 ^ 63 - 1)

inductive PendingRefUpdate where
  | keep
  | clear
  deriving DecidableEq, Repr

structure Reconcile where
  history : Option ScheduleHistory
  created : Option String
  alreadyExisted : Bool
  firedDue : Option Instant
  active : List ActiveRun
  pending : PendingRefUpdate
  lastSlot : Option LastSlot
  missed : Option MissedSlots
  statusWriteBase : BackupSchedule

/-- `status.lastSlot.disposition`. -/
def dispositionOf : SlotDecision → String
  | .due .. | .alreadyFired .. => "Admitted"
  | .caughtUp .. | .catchUpDue .. => "CaughtUp"
  | .retried .. => "Retried"
  | .missed .. => "Missed"
  | .concurrencyBlocked .. | .catchUpBlocked .. | .retryBlocked .. | .activeRunLimit .. => "Blocked"
  | .slotNameUnavailable .. => "NameUnavailable"
  | .runFailed .. => "Failed"
  | .retryExhausted .. => "Exhausted"
  | _ => "Admitted"

def missedReason : SlotDecision → Option String
  | .missed _ _ .pastStartingDeadline _ => some "PastStartingDeadline"
  | .missed _ _ .beforeRevision _ => some "BeforeRevision"
  | .slotNameUnavailable .. => some "NameUnavailable"
  | .concurrencyBlocked .. | .catchUpBlocked .. | .activeRunLimit .. => some "ConcurrencyBlocked"
  | _ => none

variable (S : Surroundings)

def Reconcile.recordSlot (work : Reconcile) (decision : SlotDecision) (slot : String) (due : Instant)
    (attempt : Nat) (backup : Option String) (now : Instant) : Reconcile :=
  { work with lastSlot := some ⟨slot, due, i32OfU32 attempt, dispositionOf decision,
      backup.map LocalRef.mk, decision.reason, now⟩ }

/-- Count the slots that came due between the last one decided about and this one. -/
def Reconcile.accountSkipped (work : Reconcile) (schedule : BackupSchedule) (decision : SlotDecision)
    (slot : String) (due now : Instant) (finalDisposition : Bool) : Reconcile :=
  let missed := work.missed.getD ⟨0, false, none, none⟩
  if ¬ finalDisposition ∨ missed.lastEvaluatedSlot = some slot then work
  else
    let previous := (missed.lastEvaluatedSlot.bind S.slotInstant).filter fun previous => previous < due
    let skipped := previous.bind fun previous =>
      (S.parse schedule.spec.schedule schedule.spec.timeZone).toOption.map fun cadence =>
        S.skippedSlots cadence previous due maxSkippedSlotEnumeration
    let missed := match skipped with
      | some skipped =>
          { missed with
            count := i64SaturatingAdd missed.count skipped.count
            countCapped := missed.countCapped || skipped.capped || skipped.horizonReached }
      | none => missed
    let (count, recent) := match missedReason decision with
      | some reason => (i64SaturatingAdd missed.count 1, [MissedSlot.mk slot reason now])
      | none =>
          (missed.count,
            if 0 < (skipped.map SkippedSlots.count).getD 0 then
              [MissedSlot.mk slot "ControllerUnavailable" now]
            else [])
    let all := if recent.isEmpty then missed.recent
      else some ((recent ++ missed.recent.getD []).take recentMissedSlots)
    { work with missed := some ⟨count, missed.countCapped, some slot, all⟩ }

def currentCondition (conditions : Option (List Condition)) (type : String) : Option Condition :=
  conditions.bind fun cs => cs.find? fun c => c.type = type

def mergeCondition (existing : Option Condition) (next : Condition) : Condition :=
  match existing with
  | some c =>
      if c.status = next.status ∧ c.reason = next.reason then
        { next with lastTransitionTime := c.lastTransitionTime }
      else next
  | none => next

def historyLargeRuns : Int := 2000
def historyLargeBytes : Int := 64 * 1024 * 1024

def historyRetained (history : ScheduleHistory) : String × String :=
  if (history.migrationBlocked.getD []) ≠ [] then ("False", "MigrationBlocked")
  else if 0 < history.legacyMigratableRuns then ("False", "LegacyOwnerReferencesRemain")
  else if 0 < history.legacyOwnedRuns then ("False", "ActiveLegacyRunsOwned")
  else if ¬ history.ownershipScanComplete then ("False", "MigrationBlocked")
  else if historyLargeRuns < history.runCount ∨ historyLargeBytes < history.estimatedBytes ∨
      history.runCountCapped then ("True", "HistoryLarge")
  else ("True", "Retained")

def historyCondition (history : ScheduleHistory) (existing : Option Condition)
    (observedGeneration : Option Int) (now : Instant) : Condition :=
  mergeCondition existing ⟨"HistoryRetained", (historyRetained history).1, observedGeneration,
    some now, some (historyRetained history).2, some (S.historyMessage history)⟩

def retentionReportWithdrawnMessage : String :=
  "spec.retention no longer reports; use a RetentionPolicy"

/-- A `/status` merge patch: `none` is a key left out, and of the keys that can be
cleared `some none` is `null`. -/
structure StatusPatch where
  observedGeneration : Option Int := none
  policy : Option PolicyStatus := none
  nextRuns : Option (List NextRun) := none
  lastSlot : Option LastSlot := none
  missedSlots : Option MissedSlots := none
  pendingRun : Option (Option PendingRun) := none
  activeRuns : Option (List ActiveRun) := none
  lastFireTime : Option Instant := none
  nextFireTime : Option (Option Instant) := none
  activeBackupRef : Option (Option LocalRef) := none
  pendingBackupRef : Option (Option LocalRef) := none
  lastMissedSlot : Option String := none
  history : Option ScheduleHistory := none
  conditions : Option (List Condition) := none
  deriving DecidableEq, Repr

def StatusPatch.apply (p : StatusPatch) (s : BackupScheduleStatus) : BackupScheduleStatus where
  observedGeneration := p.observedGeneration.or s.observedGeneration
  policy := p.policy.or s.policy
  nextRuns := p.nextRuns.or s.nextRuns
  lastSlot := p.lastSlot.or s.lastSlot
  missedSlots := p.missedSlots.or s.missedSlots
  pendingRun := p.pendingRun.getD s.pendingRun
  activeRuns := p.activeRuns.or s.activeRuns
  lastFireTime := p.lastFireTime.or s.lastFireTime
  nextFireTime := p.nextFireTime.getD s.nextFireTime
  activeBackupRef := p.activeBackupRef.getD s.activeBackupRef
  pendingBackupRef := p.pendingBackupRef.getD s.pendingBackupRef
  lastMissedSlot := p.lastMissedSlot.or s.lastMissedSlot
  history := p.history.or s.history
  conditions := p.conditions.or s.conditions

def statusUnchanged (current : Option BackupScheduleStatus) (p : StatusPatch) : Bool :=
  current.any fun status => decide (p.apply status = status)

def storedConditions (schedule : BackupSchedule) : Option (List Condition) :=
  schedule.status.bind BackupScheduleStatus.conditions

def reservationPatch (schedule : BackupSchedule) (decision : SlotDecision) (plan : RunPlan)
    (now : Instant) : StatusPatch where
  activeBackupRef := some none
  pendingBackupRef := some (some ⟨plan.name⟩)
  pendingRun := some (some ⟨plan.name, plan.slot, i32OfU32 plan.attempt, plan.kind.kindName,
    schedule.generation.getD 0⟩)
  nextFireTime := some decision.nextFireTime
  conditions := some [mergeCondition (currentCondition (storedConditions schedule) "Ready")
    ⟨"Ready", "True", schedule.generation, some now, some "Scheduled",
      some (S.message decision ++ "; concurrencyPolicy " ++
        (match schedule.spec.concurrencyPolicy with
          | .forbid => "Forbid"
          | .allow => "Allow") ++
        " atomically admitted this slot and is creating the Backup")⟩]

def policyStatus (schedule : BackupSchedule) (now : Instant) : PolicyStatus :=
  let generation := schedule.generation.getD 0
  let unchanged := (schedule.status.bind BackupScheduleStatus.policy).filter fun p =>
    p.generation = generation
  { generation := generation
    runPolicySha256 := S.runPolicySha256 (runPolicySpec schedule.spec)
    timeZone := schedule.spec.timeZone.getD "UTC"
    tzdb := tzdbSource
    effectiveSince := (unchanged.map PolicyStatus.effectiveSince).getD now
    evaluatedAt := (unchanged.map PolicyStatus.evaluatedAt).getD now }

def nextRunsOf (schedule : BackupSchedule) (decision : SlotDecision) : List NextRun :=
  match decision.nextFireTime with
  | none => []
  | some base =>
      match S.parse schedule.spec.schedule schedule.spec.timeZone with
      | .error _ => []
      | .ok cadence => S.nextRuns cadence (base - seconds 1) statusNextRuns

def auditedSlot : SlotDecision → Option String
  | .missed _ slot _ _ | .concurrencyBlocked slot _ _ | .catchUpBlocked slot _ _
  | .activeRunLimit slot _ _ | .slotNameUnavailable slot _ _ => some slot
  | _ => none

def keepDecidedAt (stored : Option LastSlot) (next : LastSlot) : LastSlot :=
  match stored with
  | some old => if { next with decidedAt := old.decidedAt } = old then old else next
  | none => next

def admittedDue : SlotDecision → Option Instant
  | .due at_ _ _ _ | .caughtUp at_ _ _ _ | .retried at_ _ _ _ _ => some at_
  | _ => none

def finalConditions (schedule : BackupSchedule) (decision : SlotDecision) (work : Reconcile)
    (now : Instant) : List Condition :=
  let current := currentCondition (storedConditions schedule)
  let retained := current "HistoryRetained"
  [mergeCondition (current "Ready") ⟨"Ready", if decision.ready then "True" else "False",
      schedule.generation, some now, some decision.reason, some (S.message decision)⟩] ++
    (match work.history.or (schedule.status.bind BackupScheduleStatus.history) with
      | some history => [historyCondition S history retained schedule.generation now]
      | none => retained.toList) ++
    (if schedule.spec.retention.isSome then
      [mergeCondition (current "RetentionReportWithdrawn") ⟨"RetentionReportWithdrawn", "True",
        schedule.generation, some now, some "UseRetentionPolicy",
        some retentionReportWithdrawnMessage⟩]
    else [])

def statusPatchWithRefs (schedule : BackupSchedule) (decision : SlotDecision) (work : Reconcile)
    (now : Instant) : StatusPatch where
  observedGeneration := some (schedule.generation.getD 0)
  policy := some (policyStatus S schedule now)
  nextRuns := some (nextRunsOf S schedule decision)
  nextFireTime := some decision.nextFireTime
  lastMissedSlot := auditedSlot decision
  lastSlot := work.lastSlot.map (keepDecidedAt (schedule.status.bind BackupScheduleStatus.lastSlot))
  missedSlots := work.missed
  lastFireTime := work.firedDue.or (admittedDue decision)
  activeRuns := some work.active
  activeBackupRef := some (work.active.head?.map fun run => ⟨run.name⟩)
  pendingBackupRef := if work.pending = .clear then some none else none
  pendingRun := if work.pending = .clear then some none else none
  conditions := some (finalConditions S schedule decision work now)
  history := work.history.or (schedule.status.bind BackupScheduleStatus.history)

def StatusPatch.evaluated (p : StatusPatch) (now : Instant) : StatusPatch :=
  { p with policy := p.policy.map fun policy => { policy with evaluatedAt := now } }

end Logweir.Schedule
