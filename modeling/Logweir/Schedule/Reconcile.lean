import Logweir.Library.Programs
import Logweir.Schedule.Status

/-!
# The reconcile of one schedule

`reconcile_schedule_with_archive_at` and `schedule_history::observe` as programs of
API calls: the observation of the active set (steady or by inventory), the
reservation taken up again, the attempts of the latest due slot, the admission, and
the final status write.
-/

set_option autoImplicit false

namespace Logweir.Schedule

open Logweir.Programs

structure Page where
  items : List Backup
  continue_ : Option String

structure MigrationPatch where
  resourceVersion : Nat
  ownerReferences : List OwnerReference
  scheduleUid : String
  deriving DecidableEq, Repr

inductive MigrationOutcome where
  | migrated
  | retry
  | blocked (reason : String)
  deriving DecidableEq, Repr

inductive Call where
  | getBackup (name : String)
  | listBackups (selector : Option String) (continueToken : Option String)
  | patchBackup (name : String) (patch : MigrationPatch)
  | postBackup (backup : Backup)
  | patchStatus (resourceVersion : Nat) (patch : StatusPatch)
  deriving DecidableEq

/-- What a call is answered with: no object for a 404, no created object for a 409
`AlreadyExists`, no schedule for a 409 `Conflict`. -/
def Call.Answer : Call → Type
  | getBackup _ => Option Backup
  | listBackups _ _ => Page
  | patchBackup _ _ => MigrationOutcome
  | postBackup _ => Option Backup
  | patchStatus _ _ => Option BackupSchedule

inductive ScheduleError where
  | foreignBackup (name : String)
  | crdOutdated (detail : String)
  | notFound (name : String)
  | conflict (name : String)
  deriving DecidableEq, Repr

structure ScheduleOutcome where
  decision : SlotDecision
  created : Option String
  alreadyExisted : Bool
  deriving DecidableEq, Repr

abbrev Api := Program Call Call.Answer ScheduleError

def Api.getOpt (name : String) : Api (Option Backup) := Program.call (Call.getBackup name)
def Api.list (selector continueToken : Option String) : Api Page :=
  Program.call (Call.listBackups selector continueToken)
def Api.patch (name : String) (patch : MigrationPatch) : Api MigrationOutcome :=
  Program.call (Call.patchBackup name patch)
def Api.create (backup : Backup) : Api (Option Backup) := Program.call (Call.postBackup backup)
def Api.patchStatus (resourceVersion : Nat) (patch : StatusPatch) : Api (Option BackupSchedule) :=
  Program.call (Call.patchStatus resourceVersion patch)

variable (S : Surroundings)

def inventoryIntervalSecs : Int := 3600
def inventoryPageSize : Nat := 500
def maxInventoryPages : Nat := 20
def maxMigrationsPerPass : Nat := inventoryPageSize
def migrationBlockedSample : Nat := 10
def planOverheadBytes : Int := 2048

structure Observation where
  active : List ActiveRun
  pendingChild : Option Backup
  history : ScheduleHistory
  inventoried : Bool

def inventoryDue (stored : Option BackupScheduleStatus) (now : Instant) : Bool :=
  match stored with
  | none => true
  | some status =>
      status.activeRuns.isNone ||
        match status.history with
        | none => true
        | some history =>
            decide (0 < history.legacyMigratableRuns) ||
              decide (seconds inventoryIntervalSecs ≤ now - history.inventoriedAt)

def mayUseLabelSelector (stored : Option BackupScheduleStatus) : Bool :=
  ((currentCondition (stored.bind BackupScheduleStatus.conditions) "HistoryRetained").any fun c =>
    decide (c.status = "True")) &&
    (stored.bind BackupScheduleStatus.history).any ScheduleHistory.ownershipScanComplete

def estimatedBytes (backup : Backup) : Int :=
  let topicBytes := (backup.spec.topics.map fun t => (t.utf8ByteSize : Int) + 6).foldl (· + ·) 0
  i64SaturatingAdd (i64SaturatingAdd (S.serializedBytes backup) planOverheadBytes) (topicBytes * 2)

def memberOfConcurrency (backup : Backup) (scheduleName scheduleUid : String) : Bool :=
  participatesInConcurrency backup scheduleName scheduleUid && !backupIsTerminal backup

def activeEntry (backup : Backup) : ActiveRun where
  name := backup.name
  kind := (declaredTrigger backup).1.kindName
  attempt := let attempt := (declaredTrigger backup).2.1
    if (attempt : Int) ≤ i32Max then attempt else 0

def dedupByName (active : List ActiveRun) : List ActiveRun :=
  active.foldr (fun run rest =>
    run :: if rest.head?.map ActiveRun.name = some run.name then rest.tail else rest) []

def sortByName (active : List ActiveRun) : List ActiveRun :=
  active.mergeSort fun a b => decide (a.name ≤ b.name)

def bounded (active : List ActiveRun) : List ActiveRun :=
  (dedupByName (sortByName active)).take maxActiveRuns

def steadyRecorded (scheduleName scheduleUid : String) (pending : Option String) :
    List ActiveRun → List ActiveRun → Option Backup → Api (List ActiveRun × Option Backup)
  | [], active, child => pure (active, child)
  | entry :: rest, active, child => do
      match ← Api.getOpt entry.name with
      | none => steadyRecorded scheduleName scheduleUid pending rest active child
      | some backup =>
          steadyRecorded scheduleName scheduleUid pending rest
            (if memberOfConcurrency backup scheduleName scheduleUid then
              active ++ [activeEntry backup] else active)
            (if pending = some entry.name then some backup else child)

def steadyPending (scheduleName scheduleUid : String) (recorded : List ActiveRun) (pending : String)
    (active : List ActiveRun) (child : Option Backup) : Api (List ActiveRun × Option Backup) :=
  if child.isNone ∧ ¬ recorded.any (fun e => e.name = pending) then do
    match ← Api.getOpt pending with
    | none => pure (active, child)
    | some backup =>
        if ¬ participatesInConcurrency backup scheduleName scheduleUid then
          .stop (.foreignBackup pending)
        else
          pure (if memberOfConcurrency backup scheduleName scheduleUid then
            active ++ [activeEntry backup] else active, some backup)
  else pure (active, child)

def steadyState (stored : Option BackupScheduleStatus) (history : ScheduleHistory)
    (scheduleName scheduleUid : String) (pending : Option String) : Api Observation := do
  let recorded := (stored.bind BackupScheduleStatus.activeRuns).getD []
  let (active, child) ← steadyRecorded scheduleName scheduleUid pending
    (recorded.take maxActiveRuns) [] none
  match pending with
  | none => pure ⟨bounded active, child, history, false⟩
  | some pending =>
      let (active, child) ← steadyPending scheduleName scheduleUid recorded pending active child
      pure ⟨bounded active, child, history, false⟩

def ownerEntryIndex (backup : Backup) (scheduleName scheduleUid : String) : Option Nat :=
  backup.ownerReferences.findIdx? fun owner =>
    owner.controller = some true ∧ owner.uid = scheduleUid ∧ owner.name = scheduleName ∧
      owner.kind = backupScheduleKind ∧ owner.apiVersion = apiVersion

inductive MigrationRefusal where
  | notTerminal
  | noScheduleReference
  deriving DecidableEq, Repr

def migrationRefusal (backup : Backup) (scheduleName : String) : Option MigrationRefusal :=
  if ¬ backupIsTerminal backup then some .notTerminal
  else if backup.spec.scheduleRef.all fun r => decide (r.name ≠ scheduleName) then
    some .noScheduleReference
  else none

def migrationPatch (backup : Backup) (scheduleName scheduleUid : String) : Option MigrationPatch := do
  let index ← ownerEntryIndex backup scheduleName scheduleUid
  let resourceVersion ← backup.resourceVersion
  some ⟨resourceVersion, backup.ownerReferences.eraseIdx index, scheduleUid⟩

structure Inventory where
  active : List ActiveRun := []
  pendingChild : Option Backup := none
  runCount : Int := 0
  estimated : Int := 0
  ownedNonterminal : Int := 0
  stillOwned : Int := 0
  patched : Nat := 0
  blocked : List MigrationBlocked := []
  capped : Bool := false
  budgetSpent : Bool := false

/-- One listed run of this schedule, counted. -/
def Inventory.count (inv : Inventory) (backup : Backup) (scheduleName scheduleUid : String)
    (pending : Option String) : Inventory :=
  { inv with
    runCount := inv.runCount + 1
    estimated := i64SaturatingAdd inv.estimated (estimatedBytes S backup)
    ownedNonterminal :=
      if (ownerEntryIndex backup scheduleName scheduleUid).isSome ∧
          migrationRefusal backup scheduleName = some .notTerminal then
        inv.ownedNonterminal + 1 else inv.ownedNonterminal
    blocked :=
      if (ownerEntryIndex backup scheduleName scheduleUid).isSome ∧
          migrationRefusal backup scheduleName = some .noScheduleReference then
        inv.blocked ++ [⟨backup.name, "NoScheduleReference"⟩] else inv.blocked
    pendingChild := if pending = some backup.name then some backup else inv.pendingChild
    active :=
      if memberOfConcurrency backup scheduleName scheduleUid then
        inv.active ++ [activeEntry backup] else inv.active }

/-- The runs of this schedule on one page, and those of them that can be detached. -/
def readPage (scheduleName scheduleUid : String) (pending : Option String) :
    List Backup → Inventory → List Backup → Except ScheduleError (Inventory × List Backup)
  | [], inv, candidates => .ok (inv, candidates)
  | backup :: rest, inv, candidates =>
      if ¬ isRunOfSchedule backup scheduleName scheduleUid then
        readPage scheduleName scheduleUid pending rest inv candidates
      else if pending = some backup.name ∧
          ¬ participatesInConcurrency backup scheduleName scheduleUid then
        .error (.foreignBackup backup.name)
      else
        readPage scheduleName scheduleUid pending rest
          (inv.count S backup scheduleName scheduleUid pending)
          (if (ownerEntryIndex backup scheduleName scheduleUid).isSome ∧
              migrationRefusal backup scheduleName = none then candidates ++ [backup]
            else candidates)

def migrateOne (backup : Backup) (scheduleName scheduleUid : String) : Api MigrationOutcome :=
  match migrationPatch backup scheduleName scheduleUid with
  | none => pure .retry
  | some patch => Api.patch backup.name patch

def migrate (scheduleName scheduleUid : String) : List Backup → Inventory → Api Inventory
  | [], inv => pure inv
  | backup :: rest, inv =>
      if maxMigrationsPerPass ≤ inv.patched then
        migrate scheduleName scheduleUid rest
          { inv with stillOwned := inv.stillOwned + 1, budgetSpent := true }
      else do
        let inv := { inv with patched := inv.patched + 1 }
        match ← migrateOne backup scheduleName scheduleUid with
        | .migrated => migrate scheduleName scheduleUid rest inv
        | .retry => migrate scheduleName scheduleUid rest { inv with stillOwned := inv.stillOwned + 1 }
        | .blocked reason =>
            migrate scheduleName scheduleUid rest
              { inv with blocked := inv.blocked ++ [⟨backup.name, reason⟩] }

def inventoryPages (scheduleName scheduleUid : String) (selector pending : Option String) :
    Nat → Option String → Inventory → Api Inventory
  | 0, _, inv => pure inv
  | pages + 1, token, inv => do
      let listed ← Api.list selector token
      match readPage S scheduleName scheduleUid pending listed.items inv [] with
      | .error e => .stop e
      | .ok (inv, candidates) =>
          let inv ← migrate scheduleName scheduleUid candidates inv
          match listed.continue_.filter fun cursor => cursor ≠ "" with
          | none => pure inv
          | some cursor =>
              if inv.budgetSpent ∨ pages = 0 then pure { inv with capped := true }
              else inventoryPages scheduleName scheduleUid selector pending pages (some cursor) inv

def Inventory.history (inv : Inventory) (labelSelected : Bool) (now : Instant) : ScheduleHistory :=
  let blocked := (inv.blocked.mergeSort fun a b => decide (a.name ≤ b.name)).take
    migrationBlockedSample
  { runCount := inv.runCount
    runCountCapped := inv.capped
    estimatedBytes := inv.estimated
    legacyOwnedRuns := i64SaturatingAdd (i64SaturatingAdd inv.ownedNonterminal inv.stillOwned)
      inv.blocked.length
    legacyMigratableRuns := inv.stillOwned
    migrationBlocked := if blocked.isEmpty then none else some blocked
    ownershipScanComplete := labelSelected || !inv.capped
    inventoriedAt := now }

def inventory (stored : Option BackupScheduleStatus) (scheduleName scheduleUid : String)
    (pending : Option String) (now : Instant) : Api Observation := do
  let labelSelected := mayUseLabelSelector stored
  let selector := if labelSelected then some scheduleUid else none
  let inv ← inventoryPages S scheduleName scheduleUid selector pending maxInventoryPages none {}
  pure ⟨bounded inv.active, inv.pendingChild, inv.history labelSelected now, true⟩

def observe (stored : Option BackupScheduleStatus) (scheduleName scheduleUid : String)
    (pending : Option String) (now : Instant) : Api Observation :=
  match stored.bind BackupScheduleStatus.history with
  | some history =>
      if ¬ inventoryDue stored now then steadyState stored history scheduleName scheduleUid pending
      else inventory S stored scheduleName scheduleUid pending now
  | none => inventory S stored scheduleName scheduleUid pending now

structure Reservation where
  name : String
  plan : RunPlan
  due : Instant
  deriving DecidableEq, Repr

def kindOfName (kind : String) : TriggerKind :=
  if kind = "CatchUp" then .catchUp else if kind = "Retry" then .retry else .scheduled

/-- The reservation a status holds, its name derived again and compared. -/
def reservedRun (scheduleName : String) (status : BackupScheduleStatus) : Option Reservation := do
  let (name, slot, attempt, kind) ←
    match status.pendingRun with
    | some pending =>
        some (pending.name, pending.slot, if pending.attempt < 0 then 0 else pending.attempt.toNat,
          kindOfName pending.kind)
    | none => do
        let name := (← status.pendingBackupRef).name
        let (slot, _, attempt) ← S.reservedSlot scheduleName name
        some (name, slot, attempt, if attempt = 0 then TriggerKind.scheduled else .retry)
  let composed ← (scheduledBackupNameForAttempt scheduleName slot attempt).toOption
  if composed ≠ name then none
  else do
    let due ← S.slotInstant slot
    some ⟨name, ⟨slot, name, kind, attempt,
      if 0 < attempt then (scheduledBackupNameForAttempt scheduleName slot (attempt - 1)).toOption
      else none⟩, due⟩

structure ObservedChain where
  attempts : List ObservedAttempt
  foreignNext : Option String

def walkAttempts (scheduleName uid slot : String) :
    Nat → Nat → List ObservedAttempt → Api ObservedChain
  | 0, _, chain => pure ⟨chain, none⟩
  | left + 1, attempt, chain =>
      match scheduledBackupNameForAttempt scheduleName slot attempt with
      | .error _ => pure ⟨chain, none⟩
      | .ok name => do
          match ← Api.getOpt name with
          | none => pure ⟨chain, none⟩
          | some backup =>
              if ¬ participatesInConcurrency backup scheduleName uid then pure ⟨chain, some name⟩
              else
                walkAttempts scheduleName uid slot left (attempt + 1)
                  (chain ++ [⟨name, attempt, attemptOutcome backup⟩])

def observeAttemptChain (scheduleName uid slot : String) (walkRetries : Bool) : Api ObservedChain :=
  walkAttempts scheduleName uid slot ((if walkRetries then slotMaxRetries else 0) + 1) 0 []

def slotNameIsUnavailable (chain : ObservedChain) (attempt : AttemptDecision) : Bool :=
  chain.foreignNext.isSome &&
    match attempt with
    | .noAttempt | .retry .. => true
    | _ => false

def walkRetries (schedule : BackupSchedule) (status : Option BackupScheduleStatus)
    (active : List ActiveRun) : Bool :=
  schedule.spec.retry.isSome || active.any (fun run => decide (0 < run.attempt)) ||
    (status.bind BackupScheduleStatus.lastSlot).any (fun last => decide (0 < last.attempt)) ||
    (status.bind BackupScheduleStatus.pendingRun).any fun pending => decide (0 < pending.attempt)

def blockingRuns (schedule : BackupSchedule) (active : List ActiveRun) : List String :=
  match schedule.spec.concurrencyPolicy with
  | .forbid => active.map ActiveRun.name
  | .allow => if maxActiveRuns ≤ active.length then active.map ActiveRun.name else []

def admittedDecision (decision : SlotDecision) (plan : RunPlan) (due : Instant) : SlotDecision :=
  match plan.kind with
  | .catchUp => .caughtUp due plan.slot plan.name decision.nextFireTime
  | .retry => .retried due plan.slot plan.name plan.attempt decision.nextFireTime
  | .scheduled | .manual => .due due plan.slot plan.name decision.nextFireTime

def lastSlotFor (decision : SlotDecision) (plan : RunPlan) (due now : Instant) : LastSlot :=
  ⟨plan.slot, due, i32OfU32 plan.attempt, dispositionOf decision, some ⟨plan.name⟩,
    decision.reason, now⟩

def Reconcile.ran (work : Reconcile) (plan : RunPlan) (alreadyExisted terminal : Bool) : Reconcile :=
  { work with
    alreadyExisted := work.alreadyExisted || alreadyExisted
    created := some plan.name
    pending := .clear
    active :=
      if terminal then work.active
      else sortByName (work.active.filter (fun run => run.name ≠ plan.name) ++
        [⟨plan.name, plan.kind.kindName, if (plan.attempt : Int) ≤ i32Max then plan.attempt else 0⟩]) }

def createRun (schedule : BackupSchedule) (uid : String) (plan : RunPlan) (work : Reconcile) :
    Api Reconcile := do
  match ← Api.create (scheduledRun S schedule uid plan) with
  | some created =>
      if created.spec.trigger.isNone ∨ (created.spec.scheduleRef.bind ScheduleRef.uid).isNone then
        .stop (.crdOutdated ("the created Backup came back without spec.trigger or " ++
          "spec.scheduleRef.uid, so the installed CRD is older than this controller"))
      else pure (work.ran plan false false)
  | none =>
      match ← Api.getOpt plan.name with
      | none => .stop (.notFound plan.name)
      | some existing =>
          if existing.name ≠ plan.name ∨
              ¬ participatesInConcurrency existing schedule.name uid then
            .stop (.foreignBackup plan.name)
          else pure (work.ran plan true (backupIsTerminal existing))

/-- Reserve, then create from the same in-memory object. -/
def admit_ (schedule : BackupSchedule) (uid : String) (plan : RunPlan) (due : Instant)
    (decision : SlotDecision) (work : Reconcile) (now : Instant) : Api (SlotDecision × Reconcile) := do
  match ← Api.patchStatus schedule.resourceVersion
      (reservationPatch S schedule decision plan now) with
  | none => .stop (.conflict schedule.name)
  | some reserved =>
      if (reserved.status.bind BackupScheduleStatus.pendingRun).isNone then
        .stop (.crdOutdated ("the reservation response came back without status.pendingRun, so " ++
          "the installed CRD is older than this controller"))
      else do
        let work ← createRun S schedule uid plan { work with statusWriteBase := reserved }
        let decision := admittedDecision decision plan due
        let work := { work with
          firedDue := some due
          lastSlot := some (lastSlotFor decision plan due now) }
        pure (decision, work.accountSkipped S schedule decision plan.slot due now true)

def finish (decision : SlotDecision) (work : Reconcile) (now : Instant) : Api ScheduleOutcome := do
  let base := work.statusWriteBase
  let patch := statusPatchWithRefs S base decision work now
  if statusUnchanged base.status patch then
    pure ⟨decision, work.created, work.alreadyExisted⟩
  else
    match ← Api.patchStatus base.resourceVersion (patch.evaluated now) with
    | none => .stop (.conflict base.name)
    | some _ => pure ⟨decision, work.created, work.alreadyExisted⟩

/-- Step 2's reservation whose child does not exist: given up when the run policy is
what is wrong, created otherwise. -/
def resumeReservation (schedule : BackupSchedule) (reserved : Reservation) (decision : SlotDecision)
    (work : Reconcile) (now : Instant) : Api ScheduleOutcome :=
  if decision.releases then
    finish S decision { work with
      pending := .clear
      lastSlot := some ⟨reserved.plan.slot, reserved.due, i32OfU32 reserved.plan.attempt, "Released",
        none, decision.reason, now⟩ } now
  else do
    let work ← createRun S schedule schedule.uid reserved.plan work
    let decision := admittedDecision decision reserved.plan reserved.due
    finish S decision { work with
      firedDue := some reserved.due
      lastSlot := some (lastSlotFor decision reserved.plan reserved.due now) } now

/-- A slot whose attempts say nothing more is admitted now: its fire is recorded, the
run it has is named, and the gap before it is counted once it is final. -/
def settled (schedule : BackupSchedule) (due : Instant) (slot : String) (now : Instant)
    (decision : SlotDecision) (work : Reconcile) (created : Option String) (final : Bool) :
    Api ScheduleOutcome :=
  finish S decision (({ work with
    firedDue := some due
    created := created
    alreadyExisted := created.isSome } : Reconcile).accountSkipped S schedule
      decision slot due now final) now

/-- Step 7: no attempt of the slot exists. -/
def admitSlotRun (schedule : BackupSchedule) (decision : SlotDecision) (work : Reconcile)
    (due : Instant) (slot : String) (blocked : List String) (now : Instant) : Api ScheduleOutcome :=
  match schedule.status.bind BackupScheduleStatus.lastFireTime |>.filter fun last => due ≤ last with
  | some last =>
      let decision := SlotDecision.alreadyFired due slot last decision.nextFireTime
      finish S decision (work.accountSkipped S schedule decision slot due now true) now
  | none =>
      match decision with
      | .missed .. =>
          finish S decision ((work.recordSlot decision slot due 0 none now).accountSkipped S schedule
            decision slot due now true) now
      | .due _ _ objectName next | .catchUpDue _ _ objectName next =>
          let catchUp := match decision with
            | .catchUpDue .. => true
            | _ => false
          if blocked ≠ [] then
            let decision :=
              if catchUp then SlotDecision.catchUpBlocked slot blocked next
              else if schedule.spec.concurrencyPolicy = .allow then
                SlotDecision.activeRunLimit slot blocked next
              else SlotDecision.concurrencyBlocked slot blocked next
            finish S decision ((work.recordSlot decision slot due 0 none now).accountSkipped S
              schedule decision slot due now false) now
          else do
            let (decision, work) ← admit_ S schedule schedule.uid
              ⟨slot, objectName, if catchUp then .catchUp else .scheduled, 0, none⟩ due decision work
              now
            finish S decision work now
      | _ => finish S decision work now

/-- Step 6: what the attempts of the slot say. -/
def decideFromAttempts (schedule : BackupSchedule) (decision : SlotDecision) (work : Reconcile)
    (due : Instant) (slot : String) (chain : ObservedChain) (now : Instant) : Api ScheduleOutcome :=
  let attempt := decideAttempt S schedule.name due chain.attempts
    (schedule.spec.retry.map RetrySpec.policy) now
  let next := decision.nextFireTime
  if slotNameIsUnavailable chain attempt then
    let decision := SlotDecision.slotNameUnavailable slot (chain.foreignNext.getD "") next
    finish S decision ((work.recordSlot decision slot due chain.attempts.length none
      now).accountSkipped S schedule decision slot due now true) now
  else
    let blocked := blockingRuns schedule work.active
    match attempt with
    | .noAttempt => admitSlotRun S schedule decision work due slot blocked now
    | .succeeded run k =>
        let last := (schedule.status.bind BackupScheduleStatus.lastFireTime).getD due
        let decision := SlotDecision.alreadyFired due slot last next
        settled S schedule due slot now decision (work.recordSlot decision slot due k (some run) now)
          (some run) true
    | .inProgress run k =>
        settled S schedule due slot now (.inProgress slot k run next) work (some run) false
    | .notRetryable run k =>
        let decision := SlotDecision.runFailed slot k run next
        settled S schedule due slot now decision (work.recordSlot decision slot due k (some run) now)
          (some run) true
    | .exhausted k maxRetries retryConfigured =>
        let decision := SlotDecision.retryExhausted slot k maxRetries retryConfigured next
        let last := chain.attempts.getLast?.map ObservedAttempt.name
        settled S schedule due slot now decision (work.recordSlot decision slot due k last now)
          last true
    | .pending k dueAt =>
        settled S schedule due slot now (.retryPending slot k dueAt next) work
          (chain.attempts.getLast?.map ObservedAttempt.name) false
    | .nameTooLong error =>
        let decision := SlotDecision.retryNamesTooLong error
        finish S decision (work.accountSkipped S schedule decision slot due now false) now
    | .retry plan _ =>
        if blocked ≠ [] then
          let decision := SlotDecision.retryBlocked slot plan.attempt blocked next
          finish S decision ({ work with firedDue := some due }.accountSkipped S schedule decision slot
            due now false) now
        else do
          let (decision, work) ← admit_ S schedule schedule.uid plan due decision work now
          finish S decision work now

def decideDueSlot (schedule : BackupSchedule) (decision : SlotDecision) (work : Reconcile)
    (now : Instant) : Api ScheduleOutcome :=
  match decision.dueSlot with
  | none => finish S decision work now
  | some (due, slot) => do
      let chain ← observeAttemptChain schedule.name schedule.uid slot
        (walkRetries schedule schedule.status work.active)
      decideFromAttempts S schedule decision work due slot chain now

def decisionAt (schedule : BackupSchedule) (now : Instant) : SlotDecision :=
  refineAgainstStatus
    (boundByCreation (SlotDecision.decide S schedule.name schedule.spec now)
      schedule.creationTimestamp)
    (schedule.status.bind BackupScheduleStatus.lastFireTime)
    (((schedule.status.bind BackupScheduleStatus.policy).filter fun p =>
      p.generation = schedule.generation.getD 0).map PolicyStatus.effectiveSince)

/-- Reconcile one `BackupSchedule` at the instant `now`. -/
def reconcileScheduleWithArchiveAt (schedule : BackupSchedule) (now : Instant) :
    Api ScheduleOutcome := do
  let decision := decisionAt S schedule now
  let reservation := schedule.status.bind (reservedRun S schedule.name)
  let stale := reservation.isNone && schedule.status.any fun status =>
    status.pendingRun.isSome || status.pendingBackupRef.isSome
  let observed ← observe S schedule.status schedule.name schedule.uid
    (reservation.map Reservation.name) now
  let work : Reconcile :=
    { history := some observed.history
      created := none
      alreadyExisted := false
      firedDue := none
      active := observed.active
      pending := if stale then .clear else .keep
      lastSlot := none
      missed := schedule.status.bind BackupScheduleStatus.missedSlots
      statusWriteBase := schedule }
  match reservation, observed.pendingChild with
  | some reserved, some child =>
      decideDueSlot S schedule decision { work with
        pending := .clear
        alreadyExisted := true
        created := some reserved.name
        firedDue := if backupIsTerminal child then some reserved.due else none } now
  | some reserved, none => resumeReservation S schedule reserved decision work now
  | none, _ => decideDueSlot S schedule decision work now

end Logweir.Schedule
