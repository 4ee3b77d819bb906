import Std.Data.String.ToNat
import Logweir.Schedule.Objects

/-!
# Slots and attempts

`weirkeeper::slot` and `weirkeeper::cadence`: the deterministic name of a slot's
attempt, the admission of a due slot, and the admission of a retry.  The cron walk
itself, the calendar and the run policy's own checks are taken as they are: every
result holds of any cadence whose due slots spell names that read back as them.
-/

set_option autoImplicit false

namespace Logweir.Schedule

def scheduledBackupPrefix : String := "logweir-backup-"
def nameLimit : Nat := 63
/-- `slot::MAX_RETRIES`. -/
def slotMaxRetries : Nat := 3
def slotNameLen : Nat := 15

inductive SlotError where
  | nameTooLong (limit got : Nat)
  deriving DecidableEq, Repr

def attemptSuffix (attempt : Nat) : String :=
  if attempt = 0 then "" else "-r" ++ toString attempt

def composedName (schedule slot : String) (attempt : Nat) : String :=
  scheduledBackupPrefix ++ schedule ++ "-" ++ slot ++ attemptSuffix attempt

def scheduledBackupNameForAttempt (schedule slot : String) (attempt : Nat) :
    Except SlotError String :=
  let name := composedName schedule slot attempt
  if nameLimit < name.utf8ByteSize then .error (.nameTooLong nameLimit name.utf8ByteSize)
  else .ok name

def scheduledBackupName (schedule slot : String) : Except SlotError String :=
  scheduledBackupNameForAttempt schedule slot 0

def retryNamesFit (schedule : String) (maxRetries : Nat) : Except SlotError Unit :=
  (scheduledBackupNameForAttempt schedule (String.ofList (List.replicate slotNameLen '0'))
    maxRetries).map fun _ => ()

def parseU32 (text : List Char) : Option Nat :=
  let digits := match text with
    | '+' :: rest => rest
    | _ => text
  if digits ≠ [] ∧ digits.all Char.isDigit then
    let value := digits.foldl (fun n c => 10 * n + (c.toNat - '0'.toNat)) 0
    if value ≤ u32Max then some value else none
  else none

/-- `str::strip_prefix`. -/
def stripPrefix (front text : List Char) : Option (List Char) :=
  if front.isPrefixOf text then some (text.drop front.length) else none

/-- `str::split_at_checked`: the characters of the first `bytes` bytes and the rest,
when `bytes` falls between two characters. -/
def splitAtChecked : Nat → List Char → Option (List Char × List Char)
  | 0, text => some ([], text)
  | _ + 1, [] => none
  | bytes + 1, c :: text =>
      if c.utf8Size ≤ bytes + 1 then
        (splitAtChecked (bytes + 1 - c.utf8Size) text).map fun (front, rest) => (c :: front, rest)
      else none
termination_by bytes => bytes
decreasing_by
  have := c.utf8Size_pos
  omega

def defaultStartingDeadlineSeconds : Int := 3600
def minStartingDeadlineSeconds : Int := 60
def maxStartingDeadlineSeconds : Int := 604800
def minActiveDeadlineSeconds : Int := 60
def maxActiveDeadlineSeconds : Int := 86400
def defaultRetryDelaySeconds : Int := 300
def minRetryDelaySeconds : Int := 60
def maxRetryDelaySeconds : Int := 21600
def statusNextRuns : Nat := 5
def maxSkippedSlotEnumeration : Nat := 1000
def tzdbSource : String := "chrono-tz 0.10.4"

structure RetryPolicy where
  maxRetries : Nat
  delaySeconds : Int
  deriving DecidableEq, Repr

/-- `RetrySpec::policy`. -/
def RetrySpec.policy (r : RetrySpec) : RetryPolicy where
  maxRetries := if r.maxRetries < 0 then u32Max else r.maxRetries.toNat
  delaySeconds := r.delaySeconds.getD defaultRetryDelaySeconds

inductive RetryPolicyProblem where
  | maxRetriesTooHigh (got limit : Nat)
  | delayOutOfRange (got min max : Int)
  deriving DecidableEq, Repr

def RetryPolicy.validate (policy : RetryPolicy) : Except RetryPolicyProblem Unit :=
  if slotMaxRetries < policy.maxRetries then
    .error (.maxRetriesTooHigh policy.maxRetries slotMaxRetries)
  else if policy.delaySeconds < minRetryDelaySeconds ∨ maxRetryDelaySeconds < policy.delaySeconds then
    .error (.delayOutOfRange policy.delaySeconds minRetryDelaySeconds maxRetryDelaySeconds)
  else .ok ()

inductive DeadlineProblem where
  | startingOutOfRange (got min max : Int)
  | activeOutOfRange (got min max : Int)
  deriving DecidableEq, Repr

def checkDeadline (problem : Int → Int → Int → DeadlineProblem) (min max : Int) :
    Option Int → Except DeadlineProblem Unit
  | some got => if got < min ∨ max < got then .error (problem got min max) else .ok ()
  | none => .ok ()

def validateDeadlines (startingDeadlineSeconds activeDeadlineSeconds : Option Int) :
    Except DeadlineProblem Unit := do
  checkDeadline .startingOutOfRange minStartingDeadlineSeconds maxStartingDeadlineSeconds
    startingDeadlineSeconds
  checkDeadline .activeOutOfRange minActiveDeadlineSeconds maxActiveDeadlineSeconds
    activeDeadlineSeconds

inductive MissedReason where
  | pastStartingDeadline
  | beforeRevision
  deriving DecidableEq, Repr

inductive SlotAdmission where
  | scheduled
  | catchUp
  | missed (reason : MissedReason)
  deriving DecidableEq, Repr

def admitSlot (slot now : Instant) (startingDeadlineSeconds : Int) (catchUp : CatchUpPolicy)
    (effectiveSince : Option Instant) : SlotAdmission :=
  if now - slot ≤ seconds startingDeadlineSeconds then .scheduled
  else
    match catchUp with
    | .none => .missed .pastStartingDeadline
    | .latest =>
        match effectiveSince with
        | some since => if slot < since then .missed .beforeRevision else .catchUp
        | none => .catchUp

def runnerOlderThanController : String := "RunnerOlderThanController"

def retryableTerminalStates : List String :=
  ["DisruptedMidDrill", "PodUnschedulable", "NoExitCode", "DiscoveryFailed"]

def isRetryable (exitCode : Option Int) (terminalState : Option String) : Bool :=
  if terminalState = some runnerOlderThanController then false
  else
    match exitCode with
    | some code => decide (code ≠ 0 ∧ code ≠ 2 ∧ code ≠ 3 ∧ code ≠ 4)
    | none => terminalState.any fun state => decide (state ∈ retryableTerminalStates)

inductive RetryAdmission where
  | superseded (by_ : Instant)
  | notRetryable
  | exhausted (attempt maxRetries : Nat) (retryConfigured : Bool)
  | pending (dueAt : Instant)
  | due (attempt : Nat)
  deriving DecidableEq, Repr

def admitRetry (slot : Instant) (latestDueSlot : Option Instant) (attempt : Nat) (retryable : Bool)
    (finishedAt : Instant) (policy : Option RetryPolicy) (now : Instant) : RetryAdmission :=
  match latestDueSlot.filter fun latest => slot < latest with
  | some latest => .superseded latest
  | none =>
      if ¬ retryable then .notRetryable
      else
        let maxRetries := (policy.map RetryPolicy.maxRetries).getD 0
        if maxRetries ≤ attempt then .exhausted attempt maxRetries policy.isSome
        else
          let delay := (policy.map RetryPolicy.delaySeconds).getD defaultRetryDelaySeconds
          let dueAt := finishedAt + seconds delay
          if now < dueAt then .pending dueAt else .due (attempt + 1)

structure SkippedSlots where
  count : Nat
  capped : Bool
  horizonReached : Bool
  deriving DecidableEq, Repr

inductive FieldProblem where
  | unrecognised
  | outOfRange (value min max : Nat)
  | zeroStep
  | descendingRange (first last : Nat)
  deriving DecidableEq, Repr

inductive CronError where
  | fieldCount (got : Nat)
  | field (index : Nat) (name term : String) (problem : FieldProblem)
  | unknownAtForm (got : String)
  deriving DecidableEq, Repr

inductive CadenceError where
  | schedule (e : CronError)
  | unknownTimeZone (got : String)
  deriving DecidableEq, Repr

structure FieldError where
  field : String
  rule : String
  message : String
  deriving DecidableEq, Repr

/-- The cron walk and the calendar: a cadence of some type, read from
`spec.schedule` and `spec.timeZone`, and the spelling of its slots.  A due slot's
name is fifteen characters and reads back as the slot. -/
structure Cadences where
  Cadence : Type
  parse : String → Option String → Except CadenceError Cadence
  nextFireAfter : Cadence → Instant → Option Instant
  latestDueSlot : Cadence → Instant → Option Instant
  nextRuns : Cadence → Instant → Nat → List NextRun
  skippedSlots : Cadence → Instant → Instant → Nat → SkippedSlots
  slotName : Instant → String
  slotInstant : String → Option Instant
  slotInstant_slotName : ∀ (c : Cadence) (now due : Instant),
    latestDueSlot c now = some due → slotInstant (slotName due) = some due
  length_slotName : ∀ (c : Cadence) (now due : Instant),
    latestDueSlot c now = some due → (slotName due).length = slotNameLen

def Cadences.reservedSlot (C : Cadences) (scheduleName backupName : String) :
    Option (String × Instant × Nat) := do
  let tail ← stripPrefix (scheduledBackupPrefix ++ scheduleName ++ "-").toList backupName.toList
  let (slot, attempt) ←
    if (String.ofList tail).utf8ByteSize = slotNameLen then some (String.ofList tail, 0)
    else do
      let (slot, suffix) ← splitAtChecked slotNameLen tail
      let digits ← stripPrefix ['-', 'r'] suffix
      let attempt ← parseU32 digits
      some (String.ofList slot, attempt)
  if slotMaxRetries < attempt ∨
      (scheduledBackupNameForAttempt scheduleName slot attempt).toOption ≠ some backupName then none
  else do
    let due ← C.slotInstant slot
    some (slot, due, attempt)

theorem scheduledBackupNameForAttempt_ok {schedule slot name : String} {attempt : Nat}
    (named : scheduledBackupNameForAttempt schedule slot attempt = .ok name) :
    name = composedName schedule slot attempt := by
  simp only [scheduledBackupNameForAttempt] at named
  split at named
  · cases named
  · exact (Except.ok.inj named).symm

end Logweir.Schedule
