import Mathlib.Data.String.Basic

/-!
# Protection health

`weirkeeper::protection`: whether a policy has a recovery point inside its objective.
`evaluate` is one function of what its caller read and of one instant; the sections follow
its parts: the facts, the availability rule, the failure accounting, the verdict.
-/

set_option autoImplicit false

namespace Logweir.Protection

abbrev Time := Int

def wholeSeconds (d : Int) : Int := d.tdiv 1000000000

inductive Freshness where
  | fresh
  | stale
  | unknown
deriving DecidableEq

inductive FreshnessReason where
  | withinObjective
  | pointOlderThanObjective
  | noAvailablePoint
  | catalogStale
  | catalogUnreadable
  | sourceMissing
  | destinationMissing
  | scheduleMissing
  | pointFactsUnread
  | backupHistoryTooLarge
  | notEvaluated
deriving DecidableEq

def FreshnessReason.asStr : FreshnessReason → String
  | .withinObjective => "WithinObjective"
  | .pointOlderThanObjective => "PointOlderThanObjective"
  | .noAvailablePoint => "NoAvailablePoint"
  | .catalogStale => "CatalogStale"
  | .catalogUnreadable => "CatalogUnreadable"
  | .sourceMissing => "SourceMissing"
  | .destinationMissing => "DestinationMissing"
  | .scheduleMissing => "ScheduleMissing"
  | .pointFactsUnread => "PointFactsUnread"
  | .backupHistoryTooLarge => "BackupHistoryTooLarge"
  | .notEvaluated => "NotEvaluated"

inductive Health where
  | healthy
  | atRisk
  | stale
  | unprotected
  | unknown
deriving DecidableEq

inductive AvailabilityBasis where
  | kubernetesStatus
  | catalog
  | catalogStale
deriving DecidableEq

inductive Evidence where
  | valid
  | validHistorical
  | invalid
  | untrusted
  | notAttempted
deriving DecidableEq

def Evidence.isVerified : Evidence → Bool
  | .valid | .validHistorical => true
  | _ => false

def Evidence.wasReached : Evidence → Bool
  | .notAttempted => false
  | _ => true

inductive PolicyAlertKind where
  | backupFailure
  | staleness
  | archiveUnavailable
  | rehearsalFailure
deriving DecidableEq

structure ProtectedSubject where
  topics : Option (List String) := none
  scheduleRefs : Option (List String) := none
  catalogRef : Option String := none

structure Objectives where
  maxRecoveryPointAgeSeconds : Int
  maxConsecutiveFailedRuns : Int := 2
  requireVerifiedEvidence : Bool := true
  requireCatalogAvailability : Bool := true
  maxRehearsalAgeSeconds : Option Int := none

structure ProtectionPolicySpec where
  protects : ProtectedSubject := {}
  objectives : Objectives

structure PointCandidate where
  backupName : Option String := none
  pointId : Option String := none
  receiptSha256 : Option String := none
  backupId : Option String := none
  /-- The capture start. -/
  recoveryPointAt : Option Time := none
  newestRecordAt : Option Time := none
  phase : Option String := none
  exitCode : Option Int := none
  evidence : Evidence := .notAttempted
  topics : List String := []
  coversAllTopics : Bool := false
  destinationMatches : Bool := false
  sourceMatches : Bool := false
deriving DecidableEq

def PointCandidate.succeeded (c : PointCandidate) : Bool :=
  c.phase = some "Succeeded" && c.exitCode = some 0

structure CatalogEntry where
  pointId : String
  receiptSha256 : String := ""
  backupId : String := ""
  recoveryPointAtMs : Int := 0
  availability : String := ""
  verification : String := ""
  selectable : Option Bool := none
deriving DecidableEq

def CatalogEntry.VERIFIED : List String := ["Verified", "VerifiedHistorical"]

def CatalogEntry.hasBlankAxis (e : CatalogEntry) : Bool :=
  e.availability.isEmpty || e.verification.isEmpty

def CatalogEntry.isVerified (e : CatalogEntry) : Bool := CatalogEntry.VERIFIED.contains e.verification

def CatalogEntry.isAvailable (e : CatalogEntry) : Bool :=
  if e.hasBlankAxis then false
  else
    match e.selectable with
    | some selectable => selectable
    | none => e.availability == "Available" && e.isVerified

def CatalogEntry.isDegraded (e : CatalogEntry) : Bool :=
  ["Missing", "Unreadable", "Deleted", "Conflict", "UnsupportedFormat", "Partial"].contains
      e.availability ||
    ["UntrustedSigner", "Revoked", "Invalid"].contains e.verification

inductive CatalogAnswer where
  | notConsulted
  | fresh (entries : List CatalogEntry)
  | stale (reason : FreshnessReason)

def CatalogAnswer.blankAxis : CatalogAnswer → Bool
  | .fresh entries => entries.any CatalogEntry.hasBlankAxis
  | _ => false

structure ScheduleFacts where
  name : String := ""
  suspended : Bool := false
  ready : Option String := none
  nextFireTime : Option Time := none
  lastMissedSlot : Option String := none
  lastFireTime : Option Time := none
  missedSlots : Option Int := none
  «exists» : Bool := false

inductive SlotOutcome where
  | succeeded
  | failed
  | running
deriving DecidableEq

def SlotOutcome.phase : SlotOutcome → String
  | .succeeded => "Succeeded"
  | .failed => "Failed"
  | .running => "Running"

structure SlotRun where
  slot : String
  attempt : Nat := 0
  outcome : SlotOutcome
  «at» : Option Time := none
  backupName : String := ""
  reason : Option String := none

structure RehearsalFacts where
  lastSucceededAt : Option Time := none
  lastRestore : Option String := none
  lastFailedAt : Option Time := none
  lastReason : Option String := none

structure Inputs where
  spec : ProtectionPolicySpec
  sourceExists : Bool := true
  destinationExists : Bool := true
  candidates : List PointCandidate := []
  catalog : CatalogAnswer := .notConsulted
  schedules : List ScheduleFacts := []
  slots : List SlotRun := []
  rehearsal : RehearsalFacts := {}
  backupsComplete : Bool := true
  now : Time

def entryIsAbout (candidate : PointCandidate) (e : CatalogEntry) : Bool :=
  match candidate.receiptSha256 with
  | some digest => e.receiptSha256 == digest && candidate.pointId.all fun id => e.pointId == id
  | none => (candidate.backupId.filter fun id => !id.isEmpty).any fun id => e.backupId == id

def entriesFor (candidate : PointCandidate) (entries : List CatalogEntry) : List CatalogEntry :=
  entries.filter (entryIsAbout candidate)

def evidenceObjectiveMet (candidate : PointCandidate) (spec : ProtectionPolicySpec)
    (entry : Option CatalogEntry) : Bool :=
  if !spec.objectives.requireVerifiedEvidence || candidate.evidence.isVerified then true
  else !candidate.evidence.wasReached && entry.any CatalogEntry.isVerified

def topicsCovered (spec : ProtectionPolicySpec) (pointTopics : List String) : Bool :=
  match spec.protects.topics with
  | none => true
  | some required => required.all fun t => pointTopics.any fun p => p == t

def matchesPolicy (candidate : PointCandidate) (spec : ProtectionPolicySpec) : Bool :=
  candidate.succeeded && candidate.sourceMatches && candidate.destinationMatches &&
    (candidate.coversAllTopics || topicsCovered spec candidate.topics)

def isAvailable (candidate : PointCandidate) (spec : ProtectionPolicySpec)
    (catalog : CatalogAnswer) : Bool :=
  if !matchesPolicy candidate spec then false
  else
    match catalog with
    | .notConsulted => evidenceObjectiveMet candidate spec none
    | .stale _ => false
    | .fresh entries => (entriesFor candidate entries).any fun e =>
        e.isAvailable && evidenceObjectiveMet candidate spec (some e)

def isUnplaceable (candidate : PointCandidate) (spec : ProtectionPolicySpec) : Bool :=
  candidate.recoveryPointAt.isNone && !candidate.evidence.wasReached && matchesPolicy candidate spec

def captureStart (c : PointCandidate) : Time := c.recoveryPointAt.getD 0

def newestFirst (candidates : List PointCandidate) : List PointCandidate :=
  candidates.mergeSort fun a b => decide (captureStart b ≤ captureStart a)

def availableOf (candidates : List PointCandidate) (spec : ProtectionPolicySpec)
    (catalog : CatalogAnswer) : List PointCandidate :=
  candidates.filter fun c => c.recoveryPointAt.isSome && isAvailable c spec catalog

def failedSlots (seen : List String) (count : Int) : List SlotRun → Int
  | [] => count
  | run :: slots =>
    if seen.contains run.slot then failedSlots seen count slots
    else
      match run.outcome with
      | .failed => failedSlots (seen ++ [run.slot]) (count + 1) slots
      | _ => count

def consecutiveFailedSlots (slots : List SlotRun) : Int := failedSlots [] 0 slots

structure Crates where
  slotInstant : String → Option Time

def missedSinceLastFire (crates : Crates) (facts : ScheduleFacts) : Bool :=
  if facts.missedSlots = some 0 then false
  else
    match facts.lastMissedSlot.bind crates.slotInstant with
    | none => false
    | some missedAt =>
      match facts.lastFireTime with
      | none => true
      | some fired => decide (fired < missedAt)

structure MissedSummary where
  lastMissedSlot : Option String
  sinceLastFire : Option Int

def missedSummary (input : Inputs) : MissedSummary where
  lastMissedSlot := (input.schedules.filterMap ScheduleFacts.lastMissedSlot).max?
  sinceLastFire := (input.schedules.filterMap ScheduleFacts.lastFireTime).max?.map fun fired =>
    max (wholeSeconds (input.now - fired)) 0

structure RehearsalSummary where
  lastSucceededAt : Option Time
  lastRestoreRef : Option String
  lastFailedAt : Option Time
  lastReason : Option String

def rehearsalSummary (facts : RehearsalFacts) : Option RehearsalSummary :=
  if facts.lastSucceededAt.isNone && facts.lastFailedAt.isNone && facts.lastRestore.isNone then none
  else some ⟨facts.lastSucceededAt, facts.lastRestore, facts.lastFailedAt, facts.lastReason⟩

def MAX_SCHEDULES : Nat := 16

def MAX_TOPICS : Nat := 64

def MAX_BACKUPS_LISTED : Nat := 1000

structure AvailablePointFacts where
  pointId : Option String
  backupName : Option String
  recoveryPointAt : Option Time
  newestRecordAt : Option Time
  ageSeconds : Option Int
  evidence : Evidence
  topics : List String
  topicsTruncated : Bool

def ageSeconds (now captured : Time) : Int := max (wholeSeconds (now - captured)) 0

def pointFacts (candidate : PointCandidate) (now : Time) : AvailablePointFacts where
  pointId := candidate.pointId
  backupName := candidate.backupName
  recoveryPointAt := candidate.recoveryPointAt
  newestRecordAt := candidate.newestRecordAt
  ageSeconds := candidate.recoveryPointAt.map (ageSeconds now)
  evidence := candidate.evidence
  topics := candidate.topics.take MAX_TOPICS
  topicsTruncated := decide (MAX_TOPICS < candidate.topics.length)

structure LastAttempt where
  backupRef : String
  phase : String
  reason : Option String
  «at» : Option Time

structure ScheduleSummary where
  name : String
  suspended : Bool
  ready : Option String
  nextFireTime : Option Time
  lastMissedSlot : Option String

structure Verdict where
  health : Health
  freshness : Freshness
  reason : FreshnessReason
  basis : AvailabilityBasis
  point : Option AvailablePointFacts
  lastAttempt : Option LastAttempt
  consecutiveFailedRuns : Option Int
  missed : MissedSummary
  schedules : List ScheduleSummary
  rehearsal : Option RehearsalSummary
  missedSinceLastFire : Bool
  openKinds : List PolicyAlertKind
  summary : String
  conditionSummary : String

def consultsCatalog (spec : ProtectionPolicySpec) : Bool :=
  spec.protects.catalogRef.isSome && spec.objectives.requireCatalogAvailability

def consultedCatalog (input : Inputs) : CatalogAnswer :=
  if consultsCatalog input.spec then input.catalog else .notConsulted

def basisOf : CatalogAnswer → AvailabilityBasis
  | .notConsulted => .kubernetesStatus
  | .fresh _ => .catalog
  | .stale _ => .catalogStale

def schedulesMissing (input : Inputs) : Bool :=
  (input.spec.protects.scheduleRefs.any fun refs => !refs.isEmpty) && !input.schedules.isEmpty &&
    input.schedules.all fun s => !s.exists

def unresolvable (input : Inputs) (catalog : CatalogAnswer) (newest : Option PointCandidate) :
    Option FreshnessReason :=
  if !input.sourceExists then some .sourceMissing
  else if !input.destinationExists then some .destinationMissing
  else if schedulesMissing input then some .scheduleMissing
  else if !input.backupsComplete then some .backupHistoryTooLarge
  else
    match catalog with
    | .stale reason => some reason
    | .notConsulted | .fresh _ =>
      if catalog.blankAxis then some .catalogUnreadable
      else if newest.isNone && input.candidates.any fun c => isUnplaceable c input.spec then
        some .pointFactsUnread
      else none

def freshnessOf (input : Inputs) (unresolvable : Option FreshnessReason)
    (newest : Option PointCandidate) (age : Option Int) : Freshness × FreshnessReason :=
  match unresolvable with
  | some reason => (.unknown, reason)
  | none =>
    match newest, age with
    | some _, some age =>
      if age ≤ input.spec.objectives.maxRecoveryPointAgeSeconds then (.fresh, .withinObjective)
      else (.stale, .pointOlderThanObjective)
    | _, _ => (.stale, .noAvailablePoint)

def isAtRisk (crates : Crates) (input : Inputs) (consecutiveFailedRuns : Int) : Bool :=
  (decide (input.spec.objectives.maxConsecutiveFailedRuns ≤ consecutiveFailedRuns) &&
      decide (0 < input.spec.objectives.maxConsecutiveFailedRuns)) ||
    (input.schedules.any fun s => s.suspended) ||
    (input.schedules.any fun s => s.ready = some "False") ||
    input.schedules.any (missedSinceLastFire crates)

def healthOf (freshness : Freshness) (atRisk : Bool) (newest : Option PointCandidate) : Health :=
  match freshness with
  | .unknown => .unknown
  | .fresh => if atRisk then .atRisk else .healthy
  | .stale => if newest.isSome then .stale else .unprotected

def archiveUnavailable (input : Inputs) (entries : List CatalogEntry)
    (newest : Option PointCandidate) : Bool :=
  let degraded := fun candidate => (entriesFor candidate entries).any CatalogEntry.isDegraded
  let otherwise := newestFirst (input.candidates.filter fun c =>
    c.recoveryPointAt.isSome && matchesPolicy c input.spec &&
      (!input.spec.objectives.requireVerifiedEvidence || c.evidence.isVerified ||
        !c.evidence.wasReached))
  otherwise.head?.any degraded || newest.any degraded

def rehearsalFailed (input : Inputs) (maxAge : Int) : Bool :=
  let failedLatest :=
    match input.rehearsal.lastFailedAt, input.rehearsal.lastSucceededAt with
    | some failed, some ok => decide (ok < failed)
    | some _, none => true
    | _, _ => false
  failedLatest || input.rehearsal.lastSucceededAt.all fun passed =>
    decide (maxAge < wholeSeconds (input.now - passed))

def kindIf (holds : Bool) (kind : PolicyAlertKind) : List PolicyAlertKind :=
  if holds then [kind] else []

def openAlertKinds (input : Inputs) (health : Health) (consecutiveFailedRuns : Int)
    (newest : Option PointCandidate) (catalog : CatalogAnswer) : List PolicyAlertKind :=
  let limit := input.spec.objectives.maxConsecutiveFailedRuns
  let unavailable :=
    match catalog with
    | .fresh entries => archiveUnavailable input entries newest
    | _ => false
  kindIf (decide (0 < limit) && decide (limit ≤ consecutiveFailedRuns)) .backupFailure ++
    kindIf (health = .stale || health = .unprotected) .staleness ++
    kindIf unavailable .archiveUnavailable ++
    kindIf (input.spec.objectives.maxRehearsalAgeSeconds.any (rehearsalFailed input)) .rehearsalFailure

def humanize (seconds : Int) : String :=
  let s := max seconds 0
  let d := s / 86400
  let h := s % 86400 / 3600
  let m := s % 3600 / 60
  if 0 < d then toString d ++ "d " ++ toString h ++ "h"
  else if 0 < h then toString h ++ "h " ++ toString m ++ "m"
  else if 0 < m then toString m ++ "m"
  else toString s ++ "s"

def summarize (spec : ProtectionPolicySpec) (health : Health) (reason : FreshnessReason)
    (point : Option AvailablePointFacts) (consecutiveFailedRuns : Int) (withAge : Bool) : String :=
  let objective := humanize spec.objectives.maxRecoveryPointAgeSeconds
  let age := (point.bind AvailablePointFacts.ageSeconds).filter fun _ => withAge
  match health with
  | .healthy =>
    match age with
    | some age => "the newest available recovery point is " ++ humanize age ++
        " old, inside the objective of " ++ objective
    | none => "the newest available recovery point is inside the objective of " ++ objective
  | .atRisk => "a recovery point is inside the objective, but protection is at risk: " ++
      toString consecutiveFailedRuns ++ " consecutive failed slots, a suspended or not-ready " ++
      "schedule, or a slot missed since the last fire"
  | .stale =>
    match age with
    | some age => "the newest available recovery point is " ++ humanize age ++
        " old, past the objective of " ++ objective
    | none => "the newest available recovery point is past the objective of " ++ objective
  | .unprotected => "there is no available recovery point for this policy at all"
  | .unknown =>
    if reason = .pointFactsUnread then
      "a run for this policy succeeded, but its recovery point could not be placed in time: the " ++
        "controller read no verification verdict for it and so holds no capture time, and an age " ++
        "cannot be compared to the objective of " ++ objective ++
        ". This is not a pass and not a failure"
    else if reason = .backupHistoryTooLarge then
      "the namespace holds more than " ++ toString MAX_BACKUPS_LISTED ++ " Backup objects, the " ++
        "most one evaluation reads, and they are listed by name, so the newest runs may be among " ++
        "those not read; protection could not be evaluated, and this is not a pass and not a " ++
        "failure. Delete old terminal Backup objects (the archive keeps their points) and the " ++
        "policy evaluates again"
    else "protection could not be evaluated (" ++ reason.asStr ++
      "); this is not a pass and not a failure"

def scheduleSummaryOf (s : ScheduleFacts) : ScheduleSummary :=
  ⟨s.name, s.suspended, s.ready, s.nextFireTime, s.lastMissedSlot⟩

def lastAttemptOf (run : SlotRun) : LastAttempt :=
  ⟨run.backupName, run.outcome.phase, run.reason, run.at⟩

def newestOf (input : Inputs) : Option PointCandidate :=
  (newestFirst (availableOf input.candidates input.spec (consultedCatalog input))).head?

def freshnessFor (input : Inputs) : Freshness × FreshnessReason :=
  let newest := newestOf input
  freshnessOf input (unresolvable input (consultedCatalog input) newest) newest
    (newest.bind fun c => (pointFacts c input.now).ageSeconds)

def evaluate (crates : Crates) (input : Inputs) : Verdict :=
  let catalog := consultedCatalog input
  let newest := newestOf input
  let streak := consecutiveFailedSlots input.slots
  let (freshness, reason) := freshnessFor input
  let health := healthOf freshness (isAtRisk crates input streak) newest
  let openKinds := openAlertKinds input health streak newest catalog
  let point := if input.backupsComplete then newest.map fun c => pointFacts c input.now else none
  { health
    freshness
    reason
    basis := basisOf catalog
    point
    lastAttempt := if input.backupsComplete then input.slots.head?.map lastAttemptOf else none
    consecutiveFailedRuns := if input.backupsComplete then some streak else none
    missed := missedSummary input
    schedules := (input.schedules.take MAX_SCHEDULES).map scheduleSummaryOf
    rehearsal := rehearsalSummary input.rehearsal
    missedSinceLastFire := input.schedules.any (missedSinceLastFire crates)
    openKinds := if input.backupsComplete then openKinds
      else openKinds.filter fun k => !(k = .backupFailure || k = .archiveUnavailable)
    summary := summarize input.spec health reason point streak true
    conditionSummary := summarize input.spec health reason point streak false }

end Logweir.Protection
