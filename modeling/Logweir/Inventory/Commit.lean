import Logweir.Inventory.Result
import Logweir.Library.Programs

/-!
# The commit of a discovery

`weirkeeper::controllers::topic_discovery` on a finished Job: one reconcile pass as a
program of API calls.  A pass decodes the relay, cuts it to what the policy in force
lets it store, writes the chunks, commits the status that indexes them and only then
patches the Job's TTL.  Every call a pass makes is justified by what it was told.
-/

set_option autoImplicit false

namespace Logweir.Inventory

open Std Logweir.Text Logweir.CheckContract Logweir.Programs
open Logweir.Schedule (Condition Instant seconds mergeCondition currentCondition)

def CONDITION_COMPLETE : String := "Complete"

def PHASE_PENDING : String := "Pending"
def PHASE_SUCCEEDED : String := "Succeeded"
def PHASE_FAILED : String := "Failed"
def PHASE_CANCELLED : String := "Cancelled"

def TERMINAL_PHASES : List String := [PHASE_SUCCEEDED, PHASE_FAILED, PHASE_CANCELLED]

inductive CheckState where
  | ready
  | notReady
  | unknown
  | skipped
  deriving DecidableEq

inductive Gating where
  | blocking
  | advisory
  | executionOnly
  deriving DecidableEq

structure CheckOutcome where
  id : String
  state : CheckState
  gating : Gating
  code : CheckCode
  message : String
  remedy : String

structure CheckResult where
  checks : List CheckOutcome
  inventory : Option InventoryResult

/-- A verified relay.  Its document is absent, unreadable or read, and the decoder
took only topic frames whose names Kafka accepts. -/
structure Relay where
  topics : List TopicEntry
  result : Option (Except (CheckCode × String) CheckResult)
  legal : ∀ e ∈ topics, topicNameIsKafkaLegal e.name = true

structure Policy where
  hardMaxTopics : Nat
  freshSeconds : Nat
  digest : String
  some_ : 1 ≤ hardMaxTopics
  most : hardMaxTopics ≤ MAX_TOPICS_CEILING

structure Version where
  resourceVersion : Nat
  generation : Option Int
  cancelRequested : Bool
  status : Option TopicDiscoveryStatus
  deriving DecidableEq

def Version.phase (v : Version) : String :=
  (v.status.bind TopicDiscoveryStatus.phase).getD PHASE_PENDING

def Version.isTerminal (v : Version) : Bool := TERMINAL_PHASES.contains v.phase

/-- What no write to a discovery changes: its Job, its owner reference, its immutable
request and the relay on the Job's pod. -/
structure Subject where
  jobName : String
  namespace_ : String
  owner : RunnerOwner
  maxTopics : Int
  relay : Relay

structure Start where
  version : Version
  policy : Policy
  startedAt : Option Instant
  observedAt : Instant
  now : Instant

structure Rendering where
  sha256 : List UInt8 → List UInt8
  redact : String → String
  showTime : Instant → String
  visibility : Policy → Option TopicDiscoveryStatus → InventoryResult → Instant → DiscoveryVisibility

inductive KubeError where
  | api (code : Nat)
  | unanswered
  deriving DecidableEq

def KubeError.isConflict (e : KubeError) : Bool := decide (e = .api 409)

inductive Call where
  | createMap (map : ConfigMap)
  | getMap (name : String)
  | patchStatus (resourceVersion : Nat) (patch : TopicDiscoveryStatus)
  | setTtl

def Call.Answer : Call → Type
  | createMap _ => Except KubeError Unit
  | getMap _ => Except KubeError (Option ConfigMap)
  | patchStatus _ _ => Except KubeError Unit
  | setTtl => Except KubeError Unit

abbrev Pass := Program Call Call.Answer KubeError

def Pass.create (map : ConfigMap) : Pass (Except KubeError Unit) :=
  Program.call (Call.createMap map)
def Pass.getOpt (name : String) : Pass (Except KubeError (Option ConfigMap)) :=
  Program.call (Call.getMap name)
def Pass.patchStatus (resourceVersion : Nat) (patch : TopicDiscoveryStatus) :
    Pass (Except KubeError Unit) := Program.call (Call.patchStatus resourceVersion patch)
def Pass.ttl : Pass (Except KubeError Unit) := Program.call Call.setTtl

structure Outcome where
  phase : String
  reason : String
  chunksWritten : Nat := 0
  committed : Bool := false
  ttlPatched : Bool := false
  deriving DecidableEq

def writeOne (ownerUid : String) (object : ConfigMap) : Pass (Except ChunkConflict Unit) := do
  match ← Pass.create object with
  | .ok () => pure (.ok ())
  | .error failure =>
      if failure.isConflict then
        match ← Pass.getOpt object.name with
        | .error failure => .stop failure
        | .ok none => .stop failure
        | .ok (some existing) =>
            pure (acceptsExisting existing ownerUid (object.sha256.getD ""))
      else .stop failure

def writeAll (ownerUid : String) : List ConfigMap → Pass (Except ChunkConflict (List String))
  | [] => pure (.ok [])
  | object :: objects => do
      match ← writeOne ownerUid object with
      | .error conflict => pure (.error conflict)
      | .ok () => do
          let written ← writeAll ownerUid objects
          pure (written.map fun names => object.name :: names)

def statusUnchanged (current : Option TopicDiscoveryStatus) (patch : TopicDiscoveryStatus) : Bool :=
  current.any fun status => decide (status.merge patch = status)

def capMessage (message : String) : String :=
  if message.toList.length ≤ 1024 then message
  else String.ofList (message.toList.take 1023 ++ ['…'])

inductive Committing where
  | written
  | unchanged
  | conflicted
  deriving DecidableEq

def Committing.isCommitted : Committing → Bool
  | .written | .unchanged => true
  | .conflicted => false

def writeStatus (discovery : Version) (status : TopicDiscoveryStatus) : Pass Committing := do
  if statusUnchanged discovery.status status then pure .unchanged
  else
    match ← Pass.patchStatus discovery.resourceVersion status with
    | .ok () => pure .written
    | .error failure => if failure.isConflict then pure .conflicted else .stop failure

def finishJob (finished : Bool) (outcome : Outcome) : Pass Outcome := do
  if finished then
    match ← Pass.ttl with
    | .ok () => pure { outcome with ttlPatched := true }
    | .error failure => .stop failure
  else pure outcome

variable (R : Rendering)

def statusWithCondition (discovery : Version) (phase reason message : String) (now : Instant)
    (status : TopicDiscoveryStatus) : TopicDiscoveryStatus :=
  let conditionStatus :=
    if phase = PHASE_SUCCEEDED then "True"
    else if phase = PHASE_FAILED ∨ phase = PHASE_CANCELLED then "False"
    else "Unknown"
  { status with
    phase := some phase
    reason := some reason
    message := some (capMessage (R.redact message))
    conditions := some [mergeCondition
      (currentCondition (discovery.status.bind TopicDiscoveryStatus.conditions) CONDITION_COMPLETE)
      ⟨CONDITION_COMPLETE, conditionStatus, discovery.generation, some now, some reason,
        some (capMessage (R.redact message))⟩] }

def terminal (discovery : Version) (phase reason message : String) (status : TopicDiscoveryStatus)
    (now : Instant) : Pass Outcome := do
  let commit ← writeStatus discovery (statusWithCondition R discovery phase reason message now status)
  pure { phase, reason, committed := commit.isCommitted }

def cancelNow (discovery : Version) (now : Instant) : Pass Outcome :=
  terminal R discovery PHASE_CANCELLED CheckCode.cancelRequested.asStr
    ("the observation was cancelled before it produced a result; no topic inventory was " ++
      "stored, and any frames the runner still prints are discarded") {} now

def NO_RESULT_DOCUMENT : String :=
  "the check Job's relay carries no result document, so neither a topic inventory nor a check " ++
    "outcome could be read; nothing is inferred from the exit code"

def NO_INVENTORY_AND_NO_FAILURE : String :=
  "the check Job relayed a verified result that carries no topic inventory and no blocking check " ++
    "that is not ready; a topicInventory check that produced no inventory has nothing to store"

def blockingFailure (checks : List CheckOutcome) : Option CheckOutcome :=
  let blocking := checks.filter fun c => c.gating = .blocking
  (blocking.find? fun c => c.state = .notReady).or
    (blocking.find? fun c => c.state = .unknown ∨ c.state = .skipped)

def noInventoryVerdict (checks : Option (List CheckOutcome)) : CheckCode × String :=
  match checks with
  | none => (.resultUnreadable, NO_RESULT_DOCUMENT)
  | some checks =>
      match blockingFailure checks with
      | none => (.resultUnreadable, NO_INVENTORY_AND_NO_FAILURE)
      | some failed =>
          let message := failed.id ++ if failed.message.isEmpty then "" else ": " ++ failed.message
          let stop := if message.toList.getLast? = some '.' then "" else "."
          (failed.code, message ++
            if failed.remedy.isEmpty then "" else stop ++ " " ++ failed.remedy)

def Relay.document (relay : Relay) : Except (CheckCode × String) (Option CheckResult) :=
  match relay.result with
  | some (.ok result) => .ok (some result)
  | some (.error (code, e)) =>
      .error (code, "the check Job's result document did not verify: " ++ e)
  | none => .ok none

def Relay.inventory (relay : Relay) : Except (CheckCode × String) InventoryResult := do
  let document ← relay.document
  match document.bind CheckResult.inventory with
  | none => throw (noInventoryVerdict (document.map CheckResult.checks))
  | some inventory =>
      match checkResultAgainstFrames R.sha256 inventory relay.topics with
      | .error refusal => throw (.resultUnreadable, refusal)
      | .ok () => pure inventory

variable (subject : Subject)

def Subject.ceiling (policy : Policy) : Nat :=
  storableEntryCeiling (effectiveMaxTopics subject.maxTopics policy.hardMaxTopics)

def Subject.objects (entries : List TopicEntry) : List ConfigMap :=
  let chunks := split R.sha256 entries
  chunks.map fun c => buildChunk subject.jobName subject.namespace_ subject.owner c chunks.length

/-- The status a stored inventory is committed with. -/
def Subject.observed (st : Start) (inventory : InventoryResult) (entries : List TopicEntry) :
    TopicDiscoveryStatus :=
  let verdict := R.visibility st.policy st.version.status inventory st.now
  let index := chunkIndex entries (split R.sha256 entries) subject.jobName
  let result := inventoryStatus R.sha256 inventory entries verdict index
  let note :=
    if entries.length < subject.relay.topics.length then
      "; the runner relayed " ++ toString subject.relay.topics.length ++
        " entries and the plan allowed " ++ toString (subject.ceiling st.policy) ++
        ", so the inventory was cut to the first " ++ toString entries.length ++
        " and is reported truncated"
    else ""
  statusWithCondition R st.version PHASE_SUCCEEDED CheckCode.succeeded.asStr
    ("observed " ++ toString result.counts.returned ++ " visible topics at " ++
      R.showTime st.observedAt ++ "; completeness is `" ++ result.visibility.state ++
      "` — Kafka omits topics this principal cannot describe, so a successful listing alone is " ++
      "never proof that the cluster holds no others" ++ note)
    st.now
    { startedAt := st.startedAt
      observedAt := some st.observedAt
      freshUntil := some (st.observedAt + seconds st.policy.freshSeconds)
      policyDigest := some st.policy.digest
      result := some result }

def Subject.commit (st : Start) : Pass Outcome := do
  let failed (reason : CheckCode) (message : String) : Pass Outcome :=
    terminal R st.version PHASE_FAILED reason.asStr message
      { startedAt := st.startedAt, observedAt := some st.observedAt } st.now
  match subject.relay.inventory R with
  | .error (reason, message) => failed reason message
  | .ok inventory =>
      let (inventory, entries) := clampToStorable R.sha256 inventory subject.relay.topics
        (subject.ceiling st.policy)
      let chunks := split R.sha256 entries
      if MAX_STATUS_CHUNKS < chunks.length then
        failed .resultUnreadable ("the inventory split into " ++ toString chunks.length ++
          " chunks, over the " ++ toString MAX_STATUS_CHUNKS ++
          " a TopicDiscovery status can index; nothing was stored")
      else
        match ← writeAll subject.owner.uid (subject.objects R entries) with
        | .error conflict => failed .resultStorageConflict conflict
        | .ok written =>
            let commit ← writeStatus st.version (subject.observed R st inventory entries)
            let outcome : Outcome :=
              { phase := PHASE_SUCCEEDED, reason := CheckCode.succeeded.asStr
                chunksWritten := written.length, committed := commit.isCommitted }
            if commit.isCommitted then finishJob true outcome else pure outcome

def Subject.reconcile (st : Start) : Pass Outcome :=
  if st.version.isTerminal then
    pure { phase := st.version.phase
           reason := (st.version.status.bind TopicDiscoveryStatus.reason).getD "" }
  else if st.version.cancelRequested then cancelNow R st.version st.now
  else subject.commit R st

section

def Subject.kept (policy : Policy) : List TopicEntry :=
  subject.relay.topics.take (subject.ceiling policy)

def Subject.cut (policy : Policy) : Nat :=
  min (subject.ceiling policy) subject.relay.topics.length

def Subject.stored (policy : Policy) : List ConfigMap := subject.objects R (subject.kept policy)

/-- The relay carries an inventory that may be stored. -/
def Subject.Readable : Prop := ∃ inventory, subject.relay.inventory R = .ok inventory

variable {R} {subject}

theorem kept_of_cut {p p' : Policy} (same : subject.cut p = subject.cut p') :
    subject.kept p = subject.kept p' := by
  unfold Subject.kept
  rw [List.take_eq_take_min, List.take_eq_take_min (i := subject.ceiling p')]
  exact congrArg (fun n => subject.relay.topics.take n) same

theorem ceiling_le (subject : Subject) (policy : Policy) : subject.ceiling policy ≤ MAX_TOPICS_CEILING := by
  have some_ := policy.some_
  have most := policy.most
  unfold Subject.ceiling storableEntryCeiling effectiveMaxTopics
  omega

theorem length_kept (subject : Subject) (policy : Policy) : (subject.kept policy).length ≤ MAX_TOPICS_CEILING :=
  Nat.le_trans (List.length_take_le _ _) (ceiling_le subject policy)

theorem legal_kept (subject : Subject) (policy : Policy) :
    ∀ e ∈ subject.kept policy, topicNameIsKafkaLegal e.name = true := fun e member =>
  subject.relay.legal e (List.mem_of_mem_take member)

theorem chunks_fit (policy : Policy) :
    (split R.sha256 (subject.kept policy)).length ≤ MAX_STATUS_CHUNKS := by
  have few := length_split_le R.sha256 fun e member =>
    utf8ByteSize_tsvLine (legal_kept subject policy e member)
  have length := length_kept subject policy
  unfold MAX_TOPICS_CEILING at length
  unfold MAX_STATUS_CHUNKS
  omega

theorem inventory_agrees {relay : Relay} {inventory : InventoryResult}
    (read : relay.inventory R = .ok inventory) :
    checkResultAgainstFrames R.sha256 inventory relay.topics = .ok () := by
  unfold Relay.inventory at read
  obtain ⟨document, _, later⟩ := Results.bind_eq_ok.mp read
  split at later
  · cases later
  · rename_i found _
    split at later
    · cases later
    · rename_i agrees
      cases later
      exact agrees

theorem clamp_kept {inventory : InventoryResult} (read : subject.relay.inventory R = .ok inventory)
    (policy : Policy) :
    (clampToStorable R.sha256 inventory subject.relay.topics (subject.ceiling policy)).2 =
        subject.kept policy ∧
      (clampToStorable R.sha256 inventory subject.relay.topics
        (subject.ceiling policy)).1.counts.returned.toNat = (subject.kept policy).length := by
  have most := ceiling_le subject policy
  apply clampToStorable_spec R.sha256 (inventory_agrees read)
  unfold MAX_TOPICS_CEILING at most
  omega

variable (R) (subject)

abbrev Told := List (Event Call Call.Answer)

/-- The pass was told that the object is stored. -/
def Subject.Accounted (log : Told) (object : ConfigMap) : Prop :=
  ⟨.createMap object, .ok ()⟩ ∈ log ∨ ∃ existing, ⟨.getMap object.name, .ok (some existing)⟩ ∈ log ∧
    acceptsExisting existing subject.owner.uid (object.sha256.getD "") = .ok ()

/-- The pass was told of another object at the object's name. -/
def Subject.Rejected (log : Told) (object : ConfigMap) : Prop :=
  ∃ existing, ⟨.getMap object.name, .ok (some existing)⟩ ∈ log ∧
    acceptsExisting existing subject.owner.uid (object.sha256.getD "") ≠ .ok ()

/-- A status that says `Succeeded` says what is stored. -/
structure Subject.Publishes (policy : Policy) (status : TopicDiscoveryStatus) : Prop where
  phase : status.phase = some PHASE_SUCCEEDED
  reason : status.reason = some CheckCode.succeeded.asStr
  result : ∃ (inventory : InventoryResult) (verdict : DiscoveryVisibility),
    inventory.counts.returned.toNat = (subject.kept policy).length ∧
      status.result = some (inventoryStatus R.sha256 inventory (subject.kept policy) verdict
        (chunkIndex (subject.kept policy) (split R.sha256 (subject.kept policy)) subject.jobName))

structure Subject.MaySend (st : Start) (log : Told) (status : TopicDiscoveryStatus) : Prop where
  terminal : ∃ phase ∈ TERMINAL_PHASES, status.phase = some phase
  reason : ∃ reason, status.reason = some reason
  stored : status.phase = some PHASE_SUCCEEDED → subject.Readable R ∧
    subject.Publishes R st.policy status ∧
    ∀ object ∈ subject.stored R st.policy, subject.Accounted log object
  conflict : subject.Readable R → status.reason = some CheckCode.resultStorageConflict.asStr →
    ∃ object ∈ subject.stored R st.policy, subject.Rejected log object

def Subject.Asks (st : Start) (log : Told) : Call → Prop
  | .createMap map => subject.Readable R ∧ map ∈ subject.stored R st.policy
  | .getMap name => subject.Readable R ∧ ∃ map ∈ subject.stored R st.policy, name = map.name
  | .patchStatus resourceVersion patch => resourceVersion = st.version.resourceVersion ∧
      st.version.isTerminal = false ∧ subject.MaySend R st log patch
  | .setTtl => ∃ patch, ⟨.patchStatus st.version.resourceVersion patch, .ok ()⟩ ∈ log ∧
      patch.phase = some PHASE_SUCCEEDED

/-- A pass ends in a conflict only when it was told of one, or found it stored. -/
def Subject.Ends (st : Start) (log : Told) (outcome : Outcome) : Prop :=
  subject.Readable R → outcome.reason = CheckCode.resultStorageConflict.asStr →
    (∃ object ∈ subject.stored R st.policy, subject.Rejected log object) ∨
      st.version.isTerminal = true ∧
        (st.version.status.bind TopicDiscoveryStatus.reason).getD "" = outcome.reason

end

section

open Program

variable {R} {subject} {st : Start} {log log' : Told}

theorem Subject.Accounted.grows {object : ConfigMap} (grown : log <+: log')
    (told : subject.Accounted log object) : subject.Accounted log' object := by
  rcases told with created | ⟨existing, read, accepted⟩
  · exact .inl (grown.subset created)
  · exact .inr ⟨existing, grown.subset read, accepted⟩

theorem writeOne_meets (readable : subject.Readable R) {object : ConfigMap}
    (own : object ∈ subject.stored R st.policy) :
    (writeOne subject.owner.uid object).Meets (subject.Asks R st)
      (fun log written => match written with
        | .ok () => subject.Accounted log object
        | .error _ => subject.Rejected log object) log := by
  refine meets_bind (meets_told ⟨readable, own⟩) ?_
  intro log created told
  cases created with
  | ok u => exact .inl told
  | error failure =>
      dsimp only
      split
      · refine meets_bind (meets_told ⟨readable, object, own, rfl⟩) ?_
        intro log existing told
        match existing with
        | .error failure => exact meets_stop
        | .ok none => exact meets_stop
        | .ok (some existing) =>
            apply meets_pure
            cases accepted : acceptsExisting existing subject.owner.uid (object.sha256.getD "") with
            | ok u => exact .inr ⟨existing, told, accepted⟩
            | error conflict => exact ⟨existing, told, fun same => by
                rw [accepted] at same
                cases same⟩
      · exact meets_stop

theorem writeAll_meets (readable : subject.Readable R) (objects : List ConfigMap)
    (own : ∀ object ∈ objects, object ∈ subject.stored R st.policy) : ∀ log,
    (writeAll subject.owner.uid objects).Meets (subject.Asks R st)
      (fun log written => match written with
        | .ok _ => ∀ object ∈ objects, subject.Accounted log object
        | .error _ => ∃ object ∈ subject.stored R st.policy, subject.Rejected log object) log := by
  induction objects with
  | nil => exact fun log object member => absurd member List.not_mem_nil
  | cons object objects ih =>
      intro log
      have here := own object List.mem_cons_self
      refine meets_seq (writeOne_meets readable here) ?_
      intro log₁ written _ told
      cases written with
      | error conflict => exact ⟨object, here, told⟩
      | ok u =>
          refine meets_seq (ih (fun o member => own o (List.mem_cons_of_mem _ member)) log₁) ?_
          intro log₂ rest grown later
          apply meets_pure
          cases rest with
          | error conflict => exact later
          | ok names =>
              intro o member
              rcases List.mem_cons.mp member with rfl | member
              · exact Subject.Accounted.grows grown told
              · exact later o member

theorem mem_terminal {phase : String} : phase ∈ TERMINAL_PHASES ↔
    phase = PHASE_SUCCEEDED ∨ phase = PHASE_FAILED ∨ phase = PHASE_CANCELLED := by
  unfold TERMINAL_PHASES
  rw [List.mem_cons, List.mem_cons, List.mem_singleton]

theorem writeStatus_meets (unfinished : st.version.isTerminal = false)
    {status : TopicDiscoveryStatus} (may : subject.MaySend R st log status) :
    (writeStatus st.version status).Meets (subject.Asks R st)
      (fun log' commit => log <+: log' ∧ (commit = .written →
        ⟨.patchStatus st.version.resourceVersion status, .ok ()⟩ ∈ log') ∧
        (commit = .unchanged → statusUnchanged st.version.status status = true)) log := by
  unfold writeStatus
  split
  · rename_i same
    exact meets_pure ⟨List.prefix_rfl, (fun written => by cases written), fun _ => same⟩
  · refine meets_seq (meets_told ⟨rfl, unfinished, may⟩) ?_
    intro log' answer grown told
    cases answer with
    | ok u => exact meets_pure ⟨grown, fun _ => told, (fun unchanged => by cases unchanged)⟩
    | error failure =>
        dsimp only
        split
        · exact meets_pure ⟨grown, (fun written => by cases written), (fun unchanged => by cases unchanged)⟩
        · exact meets_stop

theorem terminal_meets (unfinished : st.version.isTerminal = false) {phase reason message : String}
    {status : TopicDiscoveryStatus} (failed : phase = PHASE_FAILED ∨ phase = PHASE_CANCELLED)
    (justified : subject.Readable R → reason = CheckCode.resultStorageConflict.asStr →
      ∃ object ∈ subject.stored R st.policy, subject.Rejected log object) :
    (terminal R st.version phase reason message status st.now).Meets (subject.Asks R st)
      (subject.Ends R st) log := by
  have other : phase ≠ PHASE_SUCCEEDED := by
    rcases failed with rfl | rfl <;> decide
  refine meets_bind (writeStatus_meets unfinished ⟨⟨phase, mem_terminal.mpr (.inr failed), rfl⟩,
    ⟨reason, rfl⟩, fun succeeded => absurd (Option.some.inj succeeded) other,
    fun readable same => justified readable (Option.some.inj same)⟩) ?_
  rintro log' commit ⟨grown, -⟩
  apply meets_pure
  intro readable same
  obtain ⟨object, own, existing, told, differs⟩ := justified readable same
  exact .inl ⟨object, own, existing, grown.subset told, differs⟩

theorem finishJob_meets {outcome : Outcome} {patch : TopicDiscoveryStatus}
    (committed : ⟨.patchStatus st.version.resourceVersion patch, .ok ()⟩ ∈ log)
    (succeeded : patch.phase = some PHASE_SUCCEEDED)
    (reason : outcome.reason ≠ CheckCode.resultStorageConflict.asStr) (finished : Bool) :
    (finishJob finished outcome).Meets (subject.Asks R st) (subject.Ends R st) log := by
  unfold finishJob
  split
  · refine meets_bind (meets_told ⟨patch, committed, succeeded⟩) ?_
    intro log' answer _
    cases answer with
    | ok u => exact meets_pure fun _ same => absurd same reason
    | error failure => exact meets_stop
  · exact meets_pure fun _ same => absurd same reason

theorem changed_by_success (unfinished : st.version.isTerminal = false)
    {status : TopicDiscoveryStatus} (succeeded : status.phase = some PHASE_SUCCEEDED) :
    statusUnchanged st.version.status status = false := by
  rw [Bool.eq_false_iff]
  intro same
  cases held : st.version.status with
  | none => rw [held] at same; cases same
  | some stored =>
      rw [held] at same
      have phase : stored.phase = some PHASE_SUCCEEDED := by
        rw [← of_decide_eq_true same]
        change status.phase.or stored.phase = _
        rw [succeeded, Option.some_or]
      have finished : st.version.isTerminal = true := by
        unfold Version.isTerminal Version.phase
        rw [held, Option.bind_some, phase]
        rfl
      rw [finished] at unfinished
      cases unfinished

theorem observed_publishes {inventory : InventoryResult}
    (counted : inventory.counts.returned.toNat = (subject.kept st.policy).length) :
    subject.Publishes R st.policy (subject.observed R st inventory (subject.kept st.policy)) :=
  ⟨rfl, rfl, inventory, _, counted, rfl⟩

theorem conflict_ne_unreadable : CheckCode.resultUnreadable.asStr ≠
    CheckCode.resultStorageConflict.asStr := by decide

theorem conflict_ne_succeeded : CheckCode.succeeded.asStr ≠
    CheckCode.resultStorageConflict.asStr := by decide

theorem commit_meets (unfinished : st.version.isTerminal = false) :
    (subject.commit R st).Meets (subject.Asks R st) (subject.Ends R st) [] := by
  unfold Subject.commit
  simp only
  split
  · rename_i reason message refused
    refine terminal_meets unfinished (.inl rfl) fun readable _ => ?_
    obtain ⟨inventory, read⟩ := readable
    rw [refused] at read
    cases read
  · rename_i inventory read
    obtain ⟨entries, counted⟩ := clamp_kept read st.policy
    have readable : subject.Readable R := ⟨inventory, read⟩
    rw [entries]
    split
    · exact terminal_meets unfinished (.inl rfl) fun _ same => absurd same conflict_ne_unreadable
    · refine meets_bind (writeAll_meets readable (subject.stored R st.policy)
        (fun _ own => own) []) ?_
      intro log written told
      cases written with
      | error conflict => exact terminal_meets unfinished (.inl rfl) fun _ _ => told
      | ok written =>
          have publishes := observed_publishes (R := R) counted
          refine meets_bind (writeStatus_meets unfinished ⟨⟨_, mem_terminal.mpr (.inl rfl),
            publishes.phase⟩, ⟨_, publishes.reason⟩, fun _ => ⟨readable, publishes, told⟩, fun _ same => ?_⟩) ?_
          · rw [publishes.reason] at same
            exact absurd (Option.some.inj same) conflict_ne_succeeded
          · rintro log' commit ⟨_, sent, unchanged⟩
            cases commit with
            | written =>
                rw [if_pos (by rfl)]
                exact finishJob_meets (sent rfl) publishes.phase conflict_ne_succeeded true
            | unchanged =>
                rw [changed_by_success unfinished publishes.phase] at unchanged
                cases unchanged rfl
            | conflicted => exact meets_pure fun _ same => absurd same conflict_ne_succeeded

theorem reconcile_meets :
    (subject.reconcile R st).Meets (subject.Asks R st) (subject.Ends R st) [] := by
  unfold Subject.reconcile
  split
  · rename_i finished
    exact meets_pure fun _ _ => .inr ⟨finished, rfl⟩
  · rename_i unfinished
    rw [Bool.not_eq_true] at unfinished
    split
    · refine terminal_meets unfinished (.inr rfl) fun _ same => absurd same ?_
      decide
    · exact commit_meets unfinished

end

end Logweir.Inventory
