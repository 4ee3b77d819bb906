import Logweir.Library.TreeMaps
import Logweir.Schedule.Objects

/-!
# The manual-run pool

`weirkeeper::run_pool`: where a run stands in its workspace's pool, and the
check-and-reserve that admits it or queues it.
-/

set_option autoImplicit false

namespace Logweir.RunPool

open Std (ExtTreeMap)
open Logweir.Schedule (Trigger TriggerKind)

def RESERVATION_TTL_SECONDS : Int := 120
def PHASE_QUEUED : String := "Queued"
def PHASE_PENDING : String := "Pending"
def PHASE_SUCCEEDED : String := "Succeeded"
def PHASE_FAILED : String := "Failed"
def PHASE_REFUSED : String := "Refused"
def PHASE_INTERRUPTED : String := "Interrupted"
def CONDITION_ADMITTED : String := "Admitted"
def TRIGGERED_BY_SCHEDULE : String := "schedule"

inductive PoolKind where
  | backup
  | restore
deriving DecidableEq, Repr

inductive Standing where
  | occupying
  | waiting
  | outside
  | finished
deriving DecidableEq, Repr

structure Meta where
  uid : Option String
  creationTimestamp : Option Int
  workspace : Option String
deriving DecidableEq, Repr

class Resource (K : Type) where
  objectMeta : K → Meta

structure QueueKey where
  created : Option Int
  uid : String
deriving DecidableEq, Repr

def QueueKey.of {K : Type} [Resource K] (object : K) : QueueKey where
  created := (Resource.objectMeta object).creationTimestamp
  uid := (Resource.objectMeta object).uid.getD ""

def compareCreated : Option Int → Option Int → Ordering
  | none, none => .eq
  | none, some _ => .lt
  | some _, none => .gt
  | some a, some b => compare a b

def QueueKey.before (a b : QueueKey) : Bool :=
  ((compareCreated a.created b.created).then (compare a.uid b.uid)).isLT

inductive Decision where
  | admit_ (active ahead : Nat) (limit : UInt32)
  | queued (active ahead : Nat) (limit : UInt32)
  | unsynced
deriving DecidableEq, Repr

def Decision.isAdmitted : Decision → Bool
  | .admit_ _ _ _ => true
  | _ => false

structure Condition where
  type : String
  status : String
deriving DecidableEq, Repr

structure RunStatus where
  phase : Option String := none
  execution : Bool := false
  jobRef : Option String := none
  conditions : Option (List Condition) := none
deriving DecidableEq, Repr

structure Backup where
  metadata : Meta
  trigger : Option Trigger
  triggeredBy : String
  status : Option RunStatus
deriving DecidableEq, Repr

structure Restore where
  metadata : Meta
  authorization : Option String
  status : Option RunStatus
deriving DecidableEq, Repr

instance : Resource Backup := ⟨Backup.metadata⟩

instance : Resource Restore := ⟨Restore.metadata⟩

def declaredTrigger (backup : Backup) : TriggerKind :=
  match backup.trigger with
  | some trigger => trigger.kind
  | none => if backup.triggeredBy = TRIGGERED_BY_SCHEDULE then .scheduled else .manual

def isManualBackup (backup : Backup) : Bool := declaredTrigger backup == .manual

def isManualRestore (restore : Restore) : Bool := restore.authorization.isNone

def isTerminalPhase (phase : Option String) : Bool :=
  phase == some PHASE_SUCCEEDED || phase == some PHASE_FAILED || phase == some PHASE_REFUSED

def admittedByStatus (conditions : Option (List Condition)) : Bool :=
  conditions.any fun cs => cs.any fun c => c.type == CONDITION_ADMITTED && c.status == "True"

def standingOfPhase (phase : Option String) : Standing :=
  if phase = none ∨ phase = some PHASE_QUEUED then .waiting
  else if phase = some PHASE_PENDING then .outside
  else .occupying

def backupStanding (backup : Backup) : Standing :=
  if !isManualBackup backup then .outside
  else
    let phase := backup.status.bind RunStatus.phase
    if isTerminalPhase phase then .finished
    else if backup.status.any fun s =>
        s.execution || s.jobRef.isSome || admittedByStatus s.conditions then .occupying
    else standingOfPhase phase

def restoreStanding (restore : Restore) : Standing :=
  if !isManualRestore restore then .outside
  else
    let phase := restore.status.bind RunStatus.phase
    if isTerminalPhase phase || phase == some PHASE_INTERRUPTED then .finished
    else if restore.status.any fun s => s.jobRef.isSome || admittedByStatus s.conditions then
      .occupying
    else standingOfPhase phase

def backupGated (backup : Backup) : Bool :=
  !(backup.status.any RunStatus.execution) && isManualBackup backup &&
    backupStanding backup != .occupying

def restoreGated (restore : Restore) : Bool :=
  isManualRestore restore && restoreStanding restore != .occupying

def upsertCondition (stored : List Condition) (owned : Condition) : List Condition :=
  match stored with
  | [] => [owned]
  | c :: stored => if c.type = owned.type then owned :: stored else c :: upsertCondition stored owned

def carryRemaining (stored : List Condition) (owned : Condition) : List Condition :=
  owned :: stored.filter fun c => c.type ≠ owned.type

def admittedStatusPatch (status : Option RunStatus) : RunStatus :=
  let s := status.getD {}
  { s with conditions := some (upsertCondition (s.conditions.getD []) ⟨CONDITION_ADMITTED, "True"⟩) }

def queuedStatusPatch (status : Option RunStatus) : RunStatus :=
  let s := status.getD {}
  { s with
    phase := some PHASE_QUEUED
    conditions := some (carryRemaining (s.conditions.getD []) ⟨CONDITION_ADMITTED, "False"⟩) }

theorem admittedByStatus_upsert (stored : List Condition) :
    admittedByStatus (some (upsertCondition stored ⟨CONDITION_ADMITTED, "True"⟩)) = true := by
  unfold admittedByStatus
  simp only [Option.any_some]
  induction stored with
  | nil => rfl
  | cons c stored ih =>
      unfold upsertCondition
      split
      · rfl
      · rw [List.any_cons, ih, Bool.or_true]

theorem not_admittedByStatus_carry (stored : List Condition) :
    admittedByStatus (some (carryRemaining stored ⟨CONDITION_ADMITTED, "False"⟩)) = false := by
  unfold admittedByStatus carryRemaining
  simp only [Option.any_some, List.any_cons, List.any_filter, Bool.or_eq_false_iff]
  refine ⟨rfl, List.any_eq_false.mpr ?_⟩
  intro c _ both
  simp only [Bool.and_eq_true, decide_eq_true_eq, beq_iff_eq] at both
  exact both.1 both.2.1

class PoolMember (K : Type) extends Resource K where
  kind : PoolKind
  standing : K → Standing
  gated : K → Bool
  admitted : K → K
  queued : K → K
  objectMeta_admitted : ∀ run, objectMeta (admitted run) = objectMeta run
  objectMeta_queued : ∀ run, objectMeta (queued run) = objectMeta run
  gated_standing : ∀ run, gated run = true → standing run ≠ .occupying
  standing_admitted : ∀ run, gated run = true → standing run ≠ .finished →
    standing (admitted run) = .occupying
  standing_queued : ∀ run, gated run = true → standing run ≠ .finished →
    standing (queued run) = .waiting

def admittedBackup (backup : Backup) : Backup :=
  { backup with status := some (admittedStatusPatch backup.status) }

def queuedBackup (backup : Backup) : Backup :=
  { backup with status := some (queuedStatusPatch backup.status) }

def admittedRestore (restore : Restore) : Restore :=
  { restore with status := some (admittedStatusPatch restore.status) }

def queuedRestore (restore : Restore) : Restore :=
  { restore with status := some (queuedStatusPatch restore.status) }

theorem status_admittedBackup (backup : Backup) :
    (admittedBackup backup).status = some (admittedStatusPatch backup.status) := rfl

theorem status_queuedBackup (backup : Backup) :
    (queuedBackup backup).status = some (queuedStatusPatch backup.status) := rfl

theorem status_admittedRestore (restore : Restore) :
    (admittedRestore restore).status = some (admittedStatusPatch restore.status) := rfl

theorem status_queuedRestore (restore : Restore) :
    (queuedRestore restore).status = some (queuedStatusPatch restore.status) := rfl

theorem phase_admitted (status : Option RunStatus) :
    (admittedStatusPatch status).phase = status.bind RunStatus.phase := by
  cases status <;> rfl

theorem recorded_admitted (status : Option RunStatus) :
    admittedByStatus (admittedStatusPatch status).conditions = true :=
  admittedByStatus_upsert _

theorem recorded_queued (status : Option RunStatus) :
    admittedByStatus (queuedStatusPatch status).conditions = false :=
  not_admittedByStatus_carry _

theorem standing_of_gatedBackup {backup : Backup} (gated : backupGated backup = true)
    (unfinished : backupStanding backup ≠ .finished) :
    isManualBackup backup = true ∧ isTerminalPhase (backup.status.bind RunStatus.phase) = false ∧
      (backup.status.any fun s => s.execution || s.jobRef.isSome) = false := by
  simp only [backupGated, Bool.and_eq_true, bne_iff_ne] at gated
  obtain ⟨⟨-, manual⟩, free⟩ := gated
  simp only [backupStanding, manual, Bool.not_true, Bool.false_eq_true, if_false] at unfinished free
  cases terminal : isTerminalPhase (backup.status.bind RunStatus.phase) with
  | true => simp [terminal] at unfinished
  | false =>
      refine ⟨manual, rfl, ?_⟩
      rw [terminal] at free
      cases status : backup.status with
      | none => rfl
      | some s =>
          rw [status] at free
          simp only [Option.any_some, Bool.false_eq_true, if_false] at free ⊢
          cases created : s.execution || s.jobRef.isSome with
          | false => rfl
          | true => simp [created] at free

theorem standing_of_gatedRestore {restore : Restore} (gated : restoreGated restore = true)
    (unfinished : restoreStanding restore ≠ .finished) :
    isManualRestore restore = true ∧
      (isTerminalPhase (restore.status.bind RunStatus.phase) ||
        restore.status.bind RunStatus.phase == some PHASE_INTERRUPTED) = false ∧
      (restore.status.any fun s => s.jobRef.isSome) = false := by
  simp only [restoreGated, Bool.and_eq_true, bne_iff_ne] at gated
  obtain ⟨manual, free⟩ := gated
  simp only [restoreStanding, manual, Bool.not_true, Bool.false_eq_true, if_false] at unfinished free
  cases over_ : isTerminalPhase (restore.status.bind RunStatus.phase) ||
      restore.status.bind RunStatus.phase == some PHASE_INTERRUPTED with
  | true => simp [over_] at unfinished
  | false =>
      refine ⟨manual, rfl, ?_⟩
      rw [over_] at free
      cases status : restore.status with
      | none => rfl
      | some s =>
          rw [status] at free
          simp only [Option.any_some, Bool.false_eq_true, if_false] at free ⊢
          cases created : s.jobRef.isSome with
          | false => rfl
          | true => simp [created] at free

theorem standing_admittedBackup (backup : Backup) (gated : backupGated backup = true)
    (unfinished : backupStanding backup ≠ .finished) :
    backupStanding (admittedBackup backup) = .occupying := by
  obtain ⟨manual, open_, -⟩ := standing_of_gatedBackup gated unfinished
  have same : isManualBackup (admittedBackup backup) = true := manual
  simp [backupStanding, same, status_admittedBackup, phase_admitted, open_, recorded_admitted]

theorem standing_queuedBackup (backup : Backup) (gated : backupGated backup = true)
    (unfinished : backupStanding backup ≠ .finished) :
    backupStanding (queuedBackup backup) = .waiting := by
  obtain ⟨manual, -, free⟩ := standing_of_gatedBackup gated unfinished
  have same : isManualBackup (queuedBackup backup) = true := manual
  have phase : (queuedStatusPatch backup.status).phase = some PHASE_QUEUED := rfl
  have created : ((queuedStatusPatch backup.status).execution ||
      (queuedStatusPatch backup.status).jobRef.isSome) = false := by
    cases status : backup.status <;> rw [status] at free
    · rfl
    · exact free
  simp only [backupStanding, same, status_queuedBackup, Option.bind_some, phase, Option.any_some, created,
    recorded_queued]
  rfl

theorem standing_admittedRestore (restore : Restore) (gated : restoreGated restore = true)
    (unfinished : restoreStanding restore ≠ .finished) :
    restoreStanding (admittedRestore restore) = .occupying := by
  obtain ⟨manual, open_, -⟩ := standing_of_gatedRestore gated unfinished
  have same : isManualRestore (admittedRestore restore) = true := manual
  simp only [restoreStanding, same, status_admittedRestore, Option.bind_some, phase_admitted, open_,
    Option.any_some, recorded_admitted, Bool.or_true]
  rfl

theorem standing_queuedRestore (restore : Restore) (gated : restoreGated restore = true)
    (unfinished : restoreStanding restore ≠ .finished) :
    restoreStanding (queuedRestore restore) = .waiting := by
  obtain ⟨manual, -, free⟩ := standing_of_gatedRestore gated unfinished
  have same : isManualRestore (queuedRestore restore) = true := manual
  have phase : (queuedStatusPatch restore.status).phase = some PHASE_QUEUED := rfl
  have created : (queuedStatusPatch restore.status).jobRef.isSome = false := by
    cases status : restore.status <;> rw [status] at free
    · rfl
    · exact free
  simp only [restoreStanding, same, status_queuedRestore, Option.bind_some, phase, Option.any_some, created,
    recorded_queued]
  rfl

instance : PoolMember Backup where
  kind := .backup
  standing := backupStanding
  gated := backupGated
  admitted := admittedBackup
  queued := queuedBackup
  objectMeta_admitted := fun _ => rfl
  objectMeta_queued := fun _ => rfl
  gated_standing := by
    intro backup gated
    simp only [backupGated, Bool.and_eq_true, bne_iff_ne] at gated
    exact gated.2
  standing_admitted := standing_admittedBackup
  standing_queued := standing_queuedBackup

instance : PoolMember Restore where
  kind := .restore
  standing := restoreStanding
  gated := restoreGated
  admitted := admittedRestore
  queued := queuedRestore
  objectMeta_admitted := fun _ => rfl
  objectMeta_queued := fun _ => rfl
  gated_standing := by
    intro restore gated
    simp only [restoreGated, Bool.and_eq_true, bne_iff_ne] at gated
    exact gated.2
  standing_admitted := standing_admittedRestore
  standing_queued := standing_queuedRestore

structure Reservation where
  kind : PoolKind
  workspace : String
  at_ : Int
deriving DecidableEq, Repr

abbrev Reservations := ExtTreeMap String Reservation

def U32_MAX : Nat := 4294967295

def saturatingAdd (a b : Nat) : Nat := min (a + b) U32_MAX

def Reservation.aged (r : Reservation) (now : Int) : Bool :=
  (now - r.at_).tdiv 1000000000 > RESERVATION_TTL_SECONDS

section Decide

variable {K : Type} [Resource K]

def workspaceOf (object : K) : String := (Resource.objectMeta object).workspace.getD ""

def uidOf (object : K) : String := (Resource.objectMeta object).uid.getD ""

def byUid (peers : List K) : ExtTreeMap String K :=
  TreeMaps.ofEntries (peers.filterMap fun p => (Resource.objectMeta p).uid.map fun u => (u, p))

def retained (kind : PoolKind) (workspace : String) (byUid : ExtTreeMap String K)
    (standing : K → Standing) (now : Int) (uid : String) (r : Reservation) : Bool :=
  if r.aged now then false
  else if r.kind ≠ kind ∨ r.workspace ≠ workspace then true
  else
    match byUid[uid]? with
    | none => false
    | some object => !(standing object == .occupying || standing object == .finished)

def Reservations.forget (held : Reservations) (kind : PoolKind) (workspace : String)
    (peers : List K) (standing : K → Standing) (now : Int) : Reservations :=
  held.filter (retained kind workspace (byUid peers) standing now)

def Reservations.reserved (held : Reservations) (kind : PoolKind) (workspace uid : String) : Bool :=
  (held[uid]?).any fun r => r.kind == kind && r.workspace == workspace

def tally (kind : PoolKind) (workspace uid : String) (key : QueueKey) (held : Reservations)
    (standing : K → Standing) (counts : Nat × Nat) (peer : K) : Nat × Nat :=
  if workspaceOf peer ≠ workspace ∨ uidOf peer = uid then counts
  else
    match standing peer, held.reserved kind workspace (uidOf peer) with
    | .occupying, _ => (saturatingAdd counts.1 1, counts.2)
    | .finished, _ => counts
    -- Admitted by this process, whatever its status says yet.
    | _, true => (saturatingAdd counts.1 1, counts.2)
    | .waiting, false =>
      if (QueueKey.of peer).before key then (counts.1, saturatingAdd counts.2 1) else counts
    | .outside, false => counts

def Reservations.decide (held : Reservations) (kind : PoolKind) (candidate : K)
    (peers : Option (List K)) (limit : UInt32) (standing : K → Standing) (now : Int) :
    Decision × Reservations :=
  match peers with
  | none => (.unsynced, held)
  | some peers =>
    let workspace := workspaceOf candidate
    let held := held.forget kind workspace peers standing now
    let uid := uidOf candidate
    let counts := peers.foldl
      (tally kind workspace uid (QueueKey.of candidate) held standing) (0, 0)
    if saturatingAdd counts.1 counts.2 < limit.toNat then
      (.admit_ counts.1 counts.2 limit, held.insert uid { kind, workspace, at_ := now })
    else (.queued counts.1 counts.2 limit, held.erase uid)

def takesSlot (kind : PoolKind) (workspace uid : String) (held : Reservations)
    (standing : K → Standing) (peer : K) : Bool :=
  workspaceOf peer == workspace && uidOf peer != uid &&
    (standing peer == .occupying ||
      (standing peer != .finished && held.reserved kind workspace (uidOf peer)))

def waitsAhead (kind : PoolKind) (workspace uid : String) (key : QueueKey) (held : Reservations)
    (standing : K → Standing) (peer : K) : Bool :=
  workspaceOf peer == workspace && uidOf peer != uid &&
    (standing peer == .waiting && !held.reserved kind workspace (uidOf peer) &&
      (QueueKey.of peer).before key)

variable {kind : PoolKind} {workspace uid : String} {key : QueueKey} {held : Reservations}
  {standing : K → Standing}

theorem tally_eq (a b : Nat) (peer : K) :
    tally kind workspace uid key held standing (a, b) peer =
      (if takesSlot kind workspace uid held standing peer then saturatingAdd a 1 else a,
        if waitsAhead kind workspace uid key held standing peer then saturatingAdd b 1 else b) := by
  unfold tally takesSlot waitsAhead
  by_cases here : workspaceOf peer = workspace
  · by_cases same : uidOf peer = uid
    · simp [same]
    · cases held.reserved kind workspace (uidOf peer) <;> cases standing peer <;> simp [here, same]
      split <;> rfl
  · simp [here]

theorem saturatingAdd_step (c : Prop) [Decidable c] (a : Nat) :
    (if c then saturatingAdd (saturatingAdd a 0) 1 else saturatingAdd a 0) =
      saturatingAdd (a + if c then 1 else 0) 0 := by
  unfold saturatingAdd
  split <;> omega

theorem saturatingAdd_assoc (a n m : Nat) : saturatingAdd (a + n) m = saturatingAdd a (m + n) := by
  unfold saturatingAdd
  omega

theorem foldl_tally (peers : List K) (a b : Nat) :
    peers.foldl (tally kind workspace uid key held standing) (saturatingAdd a 0, saturatingAdd b 0) =
      (saturatingAdd a (peers.countP (takesSlot kind workspace uid held standing)),
        saturatingAdd b (peers.countP (waitsAhead kind workspace uid key held standing))) := by
  induction peers generalizing a b with
  | nil => rfl
  | cons peer peers ih =>
      rw [List.foldl_cons, tally_eq, List.countP_cons, List.countP_cons]
      rw [saturatingAdd_step, saturatingAdd_step, ih, saturatingAdd_assoc, saturatingAdd_assoc]

def Reservations.taken (held : Reservations) (kind : PoolKind) (candidate : K) (peers : List K)
    (standing : K → Standing) (now : Int) : Nat :=
  peers.countP (takesSlot kind (workspaceOf candidate) (uidOf candidate)
    (held.forget kind (workspaceOf candidate) peers standing now) standing)

def Reservations.older (held : Reservations) (kind : PoolKind) (candidate : K) (peers : List K)
    (standing : K → Standing) (now : Int) : Nat :=
  peers.countP (waitsAhead kind (workspaceOf candidate) (uidOf candidate) (QueueKey.of candidate)
    (held.forget kind (workspaceOf candidate) peers standing now) standing)

theorem saturating_lt_iff (n m : Nat) (limit : UInt32) :
    saturatingAdd (saturatingAdd 0 n) (saturatingAdd 0 m) < limit.toNat ↔ n + m < limit.toNat := by
  have bound := limit.toNat_lt
  unfold saturatingAdd U32_MAX
  omega

theorem decide_cases (held : Reservations) (kind : PoolKind) (candidate : K) (peers : List K)
    (limit : UInt32) (standing : K → Standing) (now : Int) :
    (held.taken kind candidate peers standing now + held.older kind candidate peers standing now <
        limit.toNat ∧
      (held.decide kind candidate (some peers) limit standing now).1.isAdmitted = true ∧
      (held.decide kind candidate (some peers) limit standing now).2 =
        (held.forget kind (workspaceOf candidate) peers standing now).insert (uidOf candidate)
          { kind, workspace := workspaceOf candidate, at_ := now }) ∨
    (limit.toNat ≤
        held.taken kind candidate peers standing now + held.older kind candidate peers standing now ∧
      (held.decide kind candidate (some peers) limit standing now).1.isAdmitted = false ∧
      (held.decide kind candidate (some peers) limit standing now).2 =
        (held.forget kind (workspaceOf candidate) peers standing now).erase (uidOf candidate)) := by
  have counted : peers.foldl (tally kind (workspaceOf candidate) (uidOf candidate)
      (QueueKey.of candidate) (held.forget kind (workspaceOf candidate) peers standing now)
      standing) (0, 0) =
    (saturatingAdd 0 (held.taken kind candidate peers standing now),
      saturatingAdd 0 (held.older kind candidate peers standing now)) := foldl_tally peers 0 0
  have answer := saturating_lt_iff (held.taken kind candidate peers standing now)
    (held.older kind candidate peers standing now) limit
  unfold Reservations.decide
  simp only [counted]
  by_cases free : held.taken kind candidate peers standing now +
      held.older kind candidate peers standing now < limit.toNat
  · left
    rw [if_pos (answer.mpr free)]
    exact ⟨free, rfl, rfl⟩
  · right
    rw [if_neg fun less => free (answer.mp less)]
    exact ⟨Nat.le_of_not_lt free, rfl, rfl⟩

theorem getElem?_forget (held : Reservations) (kind : PoolKind) (workspace : String)
    (peers : List K) (standing : K → Standing) (now : Int) (u : String) :
    (held.forget kind workspace peers standing now)[u]? =
      (held[u]?).filter (retained kind workspace (byUid peers) standing now u) := by
  unfold Reservations.forget
  exact ExtTreeMap.getElem?_filter'

theorem reserved_iff (held : Reservations) (kind : PoolKind) (workspace uid : String) :
    held.reserved kind workspace uid = true ↔
      ∃ r, held[uid]? = some r ∧ r.kind = kind ∧ r.workspace = workspace := by
  unfold Reservations.reserved
  cases held[uid]? with
  | none => simp
  | some r => simp

theorem reserved_forget {held : Reservations} {peers : List K} {other kind : PoolKind}
    {workspace here : String} {standing : K → Standing} {now : Int} {r : Reservation}
    (there : held[uid]? = some r) (mine : r.kind = kind ∧ r.workspace = workspace)
    (young : r.aged now = false)
    (unsettled : other = kind → here = workspace → ∃ object, (byUid peers)[uid]? = some object ∧
      standing object ≠ .occupying ∧ standing object ≠ .finished) :
    (held.forget other here peers standing now).reserved kind workspace uid = true := by
  rw [reserved_iff]
  refine ⟨r, ?_, mine⟩
  rw [getElem?_forget, there, Option.filter_some]
  have keeps : retained other here (byUid peers) standing now uid r = true := by
    unfold retained
    rw [young]
    by_cases same : r.kind = other ∧ r.workspace = here
    · obtain ⟨object, shown, open_, unfinished⟩ := unsettled (same.1.symm.trans mine.1)
        (same.2.symm.trans mine.2)
      simp [same, shown, open_, unfinished]
    · have apart : r.kind ≠ other ∨ r.workspace ≠ here := by
        by_contra both
        simp only [not_or, ne_eq, not_not] at both
        exact same both
      simp [apart]
  rw [keeps]
  rfl

end Decide

end Logweir.RunPool
