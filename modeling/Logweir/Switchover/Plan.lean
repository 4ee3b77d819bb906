import Logweir.Library.Fields
import Logweir.Library.Results
import Logweir.Library.SortedMaps
import Logweir.Positions.Document
import Mathlib.Data.String.Basic

/-!
# The switchover plan

`logweir_core::switchover`: the plan an approver signs, its own shape, and what one target
group is asked before a position is committed for it.
-/

set_option autoImplicit false

namespace Logweir.Switchover

open Logweir.Text Logweir.Results Logweir.SortedMaps
open Logweir.PositionsMapping (isSha256Prefixed)

def PLAN_FORMAT_VERSION : String := "1.0.0"
def MAX_GROUPS : Nat := 100
def MAX_POSITIONS : Nat := 8192
def MAX_GROUP_ID_BYTES : Nat := 255

def TARGET_MARKS_UNREADABLE : String := "TargetMarksUnreadable"
def BELOW_TARGET_LOG_START : String := "BelowTargetLogStart"
def ABOVE_TARGET_END : String := "AboveTargetEnd"
def GROUP_ACTIVE : String := "GroupActive"
def TARGET_GROUP_TYPE_UNSUPPORTED : String := "TargetGroupTypeUnsupported"
def TARGET_GROUP_TYPE_UNPROVEN : String := "TargetGroupTypeUnproven"
def TARGET_NOT_VISIBLE : String := "TargetNotVisible"
def TARGET_POSITIONS_CHANGED : String := "TargetPositionsChanged"
def NOT_AUTHORIZED : String := "NotAuthorized"
def COMMIT_FAILED : String := "CommitFailed"

def APPLIED : String := "applied"
def ALREADY_APPLIED : String := "alreadyApplied"
def REFUSED : String := "refused"
def FAILED : String := "failed"

/-- `consumer_positions::INACTIVE_STATES` -/
def INACTIVE_STATES : List String := ["Empty", "Dead"]

abbrev Part := String × Nat

structure RestoreRef where
  name : String
  uid : String
  planHash : String
  scorecardSha256 : String
  mappingSha256 : String
deriving DecidableEq

structure RecordRef where
  key : String
  sha256 : String
deriving DecidableEq

inductive Expected where
  | word
  | positions (m : SortedMap Nat Int)
deriving DecidableEq

/-- `Expected::at` -/
def Expected.positionAt : Expected → Nat → Option Int
  | .word, _ => none
  | .positions m, partition => m.get? partition

structure PlanTopic where
  offsets : SortedMap Nat Int
  approximate : List Nat := []
  expected : Expected
deriving DecidableEq

structure PlanGroup where
  source : String
  target : String
  topics : SortedMap String PlanTopic
deriving DecidableEq

structure SwitchoverPlan where
  formatVersion : String
  restore : RestoreRef
  rollbackOf : Option RecordRef := none
  groups : List PlanGroup
deriving DecidableEq

def SwitchoverPlan.positions (plan : SwitchoverPlan) : Nat :=
  ((plan.groups.flatMap fun g => g.topics.values).map fun t => t.offsets.entries.length).sum

/-- `str::strip_suffix` -/
def stripSuffix (ending s : String) : Option String :=
  if ending.toList.isSuffixOf s.toList then
    some (String.ofList (s.toList.take (s.toList.length - ending.toList.length)))
  else none

/-- `ids::is_run_id_segment` -/
def isRunIdSegment (s : String) : Bool :=
  !s.toList.isEmpty && s.toList.all fun c => c.isAlphanum || c == '-' || c == '_'

def recordKey (runId : String) : String := "logweir/switchovers/" ++ runId ++ ".record.json"

def recordRunId (key : String) : Option String :=
  ((stripPrefix "logweir/switchovers/" key).bind (stripSuffix ".record.json")).filter isRunIdSegment

def idFault (what id : String) : Option String :=
  if trim id = "" ∨ id.toList.any isControl ∨ MAX_GROUP_ID_BYTES < id.utf8ByteSize then
    some s!"{what} {debug id} is blank, carries a control character or is over {MAX_GROUP_ID_BYTES} bytes"
  else none

def refuseFound {α : Type} (found : Option α) (words : α → String) : Except String Unit :=
  match found with
  | some a => .error (words a)
  | none => .ok ()

def checkId (what id : String) : Except String Unit := refuseFound (idFault what id) fun fault => fault

def checkExpected (rollback : Bool) (source topic : String) (offsets : SortedMap Nat Int) :
    Expected → Except String Unit
  | .word =>
      refuseIf (rollback = true)
        s!"group {debug source} {topic}: a rollback plan names the positions it expects, never none"
  | .positions m =>
      refuseIf (m.keys ≠ offsets.keys ∨ (m.values.any fun o => o < 0) = true)
        (s!"group {debug source} {topic}: expected names exactly the planned partitions, " ++
          "each at a non-negative offset")

def checkTopic (rollback : Bool) (source : String) (entry : String × PlanTopic) :
    Except String Unit := do
  refuseIf (trim entry.1 = "" ∨ entry.2.offsets.isEmpty)
    s!"group {debug source} topic {debug entry.1} is blank or names no partition"
  refuseFound (entry.2.offsets.entries.find? fun e => e.2 < 0) fun e =>
    s!"group {debug source} {entry.1}:{e.1} plans offset {e.2}; an offset is never negative"
  refuseFound (entry.2.approximate.find? fun p => !entry.2.offsets.keys.contains p) fun p =>
    s!"group {debug source} {entry.1}: approximate names partition {p}, which it does not plan"
  checkExpected rollback source entry.1 entry.2.offsets entry.2.expected

def checkGroup (rollback : Bool) (targets : List String) (g : PlanGroup) :
    Except String (List String) := do
  checkId "source group" g.source
  checkId "target group" g.target
  refuseIf (targets.contains g.target = true)
    s!"target group {debug g.target} is named twice; one group is applied once per plan"
  refuseIf (g.topics.isEmpty = true) s!"group {debug g.source} names no topic"
  g.topics.entries.forM (checkTopic rollback g.source)
  pure (g.target :: targets)

def checkRollbackOf : Option RecordRef → Except String Unit
  | none => .ok ()
  | some r => do
      refuseIf (recordRunId r.key = none)
        (s!"rollback_of.key {debug r.key} is not a switchover record key " ++
          "(logweir/switchovers/<run id>.record.json)")
      refuseIf (isSha256Prefixed r.sha256 = false)
        "rollback_of.sha256 is not sha256:<64 lowercase hex>"

def checkRestore (restore : RestoreRef) : Except String Unit := do
  [("restore.name", restore.name), ("restore.uid", restore.uid)].forM fun f =>
    refuseIf (trim f.2 = "") s!"{f.1} is blank"
  [("restore.plan_hash", restore.planHash), ("restore.scorecard_sha256", restore.scorecardSha256),
    ("restore.mapping_sha256", restore.mappingSha256)].forM fun f =>
    refuseIf (isSha256Prefixed f.2 = false) s!"{f.1} is not sha256:<64 lowercase hex>"

def validate (plan : SwitchoverPlan) : Except String Unit := do
  refuseIf ((split '.' plan.formatVersion).head? ≠ some "1")
    s!"format_version {debug plan.formatVersion} is not format 1"
  checkRestore plan.restore
  checkRollbackOf plan.rollbackOf
  refuseIf (plan.groups.isEmpty = true ∨ MAX_GROUPS < plan.groups.length)
    s!"the plan names {plan.groups.length} groups; it names 1 to {MAX_GROUPS}"
  refuseIf (plan.positions = 0 ∨ MAX_POSITIONS < plan.positions)
    (s!"the plan commits {plan.positions} positions; it commits 1 to {MAX_POSITIONS}, which is what " ++
      "one approval scope shows")
  let _ ← plan.groups.foldlM (checkGroup plan.rollbackOf.isSome) []
  pure ()

structure PlannedPartition where
  topic : String
  partition : Nat
  planned : Int
  expected : Option Int
  current : Option Int := none
deriving DecidableEq

def PlannedPartition.part (p : PlannedPartition) : Part := (p.topic, p.partition)

def plannedTopic (entry : String × PlanTopic) : List PlannedPartition :=
  entry.2.offsets.entries.map fun o =>
    { topic := entry.1, partition := o.1, planned := o.2, expected := entry.2.expected.positionAt o.1 }

def planned (g : PlanGroup) : List PlannedPartition := g.topics.entries.flatMap plannedTopic

inductive TargetGroup where
  | absent
  | consumer (groupType state : String) (members : Nat)
  | otherType
  | typeUnproven
  | notVisible
  | unreachable (why : String)
deriving DecidableEq

def admitGroup : TargetGroup → Except String Bool
  | .absent => .ok true
  | .consumer _ state members =>
      if 0 < members ∨ state ∉ INACTIVE_STATES then .error GROUP_ACTIVE else .ok false
  | .otherType => .error TARGET_GROUP_TYPE_UNSUPPORTED
  | .typeUnproven => .error TARGET_GROUP_TYPE_UNPROVEN
  | .notVisible => .error TARGET_NOT_VISIBLE
  | .unreachable _ => .error COMMIT_FAILED

inductive Decision where
  | apply
  | alreadyApplied
  | changed (parts : List (String × Nat × Option Int))
deriving DecidableEq

def compare (partitions : List PlannedPartition) : Decision :=
  if !partitions.isEmpty ∧ ∀ p ∈ partitions, p.current = some p.planned then .alreadyApplied
  else if ∀ p ∈ partitions, p.current = p.expected then .apply
  else .changed ((partitions.filter fun p => p.current ≠ p.expected).map fun p =>
    (p.topic, p.partition, p.current))

abbrev Marks := List (Part × (Int × Int))

def checkBound (marks : Marks) (p : PlannedPartition) : Except String Unit :=
  match marks.lookup p.part with
  | none => .error
      (s!"{TARGET_MARKS_UNREADABLE}: {p.topic}:{p.partition}: the target's log start and high " ++
        "watermark could not be read for it (the partition is missing, or its offsets could not be " ++
        "listed), so the planned offset cannot be held to them")
  | some (start, ending) =>
      if p.planned < start then .error
        s!"{BELOW_TARGET_LOG_START}: {p.topic}:{p.partition} plans {p.planned} below the log start {start}"
      else if ending < p.planned then .error
        s!"{ABOVE_TARGET_END}: {p.topic}:{p.partition} plans {p.planned} above the high watermark {ending}"
      else .ok ()

def checkBounds (partitions : List PlannedPartition) (marks : Marks) : Except String Unit :=
  partitions.forM (checkBound marks)

end Logweir.Switchover
