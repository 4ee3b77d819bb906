import Logweir.Library.Ordered
import Logweir.Switchover.Guarded

/-!
# Rollback plans

The plan built from a switchover record: every position that the record's applied groups had,
expected where it was read back.  What such a plan plans is exactly what was recorded.
-/

set_option autoImplicit false

namespace Logweir.Switchover

open Logweir.Text Logweir.Results Logweir.SortedMaps

structure SwitchoverRecord where
  runId : String
  restoreRef : RestoreRef
  groups : List GroupRecord

def recordOf (runId : String) (plan : SwitchoverPlan) (groups : List GroupRecord) :
    SwitchoverRecord where
  runId := runId
  restoreRef := plan.restore
  groups := groups

def recordRef (record : SwitchoverRecord) (sha256 : String) : RecordRef where
  key := recordKey record.runId
  sha256 := sha256

def PartitionRecord.part (p : PartitionRecord) : Part := (p.topic, p.partition)

def freshTopic : PlanTopic where
  offsets := SortedMap.empty
  expected := .positions SortedMap.empty

def Expected.insert (partition : Nat) (offset : Int) : Expected → Expected
  | .positions m => .positions (m.insert partition offset)
  | .word => .word

def PlanTopic.rollTo (t : PlanTopic) (partition : Nat) (prior readback : Int) : PlanTopic :=
  { t with
    offsets := t.offsets.insert partition prior
    expected := t.expected.insert partition readback }

def rollPartition (topics : SortedMap String PlanTopic) (p : PartitionRecord) :
    SortedMap String PlanTopic :=
  match p.prior, p.readback with
  | some prior, some readback =>
      topics.insert p.topic (((topics.get? p.topic).getD freshTopic).rollTo p.partition prior readback)
  | _, _ => topics

def rolledTopics (partitions : List PartitionRecord) : SortedMap String PlanTopic :=
  partitions.foldl rollPartition SortedMap.empty

def rollbackNote (g : GroupRecord) (p : PartitionRecord) : Option String :=
  match p.prior, p.readback with
  | some _, some _ => none
  | none, _ => some
      (s!"group {debug g.target} {p.topic}:{p.partition}: had no committed position before the " ++
        "switchover; the safe API cannot remove one, so it is left (kafka-consumer-groups.sh " ++
        s!"--delete-offsets --group {g.target} --topic {p.topic}:{p.partition})")
  | some _, none => some
      (s!"group {debug g.target} {p.topic}:{p.partition}: the switchover did not read its applied " ++
        "position back, so a rollback cannot say what it expects; left")

def rolledGroup (g : GroupRecord) : Option PlanGroup :=
  if (rolledTopics g.partitions).isEmpty then none
  else some { source := g.source, target := g.target, topics := rolledTopics g.partitions }

def appliedGroups (groups : List GroupRecord) : List GroupRecord :=
  groups.filter fun g => g.outcome = APPLIED

def nothingToRestore (notes : List String) : String :=
  "the record applied no position that had a prior one, so there is nothing a rollback plan can " ++
    "restore" ++ String.join (notes.map fun n => "\n  note: " ++ n)

def rolledPlan (record : SwitchoverRecord) (ref : RecordRef) : SwitchoverPlan where
  formatVersion := PLAN_FORMAT_VERSION
  restore := record.restoreRef
  rollbackOf := some ref
  groups := (appliedGroups record.groups).filterMap rolledGroup

def rollbackPlan (record : SwitchoverRecord) (ref : RecordRef) :
    Except String (SwitchoverPlan × List String) := do
  let notes := (appliedGroups record.groups).flatMap fun g => g.partitions.filterMap (rollbackNote g)
  refuseIf ((rolledPlan record ref).groups.isEmpty = true) (nothingToRestore notes)
  validate (rolledPlan record ref)
  pure (rolledPlan record ref, notes)

def checkReversed (g : PlanGroup) (r : GroupRecord) (p : PlannedPartition) : Except String Unit :=
  match r.partitions.find? fun rp => rp.topic = p.topic ∧ rp.partition = p.partition with
  | none => .error s!"target group {debug g.target} {p.topic}:{p.partition} is not in the record"
  | some rp =>
      refuseIf (rp.prior ≠ some p.planned ∨ p.expected ≠ rp.readback)
        (s!"target group {debug g.target} {p.topic}:{p.partition}: a rollback commits the recorded " ++
          "prior and expects the recorded readback")

def checkGroupReversed (record : SwitchoverRecord) (g : PlanGroup) : Except String Unit :=
  match record.groups.find? fun r => r.target = g.target ∧ r.outcome = APPLIED with
  | none => .error
      s!"target group {debug g.target} was not applied by the record this plan reverses"
  | some r => (planned g).forM (checkReversed g r)

def checkAgainstRecord (plan : SwitchoverPlan) (record : SwitchoverRecord) : Except String Unit :=
  plan.groups.forM (checkGroupReversed record)

end Logweir.Switchover
