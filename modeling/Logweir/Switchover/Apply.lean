import Logweir.Library.Programs
import Logweir.Switchover.Plan

/-!
# One plan group, applied

`logweir::switchover::apply`: classify the target group, hold its planned offsets to the
target's marks, read its committed positions, compare, commit from a non-member, read back.
What the target answers comes from outside: a group is applied by a program of calls.
-/

set_option autoImplicit false

namespace Logweir.Switchover

open Logweir.Text Logweir.Programs Program

inductive ReadFailure where
  | notAuthorized
  | notVisible
  | unstable
  | other (why : String)
deriving DecidableEq

inductive CommitFailure where
  | groupActive
  | notAuthorized
  | notAConsumerGroup
  | notVisible
  | failed (mayHaveApplied : Bool) (message : String)
deriving DecidableEq

abbrev Positions := List (Part × Option Int)

/-- `positions.get(part).copied().flatten()` -/
def Positions.held (positions : Positions) (part : Part) : Option Int :=
  (positions.lookup part).join

inductive Call where
  | classify (group : String)
  | committed (group : String) (partitions : List Part) (listed : Bool)
  | commit (group : String) (positions : List (Part × Int))
deriving DecidableEq

def Call.group : Call → String
  | .classify group => group
  | .committed group _ _ => group
  | .commit group _ => group

def Call.isCommit : Call → Bool
  | .commit _ _ => true
  | _ => false

abbrev Answer : Call → Type
  | .classify _ => TargetGroup
  | .committed _ _ _ => Except ReadFailure Positions
  | .commit _ _ => Except CommitFailure Unit

abbrev Run := Program Call Answer Empty

abbrev Log := List (Event Call Answer)

def classify (group : String) : Run TargetGroup := call (Call.classify group)

def committed (group : String) (partitions : List Part) (listed : Bool) :
    Run (Except ReadFailure Positions) :=
  call (Call.committed group partitions listed)

def commit (group : String) (positions : List (Part × Int)) : Run (Except CommitFailure Unit) :=
  call (Call.commit group positions)

inductive AppliedState where
  | known (applied : Bool)
  | unknown
deriving DecidableEq

structure PartitionRecord where
  topic : String
  partition : Nat
  prior : Option Int
  planned : Int
  applied : AppliedState
  readback : Option Int
deriving DecidableEq

structure GroupRecord where
  source : String
  target : String
  classification : String
  outcome : String
  reason : Option String
  created : Bool := false
  committed : Bool := false
  partitions : List PartitionRecord
deriving DecidableEq

def classificationWords : TargetGroup → String
  | .absent => "absent"
  | .consumer groupType state members => s!"{groupType} {state}, {members} member(s)"
  | .otherType => "another group type (share, streams or a non-consumer protocol)"
  | .typeUnproven => "type unproven (the broker cannot type groups)"
  | .notVisible => "not visible to this principal"
  | .unreachable why => s!"not classified: {why}"

def recordPartition (priors readback : Option Positions) (appliedUnknown : Bool)
    (p : PlannedPartition) : PartitionRecord :=
  let back := readback.bind fun r => r.held p.part
  { topic := p.topic
    partition := p.partition
    prior := priors.bind fun r => r.held p.part
    planned := p.planned
    applied :=
      match readback with
      | some _ => .known (decide (back = some p.planned))
      | none => if appliedUnknown then .unknown else .known false
    readback := back }

def record (g : PlanGroup) (classification outcome : String) (reason : Option String)
    (parts : List PlannedPartition) (priors readback : Option Positions) (appliedUnknown : Bool) :
    GroupRecord :=
  { source := g.source
    target := g.target
    classification := classification
    outcome := outcome
    reason := reason
    partitions := parts.map (recordPartition priors readback appliedUnknown) }

def changedWords (parts : List PlannedPartition) (c : String × Nat × Option Int) : String :=
  let (t, p, current) := c
  match current, (parts.find? fun x => x.topic = t ∧ x.partition = p).bind (·.expected) with
  | some c, some e => s!"{t}:{p} is at {c}, {c - e} record(s) from the expected {e}"
  | some c, none => s!"{t}:{p} is at {c}, expected no committed position"
  | none, some e => s!"{t}:{p} has no committed position, expected {e}"
  | none, none => s!"{t}:{p}"

def changedReason (changed : List (String × Nat × Option Int)) (parts : List PlannedPartition) :
    String :=
  TARGET_POSITIONS_CHANGED ++ ": " ++ "; ".intercalate (changed.map (changedWords parts))

inductive Verdict where
  | commit (creates : Bool)
  | alreadyApplied
  | stop (record : GroupRecord)

structure Decided where
  classified : TargetGroup
  words : String
  parts : List PlannedPartition
  priors : Option Positions
  verdict : Verdict

def stopped (g : PlanGroup) (classified : TargetGroup) (outcome reason : String) : Decided where
  classified := classified
  words := classificationWords classified
  parts := planned g
  priors := none
  verdict := .stop
    (record g (classificationWords classified) outcome (some reason) (planned g) none none false)

def notAdmitted (g : PlanGroup) (classified : TargetGroup) (reason : String) : Decided :=
  if reason = COMMIT_FAILED then
    stopped g classified FAILED s!"{reason}: {classificationWords classified}"
  else stopped g classified REFUSED reason

def unread (g : PlanGroup) (classified : TargetGroup) : ReadFailure → Decided
  | .notAuthorized => stopped g classified REFUSED NOT_AUTHORIZED
  | .notVisible => stopped g classified REFUSED TARGET_NOT_VISIBLE
  | .unstable => stopped g classified REFUSED
      s!"{TARGET_POSITIONS_CHANGED}: a transactional offset commit is pending on the group"
  | .other why => stopped g classified FAILED
      s!"{COMMIT_FAILED}: the positions could not be read: {why}"

def withPriors (g : PlanGroup) (priors : Positions) : List PlannedPartition :=
  (planned g).map fun p => { p with current := priors.held p.part }

def moved (g : PlanGroup) (classified : TargetGroup) (priors : Positions)
    (changed : List (String × Nat × Option Int)) : GroupRecord :=
  let parts := withPriors g priors
  let r := record g (classificationWords classified) REFUSED (some (changedReason changed parts))
    parts none none false
  { r with partitions := (r.partitions.zip parts).map fun (rp, p) => { rp with prior := p.current } }

def compared (g : PlanGroup) (classified : TargetGroup) (creates : Bool) (priors : Positions) :
    Decided where
  classified := classified
  words := classificationWords classified
  parts := withPriors g priors
  priors := some priors
  verdict :=
    match compare (withPriors g priors) with
    | .alreadyApplied => .alreadyApplied
    | .changed changed => .stop (moved g classified priors changed)
    | .apply => .commit creates

def parts (g : PlanGroup) : List Part := (planned g).map PlannedPartition.part

def decideGroup (g : PlanGroup) (marks : Marks) : Run Decided := do
  let classified ← classify g.target
  match admitGroup classified with
  | .error reason => pure (notAdmitted g classified reason)
  | .ok creates =>
      match checkBounds (planned g) marks with
      | .error why => pure (stopped g classified REFUSED why)
      | .ok () =>
          -- The priors are read before any commit.
          match ← committed g.target (parts g) (!creates) with
          | .error e => pure (unread g classified e)
          | .ok priors => pure (compared g classified creates priors)

def readsBack (parts : List PlannedPartition) (readback : Option Positions) : Bool :=
  readback.any fun b => parts.all fun p => decide (b.held p.part = some p.planned)

def acceptedRecord (g : PlanGroup) (d : Decided) (priors : Positions) (creates : Bool)
    (readback : Option Positions) : GroupRecord :=
  let outcome := if readsBack d.parts readback then APPLIED else FAILED
  let reason :=
    if readsBack d.parts readback then none
    else some (s!"{COMMIT_FAILED}: the commit was accepted and the readback does not show every " ++
      "planned position")
  { record g d.words outcome reason d.parts (some priors) readback readback.isNone with
    created := creates && outcome = APPLIED
    committed := true }

def failureOutcome : CommitFailure → String × String × Bool
  | .groupActive =>
      (REFUSED, s!"{GROUP_ACTIVE}: a member joined after the check; the broker refused the commit", false)
  | .notAuthorized => (REFUSED, NOT_AUTHORIZED, false)
  | .notAConsumerGroup => (REFUSED, TARGET_GROUP_TYPE_UNSUPPORTED, false)
  | .notVisible => (REFUSED, TARGET_NOT_VISIBLE, false)
  | .failed mayHaveApplied message => (FAILED, s!"{COMMIT_FAILED}: {message}", mayHaveApplied)

def failedRecord (g : PlanGroup) (d : Decided) (priors : Positions) (failure : CommitFailure)
    (readback : Option Positions) : GroupRecord :=
  let (outcome, reason, unknown) := failureOutcome failure
  { record g d.words outcome (some reason) d.parts (some priors) readback unknown with
    committed := true }

def commitGroup (g : PlanGroup) (d : Decided) (priors : Positions) (creates : Bool) :
    Run GroupRecord := do
  let answer ← commit g.target (d.parts.map fun p => (p.part, p.planned))
  -- Read back, whatever the commit answered.
  let readback ← committed g.target (d.parts.map PlannedPartition.part) true
  match answer with
  | .ok () => pure (acceptedRecord g d priors creates readback.toOption)
  | .error failure => pure (failedRecord g d priors failure readback.toOption)

def applyGroup (g : PlanGroup) (marks : Marks) : Run GroupRecord := do
  let d ← decideGroup g marks
  let priors := d.priors.getD []
  match d.verdict with
  | .stop r => pure r
  | .alreadyApplied =>
      pure (record g d.words ALREADY_APPLIED none d.parts (some priors) (some priors) false)
  | .commit creates => commitGroup g d priors creates

def applyPlan (plan : SwitchoverPlan) (marks : Marks) : Run (List GroupRecord) :=
  plan.groups.mapM fun g => applyGroup g marks

end Logweir.Switchover
