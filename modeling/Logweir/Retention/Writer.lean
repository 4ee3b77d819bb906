import Logweir.Catalog.Verification
import Logweir.Library.Ordered
import Logweir.Library.Results
import Logweir.Library.UnionFind
import Logweir.Retention.Document

/-!
# The plan writer

`weirkeeper::retention_plan`: what a policy would remove from one destination, and the
document that says so.
-/

set_option autoImplicit false

namespace Logweir.Retention

open Logweir.Text Logweir.Results Logweir.UnionFind
open Logweir.Catalog (Availability Verification)

structure Destination where
  locationId : String
  scopePrefix : String

structure PointFacts where
  pointId : String
  backupId : String
  recoveryPointAtMs : Int
  locations : List String
  availability : Availability
  verification : Verification
  manifestKey : Option String
  segmentKeys : List String
  bytes : Option Int
  refusedByController : Bool
deriving DecidableEq

def PointFacts.keys (p : PointFacts) : List String := p.manifestKey.toList ++ p.segmentKeys

structure Rules where
  keepLast : Option Int
  keepDays : Option Int
  minUsablePoints : Int

structure Hold where
  pointId : String
  until_ : Option Int

def Hold.inForce (hold : Hold) (now : Int) : Bool := hold.until_.all fun u => decide (now < u)

structure Protection where
  activeRestore : List String := []
  refused : List (String × String) := []

structure Input where
  destination : Destination
  points : List PointFacts
  rules : Rules
  holds : List Hold := []
  protection : Protection := {}
  /-- In nanoseconds. -/
  now : Int
  maxDeletionsPerRun : Int

inductive CandidateReason where
  | olderThanKeepDays
  | beyondKeepLast
deriving DecidableEq

def CandidateReason.asStr : CandidateReason → String
  | .olderThanKeepDays => "OlderThanKeepDays"
  | .beyondKeepLast => "BeyondKeepLast"

inductive ProtectReason where
  | activeRestore
  | minUsablePoints
  | legalHold
  | sharedSegment
  | hold
  | unknown
deriving DecidableEq

inductive SkipReason where
  | unreadable
  | unsupportedFormat
  | conflict
  | alreadyDeleted
deriving DecidableEq

structure Candidate where
  pointId : String
  backupId : String
  reason : CandidateReason
  recoveryPointAtMs : Int
  manifestKey : String
  segmentKeys : List String
  bytes : Option Int
deriving DecidableEq

def Candidate.keys (c : Candidate) : List String := c.manifestKey :: c.segmentKeys

structure RetainedObjects where
  backupIds : List String := []
  keys : List String := []

structure Evaluation where
  pointsEvaluated : Int := 0
  kept : List String := []
  candidates : List Candidate := []
  heldBack : List String := []
  protectedPoints : List (String × ProtectReason) := []
  skipped : List (String × SkipReason) := []
  truncatedByCap : Int := 0
  retained : RetainedObjects := {}

structure Row where
  addr : Nat
  point : PointFacts

def links (p : PointFacts) : List String :=
  (if p.backupId.isEmpty then [] else ["set:" ++ p.backupId]) ++ p.keys.map ("key:" ++ ·)

structure Joining where
  parent : Parents := fun i => i
  firstWith : List (String × Nat) := []

def joinLink (fuel : Nat) (s : Joining) (i : Nat) (link : String) : Joining :=
  match s.firstWith.lookup link with
  | some j => { s with parent := union fuel s.parent i j }
  | none => { s with firstWith := (link, i) :: s.firstWith }

def rowLinks (rows : List Row) : List (Nat × String) :=
  rows.zipIdx.flatMap fun (row, i) => (links row.point).map fun link => (i, link)

def joinAll (rows : List Row) : Joining :=
  (rowLinks rows).foldl (fun s (i, link) => joinLink (rowLinks rows).length s i link) {}

def rootsFrom (fuel : Nat) : Parents → List (Row × Nat) → List (Nat × Nat)
  | _, [] => []
  | parent, (row, i) :: rows =>
      (row.addr, (find fuel parent i).1) :: rootsFrom fuel (find fuel parent i).2 rows

/-- `Groups::of` -/
def groupsOf (rows : List Row) : List (Nat × Nat) :=
  rootsFrom (rowLinks rows).length (joinAll rows).parent rows.zipIdx

/-- `Groups::of_point` -/
def ofPoint (groups : List (Nat × Nat)) (row : Row) : Nat :=
  (groups.lookup row.addr).getD 18446744073709551615

def REDACTION_MARKER : String := "[redacted]"

/-- `skip_reason` -/
def skipReason (p : PointFacts) : Option SkipReason :=
  match p.availability with
  | .deleted => some .alreadyDeleted
  | .conflict => some .conflict
  | .unsupportedFormat => some .unsupportedFormat
  | .missing | .unreadable | .partly => some .unreadable
  | .available =>
      if p.refusedByController then some .unreadable
      else if p.verification.selectable then none
      else some .unreadable

inductive Mark where
  | kept
  | sheltered (reason : ProtectReason)
  | candidate (reason : CandidateReason)
deriving DecidableEq

def Mark.isCandidate : Mark → Bool
  | .candidate _ => true
  | _ => false

def wrappingSub (a b : Int) : Int := (a - b).bmod 18446744073709551616

def saturatingMul (a b : Int) : Int := max (-I64_MAX - 1) (min (a * b) I64_MAX)

def cutoffMs (input : Input) : Option Int :=
  input.rules.keepDays.map fun days =>
    wrappingSub (input.now / 1000000) (saturatingMul days 86400000)

def tooOld (input : Input) (p : PointFacts) : Bool :=
  (cutoffMs input).any fun c => decide (p.recoveryPointAtMs < c)

def beyondRank (input : Input) (rank : Nat) : Bool :=
  input.rules.keepLast.any fun n => decide ((max n 0).toNat ≤ rank)

def unplannable (p : PointFacts) : Bool :=
  match p.manifestKey with
  | none => true
  | some manifest => p.backupId.isEmpty || p.backupId.toList.contains '/' ||
      containsChars REDACTION_MARKER.toList p.backupId.toList ||
      containsChars REDACTION_MARKER.toList manifest.toList

def ruled (input : Input) (rank : Nat) (p : PointFacts) : Mark :=
  if rank < (max input.rules.minUsablePoints 1).toNat then
    if beyondRank input rank || tooOld input p then .sheltered .minUsablePoints else .kept
  else if input.protection.activeRestore.contains p.pointId then .sheltered .activeRestore
  else if input.holds.any fun h => h.inForce input.now && h.pointId == p.pointId then .sheltered .hold
  else if (input.protection.refused.lookup p.pointId).isSome then .sheltered .legalHold
  else if unplannable p then .sheltered .unknown
  else if tooOld input p then .candidate .olderThanKeepDays
  else if beyondRank input rank then .candidate .beyondKeepLast
  else .kept

def rowsOf (input : Input) : List Row := input.points.zipIdx.map fun (p, i) => ⟨i, p⟩

def here (input : Input) : List Row :=
  (rowsOf input).filter fun r => r.point.locations.contains input.destination.locationId

def locationLess (input : Input) : List Row :=
  (rowsOf input).filter fun r => r.point.locations.isEmpty

def grouped (input : Input) : List Row := here input ++ locationLess input

def newer (a b : Row) : Prop :=
  b.point.recoveryPointAtMs < a.point.recoveryPointAtMs ∨
    (b.point.recoveryPointAtMs = a.point.recoveryPointAtMs ∧ a.point.pointId ≤ b.point.pointId)

instance : DecidableRel newer := fun a b => by
  unfold newer
  infer_instance

def usable (input : Input) : List Row :=
  ((here input).filter fun r => (skipReason r.point).isNone).insertionSort newer

def verdicts (input : Input) : List (Row × Mark) :=
  (usable input).zipIdx.map fun (row, rank) => (row, ruled input rank row.point)

def retainedGroups (input : Input) (groups : List (Nat × Nat)) : List Nat :=
  (((verdicts input).filter fun v => !v.2.isCandidate).map Prod.fst ++
    ((here input).filter fun r => (skipReason r.point).isSome) ++ locationLess input).map
      (ofPoint groups)

def sharedVerdicts (input : Input) (groups : List (Nat × Nat)) : List (Row × Mark) :=
  (verdicts input).map fun (row, mark) =>
    if mark.isCandidate && (retainedGroups input groups).contains (ofPoint groups row) then
      (row, .sheltered .sharedSegment)
    else (row, mark)

def groupSize (groups : List (Nat × Nat)) (marked : List (Row × Mark)) (group : Nat) : Nat :=
  marked.countP fun v => v.2.isCandidate && decide (ofPoint groups v.1 = group)

structure Selection where
  kept : List String := []
  heldBack : List String := []
  protectedPoints : List (String × ProtectReason) := []
  candidates : List Candidate := []
  /-- `group_selected` -/
  taken : List (Nat × Bool) := []
  selected : Nat := 0

def candidateOf (p : PointFacts) (reason : CandidateReason) : Candidate :=
  ⟨p.pointId, p.backupId, reason, p.recoveryPointAtMs, p.manifestKey.getD "", p.segmentKeys, p.bytes⟩

def takeGroup (size : Nat → Nat) (cap : Nat) (s : Selection) (group : Nat) : Bool × Selection :=
  match s.taken.lookup group with
  | some take => (take, s)
  | none =>
      if s.selected + size group ≤ cap then
        (true, { s with taken := (group, true) :: s.taken, selected := s.selected + size group })
      else (false, { s with taken := (group, false) :: s.taken })

def project (groups : List (Nat × Nat)) (size : Nat → Nat) (cap : Nat) (s : Selection)
    (v : Row × Mark) : Selection :=
  let p := v.1.point
  match v.2 with
  | .kept => { s with kept := s.kept ++ [p.pointId] }
  | .sheltered reason =>
      { s with kept := s.kept ++ [p.pointId], protectedPoints := s.protectedPoints ++ [(p.pointId, reason)] }
  | .candidate reason =>
      let (take, s) := takeGroup size cap s (ofPoint groups v.1)
      if take then { s with candidates := s.candidates ++ [candidateOf p reason] }
      else { s with heldBack := s.heldBack ++ [p.pointId] }

def capOf (input : Input) : Nat := (max input.maxDeletionsPerRun 0).toNat

def selection (input : Input) : Selection :=
  let groups := groupsOf (grouped input)
  let marked := sharedVerdicts input groups
  marked.foldl (project groups (groupSize groups marked) (capOf input)) {}

def setOf (texts : List String) : List String := Ordered.dedup (texts.insertionSort (· ≤ ·))

def retainedOf (rows : List Row) (chosen : List String) : RetainedObjects :=
  let left := rows.filter fun r => !chosen.contains r.point.pointId
  ⟨setOf (left.map fun r => r.point.backupId), setOf (left.flatMap fun r => r.point.keys)⟩

def byId {α : Type} (listed : List (String × α)) : List (String × α) :=
  listed.insertionSort fun a b => a.1 ≤ b.1

def countOf (n : Nat) : Int := min (n : Int) I64_MAX

def evaluate (input : Input) : Evaluation :=
  let s := selection input
  { pointsEvaluated := countOf (here input).length
    kept := s.kept
    candidates := s.candidates
    heldBack := s.heldBack
    protectedPoints := byId s.protectedPoints
    skipped := byId ((here input).filterMap fun r =>
      (skipReason r.point).map fun why => (r.point.pointId, why))
    truncatedByCap := countOf s.heldBack.length
    retained := retainedOf (grouped input) (s.candidates.map Candidate.pointId) }

inductive ScopeViolation where
  | outsideScope (key expectedPrefix : String)
  | evidenceRoot (key : String)
deriving DecidableEq

/-- `validate_key` -/
def validateKey (scope backupId key : String) : Except ScopeViolation Unit :=
  if startsWith key EVIDENCE_ROOT then .error (.evidenceRoot key)
  else if !startsWith key (setBound scope backupId) then
    .error (.outsideScope key (setBound scope backupId))
  else .ok ()

inductive PlanError where
  | scope (violation : ScopeViolation)
  | sharedWithRetained (pointId named : String)
deriving DecidableEq

structure PlanIdentity where
  ns : String
  name : String
  uid : String

def lineOf (scope : String) (c : Candidate) : PlanLine where
  pointId := c.pointId
  backupId := c.backupId
  reason := c.reason.asStr
  recoveryPointAtMs := c.recoveryPointAtMs
  manifestKey := c.manifestKey
  setPrefix := setBound scope c.backupId
  enumerateSet := c.segmentKeys.isEmpty
  objectKeys := c.keys

def joins (c : Candidate) (line : PlanLine) : Bool :=
  line.backupId == c.backupId && line.manifestKey == c.manifestKey

def pushKey (keys : List String) (key : String) : List String :=
  if keys.contains key then keys else keys ++ [key]

def joinLine (c : Candidate) (line : PlanLine) : PlanLine :=
  { line with
    coPointIds := line.coPointIds ++ [c.pointId]
    objectKeys := c.segmentKeys.foldl pushKey line.objectKeys
    enumerateSet := line.enumerateSet && c.segmentKeys.isEmpty }

def addCandidate (scope : String) (c : Candidate) : List PlanLine → List PlanLine
  | [] => [lineOf scope c]
  | line :: lines =>
      if joins c line then joinLine c line :: lines else line :: addCandidate scope c lines

def sharedKey (retained : RetainedObjects) (scope : String) (c : Candidate) : Option String :=
  retained.keys.find? fun k => startsWith k (setBound scope c.backupId) || c.keys.contains k

def planCandidate (retained : RetainedObjects) (scope : String) (lines : List PlanLine)
    (c : Candidate) : Except PlanError (List PlanLine) :=
  match c.keys.forM (validateKey scope c.backupId) with
  | .error violation => .error (.scope violation)
  | .ok () =>
      if retained.backupIds.contains c.backupId then
        .error (.sharedWithRetained c.pointId s!"backup set `{c.backupId}`")
      else
        match sharedKey retained scope c with
        | some key => .error (.sharedWithRetained c.pointId s!"object `{key}`")
        | none => .ok (addCandidate scope c lines)

/-- `plan_document` -/
def planDocument (identity : PlanIdentity) (destination : Destination) (rules : Rules)
    (evaluation : Evaluation) : Except PlanError Plan := do
  let lines ← evaluation.candidates.foldlM
    (planCandidate evaluation.retained destination.scopePrefix) []
  .ok { policyNamespace := identity.ns, policyName := identity.name, policyUid := identity.uid,
        locationId := destination.locationId, scopePrefix := destination.scopePrefix,
        keepLast := rules.keepLast, keepDays := rules.keepDays,
        minUsablePoints := rules.minUsablePoints, lines }

end Logweir.Retention
