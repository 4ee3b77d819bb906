import Logweir.Library.Json
import Logweir.Library.Ordered
import Logweir.Library.Programs
import Logweir.Library.Results
import Logweir.Retention.Document

/-!
# The deletion worker

`logweir-reaper`: the checks of a plan and the run over it.  The run is a program of calls to
the store, to the tombstones' sink and to the sleeper, each answered by whatever is there; a
call names the line it is made for.
-/

set_option autoImplicit false

namespace Logweir.Retention

open Logweir.Text Logweir.Json Logweir.Results Logweir.Programs Program

inductive Refusal where
  | policyMismatch (found expected : String)
  | scopeViolation (key pointId expected : String)
  | evidenceRoot (key pointId : String)
  | manifestNotFirst (pointId first manifestKey : String)
  | overCap (what : String) (found cap : Int)
  | emptyLine (pointId : String)
  | duplicatePoint (pointId : String)
  | duplicateKey (key first second : String)
deriving DecidableEq

def Refusal.text : Refusal → String
  | .scopeViolation key pointId expected =>
      s!"RetentionScopeViolation: key `{key}` on point `{pointId}` is not under `{expected}`; zero objects were deleted"
  | .evidenceRoot key pointId =>
      s!"RetentionScopeViolation: key `{key}` on point `{pointId}` is under `{EVIDENCE_ROOT}`, the evidence root no retention run may delete under; zero objects were deleted"
  | _ => ""

structure RunBinding where
  policyUid : String
  scopePrefix : String
  maxDeletionsPerRun : Int
  maxObjectsPerRun : Int

def USIZE_MAX : Nat := 18446744073709551615

def pointCount (plan : Plan) : Int :=
  min ((plan.lines.foldl (fun n l => min (n + (1 + l.coPointIds.length)) USIZE_MAX) 0 : Nat) : Int)
    I64_MAX

def checkPoints (named : List String) : List String → Except Refusal Unit
  | [] => .ok ()
  | point :: points =>
      if named.contains point then .error (.duplicatePoint point) else checkPoints (point :: named) points

structure Tally where
  objects : Int := 0
  owners : List (String × String) := []

def checkKey (line : PlanLine) (expected : String) (tally : Tally) (key : String) :
    Except Refusal Tally :=
  if startsWith key EVIDENCE_ROOT then .error (.evidenceRoot key line.pointId)
  else if !startsWith key expected then .error (.scopeViolation key line.pointId expected)
  else
    match tally.owners.lookup key with
    | some first => .error (.duplicateKey key first line.pointId)
    | none => .ok ⟨saturatingAdd tally.objects 1, (key, line.pointId) :: tally.owners⟩

def checkLine (scope : String) (tally : Tally) (line : PlanLine) : Except Refusal Tally :=
  match line.objectKeys with
  | [] => .error (.emptyLine line.pointId)
  | first :: _ =>
      if first ≠ line.manifestKey then .error (.manifestNotFirst line.pointId first line.manifestKey)
      else if line.setPrefix ≠ setBound scope line.backupId then
        .error (.scopeViolation line.setPrefix line.pointId (setBound scope line.backupId))
      else line.objectKeys.foldlM (checkKey line (setBound scope line.backupId)) tally

def validatePlan (plan : Plan) (binding : RunBinding) : Except Refusal Unit := do
  refuseIf (plan.policyUid ≠ binding.policyUid) (.policyMismatch plan.policyUid binding.policyUid)
  refuseIf (trimEnd '/' plan.scopePrefix ≠ trimEnd '/' binding.scopePrefix)
    (.policyMismatch s!"scope `{plan.scopePrefix}`" s!"scope `{binding.scopePrefix}`")
  checkPoints [] plan.points
  refuseIf (binding.maxDeletionsPerRun < pointCount plan)
    (.overCap "points" (pointCount plan) binding.maxDeletionsPerRun)
  let tally ← plan.lines.foldlM (checkLine binding.scopePrefix) {}
  refuseIf (binding.maxObjectsPerRun < tally.objects)
    (.overCap "object keys" tally.objects binding.maxObjectsPerRun)

def MAX_ATTEMPTS : Nat := 3

def BACKOFF_SECONDS : List Nat := [1, 4]

inductive DeleteError where
  | accessDenied
  | locked
  | preconditionFailed
  | notFound
  | serverError
  | timeout
  | budgetExhausted
  | versionedBucket
  | versionProbeRefused
  | unclassified
deriving DecidableEq

def DeleteError.asStr : DeleteError → String
  | .accessDenied => "AccessDenied"
  | .locked => "Locked"
  | .preconditionFailed => "PreconditionFailed"
  | .notFound => "NotFound"
  | .serverError => "ServerError"
  | .timeout => "Timeout"
  | .budgetExhausted => "BudgetExhausted"
  | .versionedBucket => "VersionedBucket"
  | .versionProbeRefused => "VersionProbeRefused"
  | .unclassified => "Unclassified"

def DeleteError.retryable : DeleteError → Bool
  | .serverError | .timeout => true
  | _ => false

inductive Versioning where
  | unversioned
  | versioned
deriving DecidableEq

abbrev Bytes := List UInt8

inductive Call where
  /-- `list_exact` -/
  | list (line : PlanLine) (under : String)
  /-- `probe_versioning` -/
  | probe (line : PlanLine) (key : String)
  /-- `delete_exact` -/
  | delete (line : PlanLine) (key : String)
  /-- `put_create_only` -/
  | put (line : PlanLine) (key : String) (bytes : Bytes)
  | sleep (line : PlanLine) (seconds : Nat)

abbrev Answer : Call → Type
  | .list _ _ => Except DeleteError (List String)
  | .probe _ _ => Except DeleteError Versioning
  | .delete _ _ => Except DeleteError Unit
  | .put _ _ _ => Except String (Option String)
  | .sleep _ _ => Unit

abbrev Run := Program Call Answer Empty

def listExact (line : PlanLine) (under : String) : Run (Except DeleteError (List String)) :=
  call (Call.list line under)

def probeVersioning (line : PlanLine) (key : String) : Run (Except DeleteError Versioning) :=
  call (Call.probe line key)

def deleteExact (line : PlanLine) (key : String) : Run (Except DeleteError Unit) :=
  call (Call.delete line key)

def putCreateOnly (line : PlanLine) (key : String) (bytes : Bytes) :
    Run (Except String (Option String)) :=
  call (Call.put line key bytes)

def isVersioned (version : Option String) : Bool := version.any fun v => !v.isEmpty

inductive PointState where
  | deleted
  | orphaned
  | kept
deriving DecidableEq

def PointState.asStr : PointState → String
  | .deleted => "Deleted"
  | .orphaned => "Orphaned"
  | .kept => "Kept"

structure PointOutcome where
  pointId : String
  state : String
  objectsDeleted : Int
  remainingKeys : List String
  code : Option String

structure Outcome where
  points : List PointOutcome := []
  objectsDeleted : Int := 0
  attempts : Nat := 0
  dryRun : Bool := false

structure Limits where
  dryRun : Bool
  maxObjects : Int

structure RunAttribution where
  runId : String
  policyUid : String
  planSha256 : String

structure Tombstone where
  stage : String
  runId : String
  policyUid : String
  planSha256 : String
  pointId : String
  backupId : String
  objectKeys : List String
  objectsDeleted : Int
  remainingKeys : List String
  state : String
  code : Option String

def TOMBSTONE_MEDIA_TYPE : String :=
  "application/vnd.logweir.retention-tombstone+json;version=1.0.0"

def textItems (texts : List String) : Json := .arr (texts.map .str)

def Tombstone.toBytes (t : Tombstone) : Bytes :=
  toDeterministicJson (.obj ([("format", .str TOMBSTONE_MEDIA_TYPE), ("stage", .str t.stage),
    ("run_id", .str t.runId), ("policy_uid", .str t.policyUid), ("plan_sha256", .str t.planSha256),
    ("point_id", .str t.pointId), ("backup_id", .str t.backupId),
    ("object_keys", textItems t.objectKeys), ("objects_deleted", .num t.objectsDeleted),
    ("remaining_keys", textItems t.remainingKeys), ("state", .str t.state)] ++
    (t.code.map fun code => ("code", .str code)).toList))

def VERSIONING_CHECK_MEDIA_TYPE : String :=
  "application/vnd.logweir.retention-versioning-check+json;version=1.0.0"

def checkBytes (run : RunAttribution) (line : PlanLine) : Bytes :=
  toDeterministicJson (.obj [("format", .str VERSIONING_CHECK_MEDIA_TYPE), ("run_id", .str run.runId),
    ("policy_uid", .str run.policyUid), ("point_id", .str line.pointId),
    ("purpose", .str ("a version id on this object means bucket versioning was Enabled when the " ++
      "point's deletes finished, so they may have written delete markers"))])

def tombstoneKey (run : RunAttribution) (pointId stage : String) : String :=
  s!"{EVIDENCE_ROOT}retention/{run.policyUid}/{run.runId}/{pointId}.{stage}.json"

def tries : List (Option Nat) := (List.range MAX_ATTEMPTS).map fun n => BACKOFF_SECONDS[n]?

def pause (line : PlanLine) : Option Nat → Run Unit
  | some seconds => call (Call.sleep line seconds)
  | none => pure ()

def probe (line : PlanLine) (key : String) :
    List (Option Nat) → DeleteError → Run (Except DeleteError Versioning)
  | [], last => pure (.error last)
  | wait :: left, _ => do
      match ← probeVersioning line key with
      | .ok v => pure (.ok v)
      | .error e =>
          if e.retryable then do
            pause line wait
            probe line key left e
          else pure (.error e)

def deleteKey (line : PlanLine) (key : String) :
    List (Option Nat) → Option DeleteError → Outcome → Run (Bool × Option DeleteError × Outcome)
  | [], last, out => pure (false, last, out)
  | wait :: left, _, out => do
      let out := { out with attempts := min (out.attempts + 1) 4294967295 }
      match ← deleteExact line key with
      | .ok () => pure (true, none, out)
      | .error e =>
          if e = .notFound then pure (true, none, out)
          else if e.retryable then do
            pause line wait
            deleteKey line key left (some e) out
          else pure (false, some e, out)

def attempt (line : PlanLine) (key : String) (out : Outcome) :
    Run (Bool × Option DeleteError × Outcome) := do
  match ← probe line key tries .unclassified with
  | .ok .unversioned => deleteKey line key tries none out
  | .ok .versioned => pure (false, some .versionedBucket, out)
  | .error e =>
      if e = .notFound then pure (true, none, out)
      else if e.retryable then pure (false, some e, out)
      else pure (false, some .versionProbeRefused, out)

/-- `validate_listed_key` -/
def validateListedKey (line : PlanLine) (key : String) : Except Refusal Unit :=
  if startsWith key EVIDENCE_ROOT then .error (.evidenceRoot key line.pointId)
  else if !startsWith key line.setPrefix then .error (.scopeViolation key line.pointId line.setPrefix)
  else .ok ()

def orderKeys (line : PlanLine) (listed : List String) : List String :=
  line.manifestKey ::
    Ordered.dedup ((listed.filter fun k => k ≠ line.manifestKey).insertionSort (· ≤ ·))

def checkListed (line : PlanLine) (listed : List String) : Except String (List String) :=
  match listed.forM (validateListedKey line) with
  | .error refusal => .error s!"RetentionScopeViolation:{refusal.text}"
  | .ok () => .ok (orderKeys line listed)

/-- `resolve_keys` -/
def resolveKeys (line : PlanLine) : Run (Except String (List String)) :=
  if line.enumerateSet then do
    match ← listExact line line.setPrefix with
    | .error e => pure (.error s!"ListRefused:{e.asStr}")
    | .ok listed => pure (checkListed line listed)
  else pure (.ok line.objectKeys)

def pushLine (out : Outcome) (line : PlanLine) (state : PointState) (objectsDeleted : Int)
    (remainingKeys : List String) (code : Option String) : Outcome :=
  { out with points := out.points ++ (linePoints line).zipIdx.map fun (point, i) =>
      ⟨point, state.asStr, if i = 0 then objectsDeleted else 0, remainingKeys, code⟩ }

def stateAfter (remaining : List String) : PointState :=
  if remaining.isEmpty then .deleted else .orphaned

/-- `write_tombstone` -/
def writeTombstone (run : RunAttribution) (line : PlanLine) (pointId stage : String)
    (objectsDeleted : Int) (remaining : List String) (code : Option String) :
    Run (Except String (Option String)) :=
  let state := if stage = "intent" then PointState.kept else stateAfter remaining
  putCreateOnly line (tombstoneKey run pointId stage)
    (Tombstone.toBytes ⟨stage, run.runId, run.policyUid, run.planSha256, pointId, line.backupId,
      line.objectKeys, objectsDeleted, remaining, state.asStr, code⟩)

/-- `write_check` -/
def writeCheck (run : RunAttribution) (line : PlanLine) : Run (Except String (Option String)) :=
  putCreateOnly line (tombstoneKey run line.pointId "check") (checkBytes run line)

def writeIntents (run : RunAttribution) (line : PlanLine) (keys : List String) :
    List String → Bool → Run (Except String Bool)
  | [], versioned => pure (.ok versioned)
  | point :: points, versioned => do
      match ← writeTombstone run line point "intent" 0 keys none with
      | .ok version => writeIntents run line keys points (versioned || isVersioned version)
      | .error e => pure (.error s!"TombstoneRefused:{e}")

structure Progress where
  out : Outcome
  removed : Int := 1
  remaining : List String := []
  code : Option DeleteError := none

def deleteSegments (limits : Limits) (line : PlanLine) : List String → Progress → Run Progress
  | [], p => pure p
  | key :: keys, p =>
      if limits.maxObjects ≤ p.out.objectsDeleted then
        deleteSegments limits line keys
          { p with remaining := p.remaining ++ [key], code := some (p.code.getD .budgetExhausted) }
      else do
        let (gone, why, out) ← attempt line key p.out
        if gone then
          deleteSegments limits line keys
            { p with out := { out with objectsDeleted := saturatingAdd out.objectsDeleted 1 }
                     removed := p.removed + 1 }
        else
          deleteSegments limits line keys
            { p with out, remaining := p.remaining ++ [key], code := p.code.or why }

def writeCompletions (run : RunAttribution) (line : PlanLine) (removed : Int)
    (remaining : List String) (code : Option String) : List String → Option String → Run (Option String)
  | [], text => pure text
  | point :: points, text => do
      match ← writeTombstone run line point "completion" removed remaining code with
      | .ok _ => writeCompletions run line removed remaining code points text
      | .error e =>
          writeCompletions run line removed remaining code points (some s!"TombstoneIncomplete:{e}")

def unverified : Except String (Option String) → Option String
  | .ok version => if isVersioned version then some DeleteError.versionedBucket.asStr else none
  | .error e => some s!"VersionCheckRefused:{e}"

def finishLine (run : RunAttribution) (line : PlanLine) (keys : List String) (p : Progress) :
    Run Outcome := do
  let why := unverified (← writeCheck run line)
  let out := if why.isSome then
      { p.out with objectsDeleted := max (p.out.objectsDeleted - p.removed) (-I64_MAX - 1) }
    else p.out
  let removed := if why.isSome then 0 else p.removed
  let remaining := if why.isSome then keys else p.remaining
  let code := why.or (p.code.map DeleteError.asStr)
  let text ← writeCompletions run line removed remaining code (linePoints line) code
  pure (pushLine out line (stateAfter remaining) removed remaining text)

def deleteLine (run : RunAttribution) (limits : Limits) (line : PlanLine) (keys : List String)
    (out : Outcome) : Run Outcome := do
  let (gone, why, out) ← attempt line line.manifestKey out
  if gone then do
    let p ← deleteSegments limits line (keys.drop 1)
      { out := { out with objectsDeleted := saturatingAdd out.objectsDeleted 1 } }
    finishLine run line keys p
  else pure (pushLine out line .kept 0 keys (why.map DeleteError.asStr))

def previewLine (line : PlanLine) (out : Outcome) : Run Outcome := do
  let keys ← resolveKeys line
  let versioning ← probeVersioning line line.manifestKey
  pure (pushLine out line .kept 0 (keys.toOption.getD line.objectKeys)
    (some (if versioning.toOption = some Versioning.versioned then "DryRun:VersionedBucket" else "DryRun")))

def runLine (run : RunAttribution) (limits : Limits) (line : PlanLine) (out : Outcome) :
    Run Outcome := do
  match ← resolveKeys line with
  | .error code => pure (pushLine out line .kept 0 line.objectKeys (some code))
  | .ok keys =>
      match ← writeIntents run line keys (linePoints line) false with
      | .error code => pure (pushLine out line .kept 0 keys (some code))
      | .ok versioned =>
          if versioned then
            pure (pushLine out line .kept 0 keys (some DeleteError.versionedBucket.asStr))
          else deleteLine run limits line keys out

def executeLine (run : RunAttribution) (limits : Limits) (out : Outcome) (line : PlanLine) :
    Run Outcome :=
  if limits.dryRun then previewLine line out
  else if limits.maxObjects ≤ out.objectsDeleted then
    pure (pushLine out line .kept 0 line.objectKeys (some DeleteError.budgetExhausted.asStr))
  else runLine run limits line out

def execute (plan : Plan) (run : RunAttribution) (limits : Limits) : Run Outcome :=
  plan.lines.foldlM (executeLine run limits) { dryRun := limits.dryRun }

end Logweir.Retention
