import Logweir.Library.Fields

/-!
# The retention plan

The document an administrator approves.  The controller writes it and the worker reads it;
the two types of the source have the same fields.
-/

set_option autoImplicit false

namespace Logweir.Retention

open Logweir.Text

def PLAN_MEDIA_TYPE : String := "application/vnd.logweir.retention-plan+json;version=1.0.0"

def EVIDENCE_ROOT : String := "logweir/"

def I64_MAX : Int := 9223372036854775807

def saturatingAdd (a b : Int) : Int := min (a + b) I64_MAX

structure PlanLine where
  pointId : String
  backupId : String
  reason : String
  recoveryPointAtMs : Int
  manifestKey : String
  /-- The bound of every key of the line. -/
  setPrefix : String
  /-- The worker lists the set for the keys that the plan does not name. -/
  enumerateSet : Bool := false
  /-- The manifest first. -/
  objectKeys : List String
  /-- The other points removed with the set. -/
  coPointIds : List String := []
deriving DecidableEq

structure Plan where
  format : String := PLAN_MEDIA_TYPE
  formatVersion : String := "1.0.0"
  policyNamespace : String
  policyName : String
  policyUid : String
  locationId : String
  scopePrefix : String
  keepLast : Option Int
  keepDays : Option Int
  minUsablePoints : Int
  lines : List PlanLine
deriving DecidableEq

def linePoints (line : PlanLine) : List String := line.pointId :: line.coPointIds

def Plan.points (plan : Plan) : List String := plan.lines.flatMap linePoints

def Plan.objectKeys (plan : Plan) : List String := plan.lines.flatMap PlanLine.objectKeys

def setBound (scope backupId : String) : String := trimEnd '/' scope ++ "/" ++ backupId ++ "/"

theorem startsWith_iff {s start : String} : startsWith s start = true ↔ start.toList <+: s.toList :=
  List.isPrefixOf_iff_prefix

end Logweir.Retention
