import Logweir.Approval.Separation
import Logweir.Library.CompactJson
import Logweir.Library.Results
import Mathlib.Algebra.Group.Nat.Defs

/-!
# Authorization documents

`logweir_core::approval_policy`.  A signed document admits one object, one plan
and one policy; four entry points compose the same checks in different orders.
The main result puts them together: what a document admits is unique, the
controller's verdict implies the runner's, and the request an approver is shown
is never an approval.
-/

set_option autoImplicit false

namespace Logweir.Approval

open Logweir.Json Logweir.Text Logweir.Results

def POLICY_SNAPSHOT_FORMAT_VERSION : String := "1"
def POLICY_SNAPSHOT_KIND : String := "ApprovalPolicySnapshot"
def MAX_ISSUED_AT_SKEW_SECONDS : Int := 60
def MAX_TICKET_LEN : Nat := 128
def RESTORE_AUTHORIZATION_FORMAT_VERSION : String := "2.3.0"
def RESTORE_AUTHORIZATION_SUBJECT_SINCE_MINOR : Nat := 1
def RESTORE_AUTHORIZATION_FORMAT_VERSION_SUBJECT : String := "2.1.0"
def RESTORE_AUTHORIZATION_APPROVER_SINCE_MINOR : Nat := 2
def RESTORE_AUTHORIZATION_FORMAT_VERSION_APPROVER : String := "2.2.0"
def RESTORE_AUTHORIZATION_WORKSPACE_SINCE_MINOR : Nat := 3
def RESTORE_AUTHORIZATION_KIND : String := "RestoreAuthorization"
def SUBJECT_API_VERSION : String := "logweir.dev/v1alpha1"
def APPROVAL_SUBJECT_MISMATCH : String := "ApprovalSubjectMismatch"
def APPROVAL_SUBJECT_ORIGINAL_NAME : String := "originalName"
def ORIGINAL_NAME_CONFIRMATION_NOT_ACCEPTED : String := "OriginalNameConfirmationNotAccepted"

inductive ApprovalMode where
  | governed
  | ordinary
deriving DecidableEq, Repr

def ApprovalMode.asStr : ApprovalMode → String
  | .governed => "Governed"
  | .ordinary => "Ordinary"

inductive ApproverSignature where
  | personalKey
  | console
deriving DecidableEq, Repr

def ApproverSignature.asStr : ApproverSignature → String
  | .personalKey => "a personal GovernedApproval key"
  | .console => "the console (approverSignature: Console)"

inductive ApprovalRoute where
  | requesterConfirms
  | secondPersonInConsole
  | personalKey
deriving DecidableEq, Repr

structure ApprovalPolicy where
  name : String
  mode : ApprovalMode
  maxAgeSeconds : Int
  requireDistinctPrincipal : Bool
  approverSignature : ApproverSignature
deriving DecidableEq, Repr

structure AuthorizedSubject where
  apiVersion : String
  kind : String
  namespace_ : String
  workspace : String
  name : String
  uid : String
deriving DecidableEq, Repr

structure Requester where
  issuer : String
  subject : String
deriving DecidableEq, Repr

structure Approver where
  issuer : String
  subject : String
deriving DecidableEq, Repr

structure PolicyRef where
  name : String
  digest : String
deriving DecidableEq, Repr

structure OriginalNameConfirmation where
  typedTopics : List String
deriving DecidableEq, Repr

structure RestoreAuthorization where
  formatVersion : String
  kind : String
  authorizationMode : ApprovalMode
  subject : AuthorizedSubject
  planHash : String
  requester : Requester
  policy : PolicyRef
  issuedAt : Int
  expiresAt : Int
  ticket : Option String
  approvalSubject : Option String
  originalNameConfirmation : Option OriginalNameConfirmation
  approver : Option Approver
  approvedAt : Option Int
deriving DecidableEq, Repr

structure ExpectedSubject where
  kind : String
  namespace_ : String
  workspace : String
  name : String
  uid : String
  planHash : String
deriving DecidableEq, Repr

inductive AuthorizationRefusal where
  | documentInvalid (detail : String)
  | subjectMismatch (detail : String)
  | planHashMismatch (got want : String)
  | policyMismatch (detail : String)
  | windowInvalid (detail : String)
  | expired (detail : String)
  | approvalRequired (detail : String)
  | selfApproval (detail : String)
deriving DecidableEq, Repr

abbrev Verdict := Except AuthorizationRefusal Unit

structure Snapshot where
  formatVersion : String
  kind : String
  name : String
  mode : ApprovalMode
  maxAgeSeconds : Int
  requireDistinctPrincipal : Bool
  approverSignature : Option ApproverSignature
deriving DecidableEq, Repr

structure External where
  /-- Lowercase hex of the SHA-256 of some bytes. -/
  sha256Hex : List UInt8 → String
  /-- An instant's RFC 3339 text. -/
  rfc3339 : Int → String
  /-- `serde_json::from_slice` at the document type. -/
  parseAuthorization : List UInt8 → Except String RestoreAuthorization
  /-- `serde_json::from_slice` at the snapshot type. -/
  parseSnapshot : List UInt8 → Except String Snapshot

def ApprovalPolicy.route (policy : ApprovalPolicy) : Except AuthorizationRefusal ApprovalRoute :=
  match policy.mode, policy.approverSignature with
  | .ordinary, .personalKey => .ok .requesterConfirms
  | .governed, .console => .ok .secondPersonInConsole
  | .governed, .personalKey => .ok .personalKey
  | .ordinary, .console =>
    .error (.policyMismatch ("policy " ++ shown policy.name ++
      " is Ordinary (one person confirms) and says approverSignature: " ++
      "Console; a policy with no approver has no approver's signature, so this is " ++
      "not a policy anything is confirmed, approved or run under"))

def ApprovalPolicy.snapshot (policy : ApprovalPolicy) : Json :=
  .obj
    ([("formatVersion", .str POLICY_SNAPSHOT_FORMAT_VERSION),
      ("kind", .str POLICY_SNAPSHOT_KIND),
      ("name", .str policy.name),
      ("mode", .str policy.mode.asStr),
      ("maxAgeSeconds", .num policy.maxAgeSeconds),
      ("requireDistinctPrincipal", .bool policy.requireDistinctPrincipal)] ++
      if policy.approverSignature = .console then [("approverSignature", .str "Console")] else [])

def ApprovalPolicy.snapshotBytes (policy : ApprovalPolicy) : List UInt8 := toVec policy.snapshot

def ApprovalPolicy.digest (ext : External) (policy : ApprovalPolicy) : String :=
  "sha256:" ++ ext.sha256Hex policy.snapshotBytes

def AuthorizationRefusal.text : AuthorizationRefusal → String
  | .documentInvalid d | .subjectMismatch d | .policyMismatch d | .windowInvalid d | .expired d
  | .approvalRequired d | .selfApproval d => d
  | .planHashMismatch got want =>
    "the authorization document names plan hash " ++ got ++ " but the subject's " ++
      "spec.planBytes hash to " ++ want ++ "; a changed plan needs a new confirmation"

/-- Reads a snapshot back; only the canonical bytes of a policy of the table are one. -/
def ApprovalPolicy.fromSnapshotBytes (ext : External) (bytes : List UInt8) :
    Except String ApprovalPolicy := do
  let snapshot ← (ext.parseSnapshot bytes).mapError fun e =>
    "the approval-policy snapshot does not parse: " ++ e
  refuseIf (snapshot.formatVersion ≠ POLICY_SNAPSHOT_FORMAT_VERSION ∨
      snapshot.kind ≠ POLICY_SNAPSHOT_KIND)
    ("the approval-policy snapshot declares formatVersion " ++ debug snapshot.formatVersion ++
      " and kind " ++ debug snapshot.kind ++ "; this build reads " ++
      debug POLICY_SNAPSHOT_FORMAT_VERSION ++ " and " ++ debug POLICY_SNAPSHOT_KIND)
  let policy : ApprovalPolicy :=
    { name := snapshot.name
      mode := snapshot.mode
      maxAgeSeconds := snapshot.maxAgeSeconds
      requireDistinctPrincipal := snapshot.requireDistinctPrincipal
      approverSignature := snapshot.approverSignature.getD .personalKey }
  let _ ← policy.route.mapError fun notARow =>
    "the approval-policy snapshot is not one this build runs: " ++ notARow.text
  refuseIf (policy.snapshotBytes ≠ bytes)
    ("the approval-policy snapshot is not in canonical form; the bytes a run " ++
      "freezes are exactly the bytes the controller rendered")
  return policy

theorem snapshotBytes_of_fromSnapshotBytes {ext : External} {bytes : List UInt8}
    {policy : ApprovalPolicy} (read : ApprovalPolicy.fromSnapshotBytes ext bytes = .ok policy) :
    policy.snapshotBytes = bytes ∧ ∃ route, policy.route = .ok route := by
  unfold ApprovalPolicy.fromSnapshotBytes at read
  obtain ⟨snapshot, -, read⟩ := bind_eq_ok.mp read
  obtain ⟨_, -, read⟩ := bind_eq_ok.mp read
  obtain ⟨route, routed, read⟩ := bind_eq_ok.mp read
  obtain ⟨_, canonical, read⟩ := bind_eq_ok.mp read
  cases read
  exact ⟨Decidable.not_not.mp (refuseIf_eq_ok.mp canonical), route, mapError_eq_ok.mp routed⟩

def numericPart (part : List Char) : Option Nat :=
  let canonical := !part.isEmpty && part.all Char.isDigit &&
    (part == ['0'] || part.head? != some '0')
  if canonical then
    let value := part.foldl (fun n c => 10 * n + (c.toNat - 48)) 0
    if value < 2 ^ 64 then some value else none
  else none

def numericVersion (version : String) : Option (Nat × Nat × Nat) :=
  match splitChars '.' version.toList with
  | [major, minor, patch] => do
    let major ← numericPart major
    let minor ← numericPart minor
    let patch ← numericPart patch
    return (major, minor, patch)
  | _ => none

def isSince (minor : Nat) (version : String) : Bool :=
  match numericVersion version with
  | some (major, found, _) => major == 2 && minor ≤ found
  | none => false

def RestoreAuthorization.carriesApproverFields (doc : RestoreAuthorization) : Bool :=
  doc.approver.isSome || doc.approvedAt.isSome

def RestoreAuthorization.carriesSubjectFields (doc : RestoreAuthorization) : Bool :=
  doc.approvalSubject.isSome || doc.originalNameConfirmation.isSome

def RestoreAuthorization.checkApproverFields (doc : RestoreAuthorization) : Verdict :=
  if !doc.carriesApproverFields then .ok ()
  else if !isSince RESTORE_AUTHORIZATION_APPROVER_SINCE_MINOR doc.formatVersion then
    .error (.documentInvalid
      ("the document carries `approver` or `approvedAt`, which are defined from " ++
        "formatVersion " ++ RESTORE_AUTHORIZATION_FORMAT_VERSION_APPROVER ++ ", and it declares " ++
        debug doc.formatVersion ++ "; a document that predates the fields cannot carry them"))
  else if doc.approver.isNone || doc.approvedAt.isNone then
    .error (.documentInvalid
      ("the document carries one of `approver` and `approvedAt` without the other; a " ++
        "console approval names who approved AND when"))
  else .ok ()

def RestoreAuthorization.checkWorkspaceVersion (doc : RestoreAuthorization) : Verdict :=
  if doc.subject.workspace.isEmpty ||
      isSince RESTORE_AUTHORIZATION_WORKSPACE_SINCE_MINOR doc.formatVersion then .ok ()
  else
    .error (.documentInvalid
      ("the document carries `subject.workspace`, which is defined from formatVersion " ++
        RESTORE_AUTHORIZATION_FORMAT_VERSION ++ ", and it declares " ++ debug doc.formatVersion ++
        "; a document that predates the field cannot carry it"))

def RestoreAuthorization.checkSubjectFieldsVersion (doc : RestoreAuthorization) : Verdict :=
  if !doc.carriesSubjectFields then .ok ()
  else if isSince RESTORE_AUTHORIZATION_SUBJECT_SINCE_MINOR doc.formatVersion then .ok ()
  else
    .error (.documentInvalid
      ("the document carries `approvalSubject` or `originalNameConfirmation`, which are " ++
        "defined from formatVersion " ++ RESTORE_AUTHORIZATION_FORMAT_VERSION_SUBJECT ++
        ", and it declares " ++ debug doc.formatVersion ++
        "; a document that predates the fields cannot carry them"))

def RestoreAuthorization.fromBytes (ext : External) (bytes : List UInt8) :
    Except AuthorizationRefusal RestoreAuthorization := do
  let doc ← (ext.parseAuthorization bytes).mapError fun e =>
    AuthorizationRefusal.documentInvalid ("the bytes are not an authorization document v2: " ++ e)
  doc.checkSubjectFieldsVersion
  doc.checkApproverFields
  doc.checkWorkspaceVersion
  return doc

inductive ApprovalSubject where
  | ordinary
  | originalName
deriving DecidableEq, Repr

def ApprovalSubject.fromWire : Option String → Except String ApprovalSubject
  | none => .ok .ordinary
  | some value =>
    if value = APPROVAL_SUBJECT_ORIGINAL_NAME then .ok .originalName
    else .error (APPROVAL_SUBJECT_MISMATCH ++ ": the approval document's approval subject is " ++
      debug value ++ "; the one value this build knows is " ++
      debug APPROVAL_SUBJECT_ORIGINAL_NAME ++ " (an ordinary approval carries no subject at all)")

def checkTicket (mode : ApprovalMode) (ticket : Option String) : Except String Unit :=
  match ticket with
  | none =>
    if mode = .governed then
      .error ("a Governed authorization carries a change ticket (D0: required in Governed); " ++
        "this document names none")
    else .ok ()
  | some t =>
    if (trim t).isEmpty || trim t != t then
      .error ("the change ticket " ++ debug t ++ " is blank or carries surrounding whitespace")
    else if t.length > MAX_TICKET_LEN || t.toList.any isControl then
      .error ("the change ticket is at most " ++ toString MAX_TICKET_LEN ++ " printable characters")
    else .ok ()

def subjectMismatch (subject : AuthorizedSubject) (expected : ExpectedSubject) : Option String :=
  if subject.apiVersion ≠ SUBJECT_API_VERSION then some ("apiVersion " ++ subject.apiVersion)
  else if subject.kind ≠ expected.kind then some ("kind " ++ subject.kind)
  else if subject.namespace_ ≠ expected.namespace_ then some ("namespace " ++ subject.namespace_)
  else if subject.workspace ≠ expected.workspace then
    some (if subject.workspace.isEmpty then "no workspace" else "workspace " ++ subject.workspace)
  else if subject.name ≠ expected.name then some ("name " ++ subject.name)
  else if subject.uid ≠ expected.uid then some ("uid " ++ subject.uid)
  else none

section

variable (ext : External)

def checkSubject (doc : RestoreAuthorization) (expected : ExpectedSubject) : Verdict :=
  match subjectMismatch doc.subject expected with
  | some what =>
    .error (.subjectMismatch ("the authorization document names " ++ what ++
      ", but the subject is " ++ expected.kind ++ " " ++ expected.namespace_ ++ "/" ++
      expected.name ++ " in workspace " ++ expected.workspace ++ " UID " ++ expected.uid ++
      "; a document authorises exactly one object"))
  | none =>
    refuseIf (doc.planHash ≠ expected.planHash)
      (.planHashMismatch doc.planHash expected.planHash)

def checkPolicy (doc : RestoreAuthorization) (policy : ApprovalPolicy) : Verdict :=
  let digest := policy.digest ext
  refuseIf (doc.policy.name ≠ policy.name ∨ doc.policy.digest ≠ digest ∨
      doc.authorizationMode ≠ policy.mode)
    (.policyMismatch ("the authorization document was issued under policy " ++
      doc.policy.name ++ " (" ++ doc.authorizationMode.asStr ++ ", " ++ doc.policy.digest ++
      "), but this workspace is bound to policy " ++ policy.name ++ " (" ++ policy.mode.asStr ++
      ", " ++ digest ++ "); a policy change requires a new confirmation"))

/-- What is left of the document once its subject, plan and policy are the expected ones. -/
def checkContents (doc : RestoreAuthorization) (policy : ApprovalPolicy) (route : ApprovalRoute) :
    Verdict := do
  refuseIf ((trim doc.requester.issuer).isEmpty || (trim doc.requester.subject).isEmpty)
    (.documentInvalid
      ("the authorization document names no requester issuer and subject; the console " ++
        "attests who asked, and a document that names nobody attests nothing"))
  let subject ← (ApprovalSubject.fromWire doc.approvalSubject).mapError
    AuthorizationRefusal.documentInvalid
  refuseIf (doc.originalNameConfirmation.isSome &&
      !(subject == .originalName && doc.authorizationMode == .ordinary))
    (.documentInvalid (ORIGINAL_NAME_CONFIRMATION_NOT_ACCEPTED ++
      ": the document carries typed topic names, which only a one-person confirmation " ++
      "(Ordinary) of a restore under the original topic names carries"))
  (checkTicket doc.authorizationMode doc.ticket).mapError AuthorizationRefusal.documentInvalid
  refuseIf (doc.carriesApproverFields && route != .secondPersonInConsole)
    (.policyMismatch ("the authorization document names a console approver, and policy " ++
      policy.name ++ " (" ++ policy.mode.asStr ++ ") takes its approval from " ++
      policy.approverSignature.asStr ++ "; a console approval is accepted only under a policy " ++
      "whose approverSignature is Console"))

def checkDocumentBinding (doc : RestoreAuthorization) (expected : ExpectedSubject)
    (policy : ApprovalPolicy) : Verdict := do
  refuseIf ((splitChars '.' doc.formatVersion.toList).head? ≠ some ['2'] ∨
      doc.kind ≠ RESTORE_AUTHORIZATION_KIND)
    (.documentInvalid ("the document declares formatVersion " ++ debug doc.formatVersion ++
      " and kind " ++ debug doc.kind ++ "; this build reads major 2 and kind " ++
      debug RESTORE_AUTHORIZATION_KIND))
  doc.checkSubjectFieldsVersion
  doc.checkApproverFields
  doc.checkWorkspaceVersion
  let route ← policy.route
  checkSubject doc expected
  checkPolicy ext doc policy
  checkContents doc policy route

structure ConsoleApproval where
  requester : Requester
  approver : Approver
  requestedAt : Int
  approvedAt : Int
  requestExpiresAt : Int
deriving DecidableEq, Repr

def consoleApprovalOf (doc : RestoreAuthorization) (policy : ApprovalPolicy) :
    Except AuthorizationRefusal ConsoleApproval :=
  match doc.approver, doc.approvedAt with
  | some approver, some approvedAt =>
    .ok
      { requester := doc.requester
        approver
        requestedAt := doc.issuedAt
        approvedAt
        requestExpiresAt := doc.expiresAt }
  | none, none =>
    .error (.approvalRequired ("the console confirmed requester " ++
      principalWords doc.requester.issuer doc.requester.subject ++ " under policy " ++
      shown policy.name ++ ", which takes its approval from " ++
      "the console, and nobody has approved: a second person signs in to the console and " ++
      "clicks Approve. A personal-key countersignature is not accepted under this policy. " ++
      "This document authorises nothing"))
  | some _, none =>
    .error (.documentInvalid
      ("the document names an approver and no `approvedAt`: a console approval names who " ++
        "approved AND when, and an approval time is never taken from another field (one of " ++
        "`approver` and `approvedAt` without the other)"))
  | none, some _ =>
    .error (.documentInvalid
      ("the document carries `approvedAt` and names no approver: a console approval names " ++
        "who approved AND when (one of `approver` and `approvedAt` without the other)"))

def consoleSeparation (requester : Requester) (approver : Approver) : Verdict :=
  match separationFault requester.issuer requester.subject approver.issuer approver.subject with
  | none => .ok ()
  | some fault =>
    let requesterWords := principalWords requester.issuer requester.subject
    let approverWords := principalWords approver.issuer approver.subject
    .error (.selfApproval
      (match fault with
      | .notComparable party | .localAdmin party | .systemIdentity party =>
        "the " ++ party.asStr ++ " " ++
          (match party with
          | .requester => requesterWords
          | .approver => approverWords) ++ " " ++ fault.clause
      | .twoIssuers =>
        "the approver " ++ approverWords ++ " and the requester " ++ requesterWords ++ " " ++
          fault.clause
      | .samePerson =>
        "the approver " ++ approverWords ++ " " ++ fault.clause ++ " (the requester is " ++
          requesterWords ++ ")"))

def nanosPerSecond : Int := 1000000000

/-- The console approval, as every reader judges it on top of the binding. -/
def checkConsoleApproval (doc : RestoreAuthorization) (policy : ApprovalPolicy)
    (now : Option Int) : Verdict := do
  let route ← policy.route
  match route with
  | .requesterConfirms | .personalKey => return ()
  | .secondPersonInConsole =>
    let approval ← consoleApprovalOf doc policy
    consoleSeparation approval.requester approval.approver
    refuseIf (approval.approvedAt < approval.requestedAt ∨
        approval.approvedAt ≥ approval.requestExpiresAt)
      (.windowInvalid ("the approval was given at " ++ ext.rfc3339 approval.approvedAt ++
        ", outside the request's own window " ++ ext.rfc3339 approval.requestedAt ++ ".." ++
        ext.rfc3339 approval.requestExpiresAt ++ "; an approval is given after the request was " ++
        "made and before it expires"))
    refuseIf (now.any fun now =>
        approval.approvedAt > now + MAX_ISSUED_AT_SKEW_SECONDS * nanosPerSecond)
      (.windowInvalid ("the approval was given at " ++ ext.rfc3339 approval.approvedAt ++
        ", more than " ++ toString MAX_ISSUED_AT_SKEW_SECONDS ++
        "s ahead of this verifier's clock"))

def numSeconds (duration : Int) : Int := duration.tdiv nanosPerSecond

def checkWindowShape (doc : RestoreAuthorization) (policy : ApprovalPolicy) : Verdict :=
  let lifetime := numSeconds (doc.expiresAt - doc.issuedAt)
  refuseIf (doc.expiresAt ≤ doc.issuedAt ∨ lifetime > policy.maxAgeSeconds)
    (.windowInvalid ("the authorization window " ++ ext.rfc3339 doc.issuedAt ++ ".." ++
      ext.rfc3339 doc.expiresAt ++ " is " ++ toString lifetime ++ "s; policy " ++ policy.name ++
      " allows a positive window of at most " ++ toString policy.maxAgeSeconds ++ "s"))

def checkClock (doc : RestoreAuthorization) (now : Int) : Verdict := do
  refuseIf (doc.issuedAt > now + MAX_ISSUED_AT_SKEW_SECONDS * nanosPerSecond)
    (.windowInvalid ("the authorization document was issued at " ++
      ext.rfc3339 doc.issuedAt ++ ", more than " ++ toString MAX_ISSUED_AT_SKEW_SECONDS ++
      "s ahead of this verifier's clock"))
  refuseIf (doc.expiresAt ≤ now)
    (.expired ("the authorization expired at " ++ ext.rfc3339 doc.expiresAt ++
      "; an expired confirmation or approval authorises nothing new — create a new Restore"))

def checkBinding (doc : RestoreAuthorization) (expected : ExpectedSubject)
    (policy : ApprovalPolicy) : Verdict := do
  checkDocumentBinding ext doc expected policy
  checkConsoleApproval ext doc policy none

def checkRequestBinding (doc : RestoreAuthorization) (expected : ExpectedSubject)
    (policy : ApprovalPolicy) (now : Int) : Verdict := do
  let route ← policy.route
  refuseIf (route ≠ .secondPersonInConsole)
    (.policyMismatch ("policy " ++ policy.name ++ " (" ++ policy.mode.asStr ++
      ") takes its approval from " ++ policy.approverSignature.asStr ++
      "; there is no request to approve in the console under it"))
  refuseIf doc.carriesApproverFields
    (.documentInvalid
      ("the stored request already names an approver; a request is what the console signed " ++
        "for the requester, and an approval is never approved again"))
  checkDocumentBinding ext doc expected policy
  checkWindowShape ext doc policy
  checkClock ext doc now

def checkRestoreAuthorization (doc : RestoreAuthorization) (expected : ExpectedSubject)
    (policy : ApprovalPolicy) (now : Int) : Verdict := do
  checkDocumentBinding ext doc expected policy
  checkWindowShape ext doc policy
  checkClock ext doc now
  checkConsoleApproval ext doc policy (some now)

end

variable {ext : External} {doc : RestoreAuthorization} {expected expected' : ExpectedSubject}
  {policy policy' : ApprovalPolicy} {now : Int}

/-- Everything the binding says of the document, once it is accepted. -/
structure Bound (ext : External) (doc : RestoreAuthorization) (expected : ExpectedSubject)
    (policy : ApprovalPolicy) : Prop where
  subjectFields : doc.checkSubjectFieldsVersion = .ok ()
  approverFields : doc.checkApproverFields = .ok ()
  workspaceField : doc.checkWorkspaceVersion = .ok ()
  subject : checkSubject doc expected = .ok ()
  issuedUnder : checkPolicy ext doc policy = .ok ()
  contents : ∃ route, policy.route = .ok route ∧ checkContents doc policy route = .ok ()

theorem bound_of_ok (h : checkDocumentBinding ext doc expected policy = .ok ()) :
    Bound ext doc expected policy := by
  unfold checkDocumentBinding at h
  obtain ⟨_, -, h⟩ := bind_eq_ok.mp h
  obtain ⟨_, subjectFields, h⟩ := bind_eq_ok.mp h
  obtain ⟨_, approverFields, h⟩ := bind_eq_ok.mp h
  obtain ⟨_, workspaceField, h⟩ := bind_eq_ok.mp h
  obtain ⟨route, routed, h⟩ := bind_eq_ok.mp h
  obtain ⟨_, subject, h⟩ := bind_eq_ok.mp h
  obtain ⟨_, issuedUnder, contents⟩ := bind_eq_ok.mp h
  exact ⟨subjectFields, approverFields, workspaceField, subject, issuedUnder, route, routed,
    contents⟩

theorem expected_of_ok (h : checkSubject doc expected = .ok ()) :
    expected = ⟨doc.subject.kind, doc.subject.namespace_, doc.subject.workspace, doc.subject.name,
      doc.subject.uid, doc.planHash⟩ := by
  unfold checkSubject subjectMismatch at h
  split_ifs at h with version kind namespace_ workspace name uid <;> try cases h
  have plan := Decidable.not_not.mp (refuseIf_eq_ok.mp h)
  have kind := Decidable.not_not.mp kind
  have namespace_ := Decidable.not_not.mp namespace_
  have workspace := Decidable.not_not.mp workspace
  have name := Decidable.not_not.mp name
  have uid := Decidable.not_not.mp uid
  cases expected
  simp only at kind namespace_ workspace name uid plan
  rw [kind, namespace_, workspace, name, uid, plan]

theorem asStr_injective {mode mode' : ApprovalMode} (same : mode.asStr = mode'.asStr) :
    mode = mode' := by
  cases mode <;> cases mode'
  · rfl
  · exact absurd same (by decide)
  · exact absurd same (by decide)
  · rfl

theorem snapshot_injective (same : policy.snapshot = policy'.snapshot) : policy = policy' := by
  unfold ApprovalPolicy.snapshot at same
  have members := Json.obj.inj same
  obtain ⟨name, mode, age, distinct, signature⟩ := policy
  obtain ⟨name', mode', age', distinct', signature'⟩ := policy'
  simp only [List.cons_append, List.nil_append, List.cons.injEq, Prod.mk.injEq, true_and,
    Json.str.injEq, Json.num.injEq, Json.bool.injEq] at members
  obtain ⟨rfl, modes, rfl, rfl, signatures⟩ := members
  cases asStr_injective modes
  cases signature <;> cases signature'
  · rfl
  · cases signatures
  · cases signatures
  · rfl

theorem policy_of_ok (h : checkPolicy ext doc policy = .ok ()) :
    doc.policy.digest = policy.digest ext := by
  unfold checkPolicy at h
  have same := refuseIf_eq_ok.mp h
  exact Decidable.not_not.mp fun differs => same (.inr (.inl differs))

theorem digest_injective (collisionFree : Function.Injective ext.sha256Hex)
    (same : policy.digest ext = policy'.digest ext) : policy = policy' := by
  unfold ApprovalPolicy.digest at same
  have hex := collisionFree ((String.append_right_inj _).mp same)
  exact snapshot_injective (toVec_injective hex)

theorem bound_of_checkBinding (h : checkBinding ext doc expected policy = .ok ()) :
    Bound ext doc expected policy ∧ checkConsoleApproval ext doc policy none = .ok () := by
  unfold checkBinding at h
  obtain ⟨_, bound, approval⟩ := bind_eq_ok.mp h
  exact ⟨bound_of_ok bound, approval⟩

/-- What an accepted console approval says: a second person of the same issuer,
inside the request's own window. -/
structure SecondPerson (doc : RestoreAuthorization) : Prop where
  named : ∃ approver approvedAt, doc.approver = some approver ∧ doc.approvedAt = some approvedAt ∧
    Person doc.requester.issuer doc.requester.subject ∧ Person approver.issuer approver.subject ∧
    foldIssuer approver.issuer = foldIssuer doc.requester.issuer ∧
    foldSubject approver.subject ≠ foldSubject doc.requester.subject ∧
    doc.issuedAt ≤ approvedAt ∧ approvedAt < doc.expiresAt

theorem second_person_of_ok {now : Option Int}
    (route : policy.route = .ok .secondPersonInConsole)
    (h : checkConsoleApproval ext doc policy now = .ok ()) : SecondPerson doc := by
  unfold checkConsoleApproval at h
  obtain ⟨found, routed, h⟩ := bind_eq_ok.mp h
  rw [route] at routed
  cases routed
  obtain ⟨approval, taken, h⟩ := bind_eq_ok.mp h
  obtain ⟨_, separated, h⟩ := bind_eq_ok.mp h
  obtain ⟨_, window, -⟩ := bind_eq_ok.mp h
  have inside := refuseIf_eq_ok.mp window
  unfold consoleApprovalOf at taken
  split at taken
  · next approver approvedAt named stamped =>
      cases taken
      unfold consoleSeparation at separated
      split at separated
      · next noFault =>
          obtain ⟨asked, approved, issuers, subjects⟩ := two_people_of_no_fault noFault
          refine ⟨approver, approvedAt, named, stamped, asked, approved, issuers, subjects, ?_, ?_⟩
          · exact Int.not_lt.mp fun early => inside (.inl early)
          · exact Int.not_le.mp fun late => inside (.inr late)
      · cases separated
  · cases taken
  · cases taken
  · cases taken

theorem console_approval_without_clock {now : Option Int}
    (h : checkConsoleApproval ext doc policy now = .ok ()) :
    checkConsoleApproval ext doc policy none = .ok () := by
  unfold checkConsoleApproval at h ⊢
  obtain ⟨route, routed, h⟩ := bind_eq_ok.mp h
  refine bind_eq_ok.mpr ⟨route, routed, ?_⟩
  cases route with
  | requesterConfirms => exact h
  | personalKey => exact h
  | secondPersonInConsole =>
      obtain ⟨approval, taken, h⟩ := bind_eq_ok.mp h
      obtain ⟨_, separated, h⟩ := bind_eq_ok.mp h
      obtain ⟨_, window, -⟩ := bind_eq_ok.mp h
      refine bind_eq_ok.mpr ⟨approval, taken, bind_eq_ok.mpr ⟨(), separated, ?_⟩⟩
      exact bind_eq_ok.mpr ⟨(), window, refuseIf_eq_ok.mpr (by simp)⟩

theorem Bound.no_approver (bound : Bound ext doc expected policy)
    (route : policy.route ≠ .ok .secondPersonInConsole) :
    doc.approver = none ∧ doc.approvedAt = none := by
  obtain ⟨found, routed, contents⟩ := bound.contents
  unfold checkContents at contents
  obtain ⟨_, -, contents⟩ := bind_eq_ok.mp contents
  obtain ⟨_, -, contents⟩ := bind_eq_ok.mp contents
  obtain ⟨_, -, contents⟩ := bind_eq_ok.mp contents
  obtain ⟨_, -, contents⟩ := bind_eq_ok.mp contents
  have silent := refuseIf_eq_ok.mp contents
  have other : found ≠ .secondPersonInConsole := fun same => route (by rw [routed, same])
  have absent : doc.carriesApproverFields = false := by
    simpa [other] using silent
  unfold RestoreAuthorization.carriesApproverFields at absent
  rw [Bool.or_eq_false_iff, Option.isSome_eq_false_iff, Option.isSome_eq_false_iff,
    Option.isNone_iff_eq_none, Option.isNone_iff_eq_none] at absent
  exact absent

theorem window_of_ok (h : checkWindowShape ext doc policy = .ok ()) :
    doc.issuedAt < doc.expiresAt ∧
      numSeconds (doc.expiresAt - doc.issuedAt) ≤ policy.maxAgeSeconds := by
  unfold checkWindowShape at h
  have shape := refuseIf_eq_ok.mp h
  exact ⟨Int.not_le.mp fun empty => shape (.inl empty),
    Int.not_lt.mp fun long => shape (.inr long)⟩

theorem not_expired_of_ok (h : checkClock ext doc now = .ok ()) : now < doc.expiresAt := by
  unfold checkClock at h
  obtain ⟨_, -, h⟩ := bind_eq_ok.mp h
  exact Int.not_le.mp (refuseIf_eq_ok.mp h)

theorem parts_of_checkRestoreAuthorization
    (h : checkRestoreAuthorization ext doc expected policy now = .ok ()) :
    checkDocumentBinding ext doc expected policy = .ok () ∧
      checkWindowShape ext doc policy = .ok () ∧ checkClock ext doc now = .ok () ∧
      checkConsoleApproval ext doc policy (some now) = .ok () := by
  unfold checkRestoreAuthorization at h
  obtain ⟨_, binding, h⟩ := bind_eq_ok.mp h
  obtain ⟨_, window, h⟩ := bind_eq_ok.mp h
  obtain ⟨_, clock, approval⟩ := bind_eq_ok.mp h
  exact ⟨binding, window, clock, approval⟩

theorem checkBinding_of_checkRestoreAuthorization
    (h : checkRestoreAuthorization ext doc expected policy now = .ok ()) :
    checkBinding ext doc expected policy = .ok () := by
  obtain ⟨binding, -, -, approval⟩ := parts_of_checkRestoreAuthorization h
  exact bind_eq_ok.mpr ⟨(), binding, console_approval_without_clock approval⟩

theorem parts_of_checkRequestBinding
    (h : checkRequestBinding ext doc expected policy now = .ok ()) :
    policy.route = .ok .secondPersonInConsole ∧ doc.carriesApproverFields = false ∧
      checkDocumentBinding ext doc expected policy = .ok () := by
  unfold checkRequestBinding at h
  obtain ⟨route, routed, h⟩ := bind_eq_ok.mp h
  obtain ⟨_, console, h⟩ := bind_eq_ok.mp h
  obtain ⟨_, request, h⟩ := bind_eq_ok.mp h
  obtain ⟨_, binding, -⟩ := bind_eq_ok.mp h
  refine ⟨?_, ?_, binding⟩
  · rw [routed, Decidable.not_not.mp (refuseIf_eq_ok.mp console)]
  · simpa using refuseIf_eq_ok.mp request

/-- The document carries a field its declared version does not define. -/
def RestoreAuthorization.Overreaches (doc : RestoreAuthorization) : Prop :=
  (doc.carriesSubjectFields = true ∧
      isSince RESTORE_AUTHORIZATION_SUBJECT_SINCE_MINOR doc.formatVersion = false) ∨
    (doc.carriesApproverFields = true ∧
      isSince RESTORE_AUTHORIZATION_APPROVER_SINCE_MINOR doc.formatVersion = false) ∨
    (doc.subject.workspace.isEmpty = false ∧
      isSince RESTORE_AUTHORIZATION_WORKSPACE_SINCE_MINOR doc.formatVersion = false)

theorem not_overreaches (subjectFields : doc.checkSubjectFieldsVersion = .ok ())
    (approverFields : doc.checkApproverFields = .ok ())
    (workspaceField : doc.checkWorkspaceVersion = .ok ()) : ¬ doc.Overreaches := by
  rintro (⟨carries, early⟩ | ⟨carries, early⟩ | ⟨carries, early⟩)
  · simp [RestoreAuthorization.checkSubjectFieldsVersion, carries, early] at subjectFields
  · simp [RestoreAuthorization.checkApproverFields, carries, early] at approverFields
  · simp [RestoreAuthorization.checkWorkspaceVersion, carries, early] at workspaceField

/-- An authorization admits exactly one run, and a request is never an approval. -/
theorem authorization_admits_one_run (ext : External)
    (collisionFree : Function.Injective ext.sha256Hex) (doc : RestoreAuthorization) :
    (∀ expected expected' policy policy', checkBinding ext doc expected policy = .ok () →
      checkBinding ext doc expected' policy' = .ok () → expected = expected' ∧ policy = policy') ∧
    (∀ expected policy now, checkRestoreAuthorization ext doc expected policy now = .ok () →
      checkBinding ext doc expected policy = .ok () ∧ checkWindowShape ext doc policy = .ok () ∧
      doc.issuedAt < doc.expiresAt ∧
      numSeconds (doc.expiresAt - doc.issuedAt) ≤ policy.maxAgeSeconds ∧
      ∀ expected' policy' later, doc.expiresAt ≤ later →
        checkRestoreAuthorization ext doc expected' policy' later ≠ .ok ()) ∧
    (∀ expected policy, checkBinding ext doc expected policy = .ok () →
      (policy.route = .ok .secondPersonInConsole → SecondPerson doc) ∧
      (policy.route ≠ .ok .secondPersonInConsole → doc.approver = none ∧ doc.approvedAt = none)) ∧
    (∀ expected expected' policy now, ¬ (checkRequestBinding ext doc expected policy now = .ok () ∧
      checkBinding ext doc expected' policy = .ok ())) ∧
    (doc.Overreaches → (∀ bytes, RestoreAuthorization.fromBytes ext bytes ≠ .ok doc) ∧
      ∀ expected policy now, checkBinding ext doc expected policy ≠ .ok () ∧
        checkRequestBinding ext doc expected policy now ≠ .ok () ∧
        checkRestoreAuthorization ext doc expected policy now ≠ .ok ()) := by
  refine ⟨?_, ?_, ?_, ?_, ?_⟩
  · intro expected expected' policy policy' first second
    obtain ⟨bound, -⟩ := bound_of_checkBinding first
    obtain ⟨bound', -⟩ := bound_of_checkBinding second
    refine ⟨(expected_of_ok bound.subject).trans (expected_of_ok bound'.subject).symm, ?_⟩
    have digest := policy_of_ok bound.issuedUnder
    exact digest_injective collisionFree (digest.symm.trans (policy_of_ok bound'.issuedUnder))
  · intro expected policy now accepted
    obtain ⟨-, window, -, -⟩ := parts_of_checkRestoreAuthorization accepted
    obtain ⟨positive, short⟩ := window_of_ok window
    refine ⟨checkBinding_of_checkRestoreAuthorization accepted, window, positive, short, ?_⟩
    intro expected' policy' later passed again
    obtain ⟨-, -, clock, -⟩ := parts_of_checkRestoreAuthorization again
    exact absurd (not_expired_of_ok clock) (Int.not_lt.mpr passed)
  · intro expected policy accepted
    obtain ⟨bound, approval⟩ := bound_of_checkBinding accepted
    exact ⟨fun route => second_person_of_ok route approval, bound.no_approver⟩
  · intro expected expected' policy now ⟨request, binding⟩
    obtain ⟨route, silent, -⟩ := parts_of_checkRequestBinding request
    obtain ⟨-, approval⟩ := bound_of_checkBinding binding
    obtain ⟨approver, -, named, -⟩ := (second_person_of_ok route approval).named
    unfold RestoreAuthorization.carriesApproverFields at silent
    rw [named] at silent
    cases silent
  · intro overreaches
    have refused {expected : ExpectedSubject} {policy : ApprovalPolicy}
        (h : checkDocumentBinding ext doc expected policy = .ok ()) : False :=
      not_overreaches (bound_of_ok h).subjectFields (bound_of_ok h).approverFields
        (bound_of_ok h).workspaceField overreaches
    refine ⟨?_, fun expected policy now => ⟨?_, ?_, ?_⟩⟩
    · intro bytes read
      unfold RestoreAuthorization.fromBytes at read
      obtain ⟨found, -, read⟩ := bind_eq_ok.mp read
      obtain ⟨_, subjectFields, read⟩ := bind_eq_ok.mp read
      obtain ⟨_, approverFields, read⟩ := bind_eq_ok.mp read
      obtain ⟨_, workspaceField, read⟩ := bind_eq_ok.mp read
      cases read
      exact not_overreaches subjectFields approverFields workspaceField overreaches
    · intro binding
      obtain ⟨_, bound, -⟩ := bind_eq_ok.mp binding
      exact refused bound
    · intro request
      exact refused (parts_of_checkRequestBinding request).2.2
    · intro accepted
      exact refused (parts_of_checkRestoreAuthorization accepted).1

def ApprovalPolicy.asSnapshot (policy : ApprovalPolicy) : Snapshot where
  formatVersion := POLICY_SNAPSHOT_FORMAT_VERSION
  kind := POLICY_SNAPSHOT_KIND
  name := policy.name
  mode := policy.mode
  maxAgeSeconds := policy.maxAgeSeconds
  requireDistinctPrincipal := policy.requireDistinctPrincipal
  approverSignature := if policy.approverSignature = .console then some .console else none

theorem fromSnapshotBytes_snapshotBytes {ext : External} {policy : ApprovalPolicy}
    {route : ApprovalRoute} (routed : policy.route = .ok route)
    (reads : ext.parseSnapshot policy.snapshotBytes = .ok policy.asSnapshot) :
    ApprovalPolicy.fromSnapshotBytes ext policy.snapshotBytes = .ok policy := by
  have again : (⟨policy.asSnapshot.name, policy.asSnapshot.mode, policy.asSnapshot.maxAgeSeconds,
      policy.asSnapshot.requireDistinctPrincipal,
      policy.asSnapshot.approverSignature.getD .personalKey⟩ : ApprovalPolicy) = policy := by
    obtain ⟨name, mode, age, distinct, signature⟩ := policy
    cases signature <;> rfl
  unfold ApprovalPolicy.fromSnapshotBytes
  rw [reads]
  simp only [again, routed]
  refine bind_eq_ok.mpr ⟨policy.asSnapshot, rfl, bind_eq_ok.mpr ⟨(), ?_, ?_⟩⟩
  · exact refuseIf_eq_ok.mpr fun other => other.elim (fun h => h rfl) fun h => h rfl
  · simp only [again, routed]
    refine bind_eq_ok.mpr ⟨route, rfl, bind_eq_ok.mpr ⟨(), ?_, rfl⟩⟩
    exact refuseIf_eq_ok.mpr fun differs => differs rfl

/-- A snapshot is read back as the policy it was rendered from, from that policy's own bytes alone
and only as a row of the table; so the digest that a document names fixes the bytes that a run
under it can be given. -/
theorem policy_snapshot_binds (ext : External) (collisionFree : Function.Injective ext.sha256Hex)
    (policy : ApprovalPolicy)
    (reads : ext.parseSnapshot policy.snapshotBytes = .ok policy.asSnapshot) :
    (∀ bytes, ApprovalPolicy.fromSnapshotBytes ext bytes = .ok policy ↔
      bytes = policy.snapshotBytes ∧ ∃ route, policy.route = .ok route) ∧
    ∀ bytes other, ApprovalPolicy.fromSnapshotBytes ext bytes = .ok other →
      other.digest ext = policy.digest ext → other = policy ∧ bytes = policy.snapshotBytes := by
  refine ⟨fun bytes => ⟨fun read => ?_, ?_⟩, fun bytes other read same => ?_⟩
  · obtain ⟨own, routed⟩ := snapshotBytes_of_fromSnapshotBytes read
    exact ⟨own.symm, routed⟩
  · rintro ⟨rfl, route, routed⟩
    exact fromSnapshotBytes_snapshotBytes routed reads
  · have is := digest_injective collisionFree same
    subst is
    exact ⟨rfl, (snapshotBytes_of_fromSnapshotBytes read).1.symm⟩

def defaultConfirmPolicy : ApprovalPolicy where
  name := "default-confirm-v1"
  mode := .ordinary
  maxAgeSeconds := 900
  requireDistinctPrincipal := false
  approverSignature := .personalKey

def defaultConfirmHex : String :=
  "2f9f510607e57e08eec6e5169480d22389665c3822fa5d97751ef1b29b6d9e39"

def knownSha256 (bytes : List UInt8) : String :=
  if bytes = defaultConfirmPolicy.snapshotBytes then defaultConfirmHex
  else "-" ++ String.ofList (bytes.map fun b => Char.ofNat b.toNat)

theorem knownSha256_injective : Function.Injective knownSha256 := by
  have apart (bytes : List UInt8) :
      defaultConfirmHex ≠ "-" ++ String.ofList (bytes.map fun b => Char.ofNat b.toNat) := by
    intro same
    have chars := congrArg (fun s : String => s.toList.head?) same
    simp only [String.toList_append] at chars
    have heads : (some '2' : Option Char) = some '-' := chars
    cases heads
  intro bytes bytes' same
  unfold knownSha256 at same
  split_ifs at same with first second second
  · exact first.trans second.symm
  · exact absurd same (apart bytes')
  · exact absurd same.symm (apart bytes)
  · exact byteText_injective ((String.append_right_inj _).mp same)

def confirmedExternal : External where
  sha256Hex := knownSha256
  rfc3339 := toString
  parseAuthorization _ := .error "not read here"
  parseSnapshot _ := .error "not read here"

def confirmedSubject : ExpectedSubject where
  kind := "Restore"
  namespace_ := "logweir"
  workspace := "dev"
  name := "restore-1"
  uid := "uid-1"
  planHash := "sha256:plan"

/-- A one-person confirmation, issued at 0 for 900 seconds. -/
def confirmation : RestoreAuthorization where
  formatVersion := "2.3.0"
  kind := "RestoreAuthorization"
  authorizationMode := .ordinary
  subject := ⟨"logweir.dev/v1alpha1", "Restore", "logweir", "dev", "restore-1", "uid-1"⟩
  planHash := "sha256:plan"
  requester := ⟨"https://idp.example", "alice"⟩
  policy := ⟨"default-confirm-v1", "sha256:" ++ defaultConfirmHex⟩
  issuedAt := 0
  expiresAt := 900000000000
  ticket := none
  approvalSubject := none
  originalNameConfirmation := none
  approver := none
  approvedAt := none

theorem digest_defaultConfirmPolicy :
    defaultConfirmPolicy.digest confirmedExternal = "sha256:" ++ defaultConfirmHex := by
  have known : knownSha256 defaultConfirmPolicy.snapshotBytes = defaultConfirmHex := by
    unfold knownSha256
    rw [if_pos rfl]
  have hashes : confirmedExternal.sha256Hex = knownSha256 := rfl
  rw [ApprovalPolicy.digest, hashes, known]

theorem confirmation_accepted :
    checkRestoreAuthorization confirmedExternal confirmation confirmedSubject defaultConfirmPolicy
      1000000000 = .ok () := by
  have policy : checkPolicy confirmedExternal confirmation defaultConfirmPolicy = .ok () := by
    unfold checkPolicy
    rw [digest_defaultConfirmPolicy]
    exact refuseIf_eq_ok.mpr (by decide +kernel)
  unfold checkRestoreAuthorization checkDocumentBinding
  rw [policy]
  exact (toOption_eq_some _ _).mp (by decide +kernel)

theorem confirmation_admits_one_restore :
    checkBinding confirmedExternal confirmation confirmedSubject defaultConfirmPolicy = .ok () ∧
      checkRestoreAuthorization confirmedExternal confirmation confirmedSubject
        defaultConfirmPolicy 900000000000 ≠ .ok () := by
  have one := authorization_admits_one_run confirmedExternal knownSha256_injective confirmation
  obtain ⟨binding, -, -, -, expired⟩ := one.2.1 _ _ _ confirmation_accepted
  exact ⟨binding, expired _ _ _ (Int.le_refl _)⟩

def snapshotReader : External :=
  { confirmedExternal with
    parseSnapshot := fun bytes =>
      if bytes = defaultConfirmPolicy.snapshotBytes then .ok defaultConfirmPolicy.asSnapshot
      else .error "not read here" }

theorem default_policy_read_back : ApprovalPolicy.fromSnapshotBytes snapshotReader
    defaultConfirmPolicy.snapshotBytes = .ok defaultConfirmPolicy := by
  have reads : snapshotReader.parseSnapshot defaultConfirmPolicy.snapshotBytes =
      .ok defaultConfirmPolicy.asSnapshot := by
    unfold snapshotReader
    dsimp only
    rw [if_pos rfl]
  obtain ⟨own, -⟩ := policy_snapshot_binds snapshotReader knownSha256_injective
    defaultConfirmPolicy reads
  exact (own _).mpr ⟨rfl, .requesterConfirms, rfl⟩

end Logweir.Approval
