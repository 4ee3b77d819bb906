import Logweir.Library.Fields
import Logweir.Catalog.CrossCheck

/-!
# Examining one recovery point

`logweir::check::kinds::catalog_sync::examine`: the record at a point's key, the receipt
it names, the receipt's signature and the manifest, each read at most once, and what they
establish.  How many objects it spends is part of its answer.
-/

set_option autoImplicit false

namespace Logweir.CatalogSync

open Logweir.Receipt Logweir.Catalog

inductive OverCap where
  | reported (size : Nat)
  | streamed (reported read : Nat)
deriving DecidableEq

inductive StoreError where
  | alreadyExists (key : String)
  | notFound (key : String)
  | io (message : String)
  | backend (message : String)
  | readOnly (key : String)
  | notAManifest (key why : String)
  | tooLarge (key : String) (cap : Nat) (observed : OverCap)
deriving DecidableEq

structure ObjectAccess where
  get : String → Nat → Except StoreError (List UInt8)
  getWithVersion : String → Nat → Except StoreError (List UInt8 × Option String)
  getVersion : String → String → Nat → Except StoreError (List UInt8)
  listPage : String → Option String → Nat → Except StoreError (List String)

def catalogRecordCap : Nat := 6131072
def catalogReceiptCap : Nat := 5131072
def sidecarCap : Nat := 65536
def manifestCap : Nat := 268435456

inductive Availability where
  | available
  | missing
  | unreadable
  | deleted
  | conflict
  | unsupportedFormat
  | partly
deriving DecidableEq

inductive SignatureVerdict where
  | verified
  | invalid
  | noEvidence
  | notAttempted
deriving DecidableEq

inductive CauseDocument where
  | record
  | receipt
  | manifest
deriving DecidableEq

inductive CauseReason where
  | overReadCap
  | readFailed
  | notFound
  | malformed
  | unsupportedFormat
deriving DecidableEq

structure EntryCause where
  document : CauseDocument
  reason : CauseReason
  bytes : Option Nat
  capBytes : Option Nat
deriving DecidableEq

def EntryCause.of (document : CauseDocument) (reason : CauseReason) : EntryCause :=
  { document, reason, bytes := none, capBytes := none }

def EntryCause.ofRead (document : CauseDocument) : StoreError → EntryCause
  | .notFound _ => .of document .notFound
  | .tooLarge _ cap observed =>
      { document
        reason := .overReadCap
        bytes := match observed with
          | .reported size => some size
          | .streamed _ _ => none
        capBytes := some cap }
  | _ => .of document .readFailed

def availabilityOfRead : StoreError → Availability
  | .notFound _ => .missing
  | _ => .unreadable

/-- What serde makes of a record's bytes: the `format_version` string, when there is one, and
the record, when the typed shape holds. -/
structure RecordText where
  formatVersion : Option String
  point : Option CatalogPoint

structure Sidecar where
  keyIds : List String
deriving DecidableEq

structure Documents where
  crates : Crates
  recordText : List UInt8 → Option RecordText
  receipt : List UInt8 → Option BackupReceipt
  sidecar : List UInt8 → Option Sidecar
  /-- `verify_detached` of a held key over a receipt's bytes. -/
  verifies : String → List UInt8 → Sidecar → Bool

inductive RecordVerdict where
  | point (p : CatalogPoint)
  | unsupportedFormat (formatVersion : String)
  | unreadable
deriving DecidableEq

def majorOf (version : String) : Option Nat :=
  match Text.split '.' version with
  | [major, minor, patch] =>
      if [major, minor, patch].all fun part => !part.isEmpty && part.toList.all Char.isDigit then
        Text.parseUnsigned 64 major
      else none
  | _ => none

def readRecord (docs : Documents) (bytes : List UInt8) : RecordVerdict :=
  match docs.recordText bytes with
  | none => .unreadable
  | some text =>
      match text.formatVersion with
      | none => .unreadable
      | some version =>
          match majorOf version with
          | none => .unreadable
          | some major =>
              if major ≠ 1 then .unsupportedFormat version
              else
                match text.point with
                | some p => .point p
                | none => .unreadable

def pointsPrefix : String := "logweir/catalog/v1/points/"
def logPrefix : String := "logweir/catalog/v1/log/"
def receiptsPrefix : String := "logweir/backups/"
def receiptSuffix : String := ".receipt.json"
def recordFile : String := "/record.json"

/-- `strip_suffix`. -/
def stripSuffix (end_ s : String) : Option String :=
  if end_.toList.isSuffixOf s.toList then
    some (String.ofList (s.toList.take (s.toList.length - end_.toList.length)))
  else none

def isPointId (id : String) : Bool :=
  match Text.stripPrefix pointIdPrefix id with
  | none => false
  | some hex => hex.toList.length == 32 &&
      hex.toList.all fun b => b.isDigit || (decide ('a' ≤ b) && decide (b ≤ 'f'))

def recordKey (pointId : String) : String := pointsPrefix ++ pointId ++ recordFile

def notKept : List Char := "/\\%?#*\x7b\x7d^`[]\"<>~|".toList

def isPlainKeySegment (segment : String) : Bool :=
  !segment.isEmpty && segment != "." && segment != ".." &&
    segment.toList.all fun b => decide (32 ≤ b.toNat ∧ b.toNat ≤ 126) && !notKept.contains b

def receiptKeyOf (backupId runId : String) : String :=
  receiptsPrefix ++ backupId ++ "/" ++ runId ++ receiptSuffix

def sidecarKeyOf (backupId runId : String) : String :=
  receiptsPrefix ++ backupId ++ "/" ++ runId ++ ".receipt.sig"

def receiptRunId (receiptKey backupId : String) : Option String := do
  if !isPlainKeySegment backupId then none
  let rest ← Text.stripPrefix receiptsPrefix receiptKey
  let rest ← Text.stripPrefix backupId rest
  let rest ← Text.stripPrefix "/" rest
  let runId ← stripSuffix receiptSuffix rest
  if isPlainKeySegment runId && receiptKeyOf backupId runId == receiptKey then some runId
  else none

def receiptSetAndRun (receiptKey : String) : Option (String × String) := do
  let rest ← Text.stripPrefix receiptsPrefix receiptKey
  let (set_, _) ← Text.splitOnce '/' rest
  let runId ← receiptRunId receiptKey set_
  return (set_, runId)

/-- Whether a record names a key that a backup writes a receipt at, and the signature's key
beside it. -/
def namesAReceipt (point : CatalogPoint) : Bool :=
  match receiptSetAndRun point.receipt.key with
  | none => false
  | some (set_, run) => point.receipt.sidecarKey == sidecarKeyOf set_ run

/-- Whether a destination under `pathPrefix` serves a point: its manifest is
`<prefix>/<set>/manifest.json`. -/
def serves (pathPrefix : String) (point : CatalogPoint) : Bool :=
  pathPrefix.isEmpty ||
    match (do
      let rest ← Text.stripPrefix pathPrefix point.archive.manifestKey
      let rest ← Text.stripPrefix "/" rest
      stripSuffix "/manifest.json" rest) with
    | none => false
    | some set_ => !set_.isEmpty && !set_.toList.contains '/'

def pinnableVersionId (answered : Option String) : Option String :=
  match answered.map Text.trim with
  | none => none
  | some id => if id = "" ∨ id = "null" then none else some id

inductive PinVerdict where
  | unpinned
  | current
  | superseded (pinned : String) (current : Option String) (retainedMatches : Bool)
  | unchecked (pinned : String)
  | unreadable (pinned : String) (error : StoreError)
deriving DecidableEq

def judge (crates : Crates) (pin answered : Option String) (attestedSha256 : String)
    (readPinned : String → Except StoreError (List UInt8)) : PinVerdict :=
  match pinnableVersionId pin with
  | none => .unpinned
  | some pinned =>
      let current := pinnableVersionId answered
      if current = some pinned then .current
      else
        match readPinned pinned with
        | .ok bytes =>
            .superseded pinned current (sha256Prefixed crates bytes == attestedSha256)
        | .error (.notFound _) => .unchecked pinned
        | .error (.backend _) => .unchecked pinned
        | .error error => .unreadable pinned error

def PinVerdict.reads : PinVerdict → Nat
  | .unpinned => 0
  | .current => 0
  | .superseded _ _ _ => 1
  | .unchecked _ => 1
  | .unreadable _ _ => 1

inductive DeepCheck where
  | none
  | manifestDigest
  | segmentSample
deriving DecidableEq

inductive SyncMode where
  | index
  | full
deriving DecidableEq

structure Destination where
  name : String
  locationPrefix : String
deriving DecidableEq

structure CatalogSyncRequest where
  mode : SyncMode
  destination : Destination
  viewLimit : Int
  maxObjectsPerRun : Int
  deepCheck : DeepCheck
  rescanStartAfter : Option String
deriving DecidableEq

structure Subject where
  recordKey : String
  pointId : String
deriving DecidableEq

structure Observation where
  availability : Availability
  signature : SignatureVerdict
  signerKeyId : Option String
  point : Option CatalogPoint
  formatVersion : Option String
  superseded : Bool
  pinUnchecked : Bool
  pinUnreadable : Bool
  cause : Option EntryCause
  pointId : String
deriving DecidableEq

def Observation.withoutRecord (subject : Subject) (availability : Availability)
    (cause : EntryCause) : Observation :=
  { availability, signature := .notAttempted, signerKeyId := none, point := none
    formatVersion := none, superseded := false, pinUnchecked := false, pinUnreadable := false
    cause := some cause, pointId := subject.pointId }

structure Found where
  availability : Availability
  signature : SignatureVerdict
  signerKeyId : Option String
  superseded : Bool
  pinUnchecked : Bool
  pinUnreadable : Bool
  cause : Option EntryCause
deriving DecidableEq

def Found.nothing : Found :=
  { availability := .available, signature := .notAttempted, signerKeyId := none
    superseded := false, pinUnchecked := false, pinUnreadable := false, cause := none }

def Found.stopAt (found : Found) (availability : Availability) (cause : EntryCause) : Found :=
  { found with availability, cause := some cause }

def Found.observed (found : Found) (point : CatalogPoint) (subject : Subject) : Observation :=
  { availability := found.availability, signature := found.signature
    signerKeyId := found.signerKeyId, formatVersion := some point.formatVersion
    point := some point, superseded := found.superseded, pinUnchecked := found.pinUnchecked
    pinUnreadable := found.pinUnreadable, cause := found.cause, pointId := subject.pointId }

structure Reading where
  req : CatalogSyncRequest
  access : ObjectAccess
  docs : Documents
  trust : List String

def classifySignature (env : Reading) (point : CatalogPoint) (receiptBytes : List UInt8) :
    SignatureVerdict × Option String :=
  match env.access.get point.receipt.sidecarKey sidecarCap with
  | .error (.notFound _) => (.noEvidence, none)
  | .error _ => (.notAttempted, none)
  | .ok sidecarBytes =>
      match env.docs.sidecar sidecarBytes with
      | none => (.notAttempted, none)
      | some sidecar =>
          let claimed := sidecar.keyIds.head?
          if env.trust.isEmpty then (.notAttempted, claimed)
          else
            match env.trust.filter fun k => sidecar.keyIds.contains k with
            | [] => (.notAttempted, claimed)
            | first :: held =>
                match (first :: held).find? fun key =>
                    env.docs.verifies key receiptBytes sidecar with
                | some key => (.verified, some key)
                | none => (.invalid, some first)

def Found.digested (found : Found) (digestApart pinUnchecked : Bool) : Found :=
  { found with
    availability := if digestApart then .conflict else found.availability
    pinUnchecked }

def Found.judged (found : Found) (digestApart : Bool) : PinVerdict → Found
  | .superseded _ _ _ => { found with availability := .conflict, superseded := true }
  | .unreadable _ _ =>
      { found.stopAt .unreadable (.of .manifest .readFailed) with pinUnreadable := true }
  | .unpinned => found.digested digestApart false
  | .current => found.digested digestApart false
  | .unchecked _ => found.digested digestApart true

def examineManifest (env : Reading) (point : CatalogPoint) (pinnedVersion : Option String)
    (found : Found) : Found × Nat :=
  match env.access.getWithVersion point.archive.manifestKey manifestCap with
  | .error e => (found.stopAt (availabilityOfRead e) (.ofRead .manifest e), 1)
  | .ok (bytes, answered) =>
      let verdict := judge env.docs.crates pinnedVersion answered point.archive.manifestSha256
        fun version => env.access.getVersion point.archive.manifestKey version manifestCap
      let got := sha256Prefixed env.docs.crates bytes
      (found.judged (got != point.archive.manifestSha256) verdict, 1 + verdict.reads)

/-- The receipt, its signature and the manifest of a point this destination serves. -/
def examineReceipt (env : Reading) (point : CatalogPoint) : Found × Nat :=
  match env.access.get point.receipt.key catalogReceiptCap with
  | .error e => (Found.nothing.stopAt (availabilityOfRead e) (.ofRead .receipt e), 1)
  | .ok receiptBytes =>
      match env.docs.receipt receiptBytes with
      | none => (Found.nothing.stopAt .unreadable (.of .receipt .malformed), 1)
      | some receipt =>
          let agrees := crossCheck env.docs.crates point receipt receiptBytes = .agrees
          let signed := classifySignature env point receiptBytes
          let found := { Found.nothing with
            availability := if agrees then .available else .conflict
            signature := signed.1
            signerKeyId := signed.2 }
          if agrees ∧ env.req.deepCheck ≠ .none then
            let (found, spent) :=
              examineManifest env point receipt.archive.manifestVersionId found
            (found, 2 + spent)
          else (found, 2)

/-- One point, and the objects its examination spent. -/
def examine (env : Reading) (subject : Subject) : Observation × Nat :=
  match env.access.get subject.recordKey catalogRecordCap with
  | .error e =>
      (.withoutRecord subject (availabilityOfRead e) (.ofRead .record e), 1)
  | .ok recordBytes =>
      let malformed := Observation.withoutRecord subject .unreadable (.of .record .malformed)
      match readRecord env.docs recordBytes with
      | .unreadable => (malformed, 1)
      | .unsupportedFormat formatVersion =>
          ({ Observation.withoutRecord subject .unsupportedFormat
              (.of .record .unsupportedFormat) with formatVersion := some formatVersion }, 1)
      | .point point =>
          -- A record is a point's only at that point's own key.
          if point.pointId ≠ subject.pointId then (malformed, 1)
          else if ¬ namesAReceipt point then (malformed, 1)
          else if ¬ serves env.req.destination.locationPrefix point then
            ({ malformed with point := some point }, 1)
          else
            let (found, spent) := examineReceipt env point
            (found.observed point subject, 1 + spent)

def servedHere (env : Reading) (observation : Observation) : Bool :=
  match observation.point with
  | none => true
  | some point => serves env.req.destination.locationPrefix point

def objectsPerPoint : Nat := 5

theorem reads_le (verdict : PinVerdict) : verdict.reads ≤ 1 := by
  cases verdict with
  | unpinned => exact Nat.zero_le 1
  | current => exact Nat.zero_le 1
  | superseded pinned current matching => exact Nat.le_refl 1
  | unchecked pinned => exact Nat.le_refl 1
  | unreadable pinned error => exact Nat.le_refl 1

theorem examineManifest_spent (env : Reading) (point : CatalogPoint) (pin : Option String)
    (found : Found) : (examineManifest env point pin found).2 ≤ 2 := by
  unfold examineManifest
  split
  · exact Nat.le_succ 1
  · exact Nat.add_le_add_left (reads_le _) 1

theorem examineReceipt_spent (env : Reading) (point : CatalogPoint) :
    (examineReceipt env point).2 ≤ 4 := by
  unfold examineReceipt
  split
  · exact Nat.le_add_left 1 3
  · split
    · exact Nat.le_add_left 1 3
    · simp only
      split
      · exact Nat.add_le_add_left (examineManifest_spent env point _ _) 2
      · exact Nat.le_add_left 2 2

theorem examine_spent (env : Reading) (subject : Subject) :
    1 ≤ (examine env subject).2 ∧ (examine env subject).2 ≤ objectsPerPoint := by
  have one : 1 ≤ 1 ∧ 1 ≤ objectsPerPoint := ⟨Nat.le_refl 1, by decide⟩
  unfold examine
  split
  · exact one
  · simp only
    split
    · exact one
    · exact one
    · split
      · exact one
      · split
        · exact one
        · split
          · exact one
          · rename_i point _ _ _ _
            exact ⟨Nat.le_add_right 1 _, Nat.add_le_add_left (examineReceipt_spent env point) 1⟩

end Logweir.CatalogSync
