import Logweir.Library.Programs
import Logweir.Library.CompactJson
import Logweir.CatalogSync.Examine

/-!
# The execution claim

`backup::phase_run`: what stands between a backup run and its engine.  `claim_execution`
puts the claim object create-only and puts it again to prove that the store refuses the
second; `refuse_an_existing_set` reads the archive for a set that is there already.  The
calls are those `object_store` makes for the two handles, each answered in any way a
store can answer it.
-/

set_option autoImplicit false

namespace Logweir.Backup

open Logweir.Json Logweir.Text Logweir.Programs
open Logweir.CatalogSync (StoreError OverCap)

abbrev Location := List String

inductive CreateAnswer where
  | created (version : Option String)
  | alreadyExists
  | notSupported
  | notImplemented
  /-- `dropped`: a connection that ended without an answer, of a kind `object_store` does
  not re-send; `fast`: it did so inside `EVIDENCE_PUT_FAST_FAILURE`. -/
  | failed (dropped fast : Bool) (text : String)
deriving DecidableEq

inductive PutAnswer where
  | stored (version : Option String)
  | failed (text : String)
deriving DecidableEq

inductive HeadAnswer where
  | present
  | missing
  | failed (text : String)
deriving DecidableEq

inductive GetAnswer where
  /-- The size reported, then the body chunk by chunk, a chunk of an error ending it. -/
  | object (reported : Nat) (body : List (Except String (List UInt8))) (version : Option String)
  /-- A 404, about the object or (`credential`) about the credential. -/
  | missing (credential : Bool) (text : String)
  | failed (text : String)

inductive Call where
  | createObject (at_ : Location) (bytes : List UInt8)
  | putObject (at_ : Location) (bytes : List UInt8)
  | headObject (at_ : Location)
  | getEvidence (at_ : Location)
  | listArchive (under : Location)
  | getArchive (at_ : Location)
deriving DecidableEq

def Call.Answer : Call → Type
  | .createObject _ _ => CreateAnswer
  | .putObject _ _ => PutAnswer
  | .headObject _ => HeadAnswer
  | .getEvidence _ => GetAnswer
  | .listArchive _ => Except String (List Location)
  | .getArchive _ => GetAnswer

inductive StoreErrorClass where
  | accessDenied
  | invalidCredentials
  | bucketNotFound
  | objectNotFound
  | endpointUnreachable
  | tlsTrustFailed
  | regionMismatch
  | timeout
  | storeErrorUnclassified
deriving DecidableEq

/-- How `object_store` spells a part of a key, how a failure's text is classified, and how
a time is written. -/
structure External where
  part : String → String
  classifyText : String → StoreErrorClass
  statusIn : String → Option Nat
  rfc3339 : Int → String

inductive Ending where
  | operational (message : String)
  | lock (message : String)
  | executionClaimed (message : String)
  | panicked (message : String)
deriving DecidableEq

abbrev Pass := Program Call Call.Answer Ending

def Pass.create (at_ : Location) (bytes : List UInt8) : Pass CreateAnswer :=
  Program.call (Call.createObject at_ bytes)

def Pass.put (at_ : Location) (bytes : List UInt8) : Pass PutAnswer :=
  Program.call (Call.putObject at_ bytes)

def Pass.head (at_ : Location) : Pass HeadAnswer := Program.call (Call.headObject at_)

def Pass.readBack (at_ : Location) : Pass GetAnswer := Program.call (Call.getEvidence at_)

def Pass.list (under : Location) : Pass (Except String (List Location)) :=
  Program.call (Call.listArchive under)

def Pass.get (at_ : Location) : Pass GetAnswer := Program.call (Call.getArchive at_)

variable (E : External)

def External.location (key : String) : Location :=
  ((split '/' key).filter fun part => !part.isEmpty).map E.part

def Location.toKey (at_ : Location) : String := String.intercalate "/" at_

def overCapText : OverCap → String
  | .reported size => "the store reports " ++ toString size ++ " bytes"
  | .streamed reported read =>
      "the store reported " ++ toString reported ++ " bytes and streamed at least " ++
        toString read ++ " before reading stopped"

def storeErrorText : StoreError → String
  | .alreadyExists key => "object already exists at " ++ key ++ " — refusing to overwrite evidence"
  | .notFound key => "object not found at " ++ key
  | .io message => "storage: " ++ message
  | .backend message => "unsupported storage backend `" ++ message ++ "`"
  | .readOnly key => "store is read-only — refusing to put " ++ key
  | .notAManifest key why => key ++ " is not a backup manifest: " ++ why
  | .tooLarge key cap observed =>
      key ++ " is larger than the " ++ toString cap ++ "-byte read cap (" ++ overCapText observed ++
        "); nothing past the cap was read"

def readChunks (key : String) (cap reported : Nat) :
    List UInt8 → List (Except String (List UInt8)) → Except StoreError (List UInt8)
  | out, [] => .ok out
  | _, .error e :: _ => .error (.io (key ++ ": " ++ e))
  | out, .ok chunk :: body =>
      if cap < out.length + chunk.length then
        .error (.tooLarge key cap (.streamed reported (out.length + chunk.length)))
      else readChunks key cap reported (out ++ chunk) body

def readCapped (key : String) (cap : Nat) : GetAnswer → Except StoreError (List UInt8 × Option String)
  | .missing credential text =>
      if credential then .error (.io (key ++ ": " ++ text)) else .error (.notFound key)
  | .failed text => .error (.io (key ++ ": " ++ text))
  | .object reported body version =>
      if cap < reported then .error (.tooLarge key cap (.reported reported))
      else (readChunks key cap reported [] body).map fun bytes => (bytes, version)

def pageKey (startAfter : Option String) (max : Nat) (walk : List String × Bool) (key : String) :
    List String × Bool :=
  let insert (page : List String) : List String :=
    page.takeWhile (fun k => decide (k < key)) ++ key :: page.dropWhile (fun k => decide (k < key))
  if startAfter.any fun after => decide (key ≤ after) then walk
  else if walk.1.length = max then
    if walk.1.getLast?.any fun last => decide (last ≤ key) then (walk.1, true)
    else (insert walk.1.dropLast, true)
  else (insert walk.1, walk.2)

def pageOf (startAfter : Option String) (max : Nat) (listed : List Location) :
    List String × Option String :=
  let walk := (listed.map Location.toKey).foldl (pageKey startAfter max) ([], false)
  (walk.1, if walk.2 then walk.1.getLast? else none)

def listPage (under : String) (startAfter : Option String) (max : Nat) :
    Pass (Except StoreError (List String)) := do
  if max = 0 then pure (.ok [])
  else
    match ← Pass.list (E.location under) with
    | .ok listed => pure (.ok (pageOf startAfter max listed).1)
    | .error text => pure (.error (.io ("operational: " ++ text)))

def getCapped (key : String) (cap : Nat) : Pass (Except StoreError (List UInt8 × Option String)) := do
  let answer ← Pass.get (E.location key)
  pure (readCapped key cap answer)

def EVIDENCE_PUT_RETRIES : Nat := 3

def LOGWEIR_ROOT : String := "logweir/"

structure Handle where
  prefix_ : String
  conditionalPut : Bool
  readOnly : Bool
deriving DecidableEq

structure PutOutcome where
  versionId : Option String
  createOnlyEnforced : Bool

/-- What the answer that ends the re-sends means; `none` falls back to HEAD-then-PUT.  A
create that was sent `again` may meet the object its own lost attempt stored. -/
def settle (key : String) (bytes : List UInt8) (again : Bool) :
    CreateAnswer → Pass (Option (Except StoreError PutOutcome))
  | .created version => pure (some (.ok ⟨version, true⟩))
  | .alreadyExists =>
      if again then do
        let answer ← Pass.readBack (E.location key)
        match readCapped key bytes.length answer with
        | .ok (found, version) =>
            if found = bytes then pure (some (.ok ⟨version, true⟩))
            else pure (some (.error (.alreadyExists key)))
        | .error (.tooLarge _ _ _) => pure (some (.error (.alreadyExists key)))
        | .error e =>
            pure (some (.error (.io (key ++ ": a create retried after an unanswered attempt found " ++
              "the key taken, and reading it back to compare failed: " ++ storeErrorText e))))
      else pure (some (.error (.alreadyExists key)))
  | .notSupported => pure none
  | .notImplemented => pure none
  | .failed _ _ text => pure (some (.error (.io text)))

def createAttempts (key : String) (bytes : List UInt8) :
    Nat → Bool → Pass (Option (Except StoreError PutOutcome))
  | 0, again => do
      let answer ← Pass.create (E.location key) bytes
      settle E key bytes again answer
  | left + 1, again => do
      match ← Pass.create (E.location key) bytes with
      | .failed true true _ => createAttempts key bytes left true
      | answer => settle E key bytes again answer

def headThenPut (key : String) (bytes : List UInt8) : Pass (Except StoreError PutOutcome) := do
  match ← Pass.head (E.location key) with
  | .present => pure (.error (.alreadyExists key))
  | _ =>
      match ← Pass.put (E.location key) bytes with
      | .stored version => pure (.ok ⟨version, false⟩)
      | .failed text => pure (.error (.io text))

def putCreateOnly (handle : Handle) (key : String) (bytes : List UInt8) :
    Pass (Except StoreError PutOutcome) := do
  if handle.readOnly then pure (.error (.readOnly key))
  else if !startsWith key LOGWEIR_ROOT then
    .stop (.panicked ("Global Constraint 6: logweir writes only under `" ++ LOGWEIR_ROOT ++
      "`, got `" ++ key ++ "`"))
  else if !startsWith key handle.prefix_ then
    .stop (.panicked ("key `" ++ key ++ "` escapes this store's configured prefix `" ++
      handle.prefix_ ++ "`"))
  else if handle.conditionalPut then
    match ← createAttempts E key bytes EVIDENCE_PUT_RETRIES false with
    | some put => pure put
    | none => headThenPut E key bytes
  else headThenPut E key bytes

def EXECUTION_ALREADY_CLAIMED : String := "ExecutionAlreadyClaimed"
def EXECUTION_CLAIM_UNPROVEN : String := "ExecutionClaimUnproven"

def claimKey (backupId : String) : String :=
  "logweir/backups/" ++ backupId ++ "/execution.claim.json"

def claimDocument (backupId runId : String) (claimedAt : Int) : Json :=
  .obj [("format_version", .str "1.0.0"), ("backup_id", .str backupId), ("run_id", .str runId),
    ("claimed_at", .str (E.rfc3339 claimedAt))]

def claimBytes (backupId runId : String) (claimedAt : Int) : List UInt8 :=
  toDeterministicJson (claimDocument E backupId runId claimedAt)

def claimUnproven (backupId why : String) : Ending :=
  .lock (EXECUTION_CLAIM_UNPROVEN ++ ": execution `" ++ backupId ++
    "` could not be claimed exclusively at " ++ claimKey backupId ++ ": " ++ why ++
    ". A claim the store does not enforce cannot stop a second run of this execution from " ++
    "overwriting the manifest an earlier signed receipt attests, so NO engine run was started " ++
    "and nothing was signed. Use an evidence store that honours conditional create " ++
    "(`If-None-Match: *`) and grant `s3:PutObject` on `logweir/*`.")

def alreadyClaimed (backupId : String) : Ending :=
  .executionClaimed (EXECUTION_ALREADY_CLAIMED ++ ": execution `" ++ backupId ++
    "` was already claimed by an earlier run (" ++ claimKey backupId ++ " exists). That run " ++
    "reached the engine; a second engine run would overwrite the manifest its receipt attests, " ++
    "so NO engine run was started and nothing was signed. Retry under a new execution id (a new " ++
    "Backup).")

def takeClaim (backupId : String) (bytes : List UInt8) (evidence : Handle) : Pass Unit := do
  match ← putCreateOnly E evidence (claimKey backupId) bytes with
  | .ok put =>
      if put.createOnlyEnforced then pure ()
      else .stop (claimUnproven backupId ("the store does not implement conditional put, so the " ++
        "create fell back to HEAD-then-PUT, which is not exclusive"))
  | .error (.alreadyExists _) => .stop (alreadyClaimed backupId)
  | .error e => .stop (claimUnproven backupId ("the put was refused: " ++ storeErrorText e))

def probeClaim (backupId : String) (bytes : List UInt8) (evidence : Handle) : Pass Unit := do
  match ← putCreateOnly E evidence (claimKey backupId) bytes with
  | .error (.alreadyExists _) => pure ()
  | .ok _ =>
      .stop (claimUnproven backupId ("a second create-only put of the same key SUCCEEDED, so " ++
        "this store ignores `If-None-Match: *`"))
  | .error e =>
      .stop (claimUnproven backupId ("the exclusivity probe (a second create of the same key) " ++
        "failed: " ++ storeErrorText e))

def claimExecution (backupId runId : String) (claimedAt : Int) (evidence : Handle) :
    Pass String := do
  let bytes := claimBytes E backupId runId claimedAt
  takeClaim E backupId bytes evidence
  probeClaim E backupId bytes evidence
  pure (claimKey backupId)

def PROBE : Nat := 0

def StoreErrorClass.classify : StoreError → StoreErrorClass
  | .notFound _ => .objectNotFound
  | .alreadyExists _ => .storeErrorUnclassified
  | .readOnly _ => .storeErrorUnclassified
  | .notAManifest _ _ => .storeErrorUnclassified
  | .tooLarge _ _ _ => .storeErrorUnclassified
  | .backend message => E.classifyText message
  | .io message => E.classifyText message

def answeredStatus : StoreError → Option Nat
  | .backend message => E.statusIn message
  | .io message => E.statusIn message
  | _ => none

def aRetryCanChange (e : StoreError) : Bool :=
  match StoreErrorClass.classify E e with
  | .endpointUnreachable => true
  | .timeout => true
  | .storeErrorUnclassified =>
      (answeredStatus E e).any fun status => status = 429 || (500 ≤ status && status ≤ 599)
  | .accessDenied => false
  | .invalidCredentials => false
  | .bucketNotFound => false
  | .objectNotFound => false
  | .regionMismatch => false
  | .tlsTrustFailed => false

/-- `trim_end_matches('/')`. -/
def trimEndSlashes (s : String) : String :=
  String.ofList (s.toList.reverse.dropWhile fun c => c = '/').reverse

def setDirectory (storagePrefix backupId : String) : String :=
  let root := trimEndSlashes storagePrefix
  if root.isEmpty then backupId ++ "/" else root ++ "/" ++ backupId ++ "/"

def segmentsKey (storagePrefix backupId : String) : String :=
  setDirectory storagePrefix backupId ++ "topics/"

def manifestKey (storagePrefix backupId : String) : String :=
  setDirectory storagePrefix backupId ++ "manifest.json"

def setUnproven (backupId what : String) (e : StoreError) : Ending :=
  if aRetryCanChange E e then
    .operational ("execution `" ++ backupId ++ "`: " ++ what ++ " could not be read to prove the " ++
      "backup set is new: " ++ storeErrorText e ++ ". The failure is transient (a transport " ++
      "error, a timeout or a 5xx), so NO engine run was started and nothing was signed, and the " ++
      "run ends exit 1: a schedule with `spec.retry` retries it under a NEW execution id. This " ++
      "execution's claim is taken, so a manual retry needs a new execution id too (a new Backup, " ++
      "or a fresh `--backup-id-override`).")
  else
    .lock (EXECUTION_CLAIM_UNPROVEN ++ ": execution `" ++ backupId ++ "`: " ++ what ++ " could not " ++
      "be read to prove the backup set is new: " ++ storeErrorText e ++ ". An existing set would " ++
      "be rewritten by the engine, so NO engine run was started and nothing was signed. Grant " ++
      "`s3:ListBucket` and `s3:GetObject` on the archive prefix (or fix the bucket, region or CA " ++
      "the error names), then run again under a new execution id (a new Backup): this " ++
      "execution's claim is taken.")

def setExists (backupId key : String) : Ending :=
  .executionClaimed (EXECUTION_ALREADY_CLAIMED ++ ": execution `" ++ backupId ++ "`'s backup set " ++
    "already exists in the archive (" ++ key ++ " is in it) although it carries no execution " ++
    "claim this run could see — an earlier run of this backup_id, by a build without the claim, " ++
    "wrote it. A second engine run would rewrite that run's segments in place, and its signed " ++
    "receipt would no longer describe the archive, so NO engine run was started and nothing was " ++
    "signed. Retry under a new execution id (a new Backup).")

def findSegment (backupId storagePrefix : String) : Pass (Option String) := do
  let segments := segmentsKey storagePrefix backupId
  match ← listPage E segments none 1 with
  | .ok keys => pure keys.head?
  | .error e => .stop (setUnproven E backupId segments e)

def findManifest (backupId storagePrefix : String) : Pass (Option String) := do
  let manifest := manifestKey storagePrefix backupId
  match ← getCapped E manifest PROBE with
  | .ok _ => pure (some manifest)
  | .error (.tooLarge _ _ _) => pure (some manifest)
  | .error (.notFound _) => pure none
  | .error e => .stop (setUnproven E backupId manifest e)

def refuseAnExistingSet (backupId storagePrefix : String) : Pass Unit := do
  match ← findSegment E backupId storagePrefix with
  | some segment => .stop (setExists backupId segment)
  | none =>
      match ← findManifest E backupId storagePrefix with
      | some manifest => .stop (setExists backupId manifest)
      | none => pure ()

structure Start where
  runId : String
  claimedAt : Int
  evidence : Handle

def admitEngine (backupId storagePrefix : String) (start : Start) : Pass Unit := do
  let _ ← claimExecution E backupId start.runId start.claimedAt start.evidence
  refuseAnExistingSet E backupId storagePrefix

end Logweir.Backup
