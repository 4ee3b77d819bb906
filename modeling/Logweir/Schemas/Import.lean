import Logweir.Library.Served
import Logweir.Library.CompactJson
import Logweir.Schemas.Snapshot

/-!
# Classifying and importing a closure

`logweir_core::schema_registry`: the requests a restore sends to the target's registry and
what it makes of the answers.  `classify` and `writable_modes` only ask; `import` sets each
subject to `IMPORT`, registers its versions under their IDs and puts its mode back.
-/

set_option autoImplicit false

namespace Logweir.SchemaRegistry

open Logweir.Json Logweir.Text Logweir.Programs

inductive Request where
  | getById (id : UInt32)
  /-- `POST /subjects/{s}?deleted=true`: the version that holds this content. -/
  | lookUp (subject : String) (body : Content)
  | getVersion (subject : String) (version : UInt32)
  | getVersions (subject : String)
  | getMode
  | getModeOf (subject : String)
  | putMode (subject mode : String)
  | deleteMode (subject : String)
  | register (subject : String) (body : Content) (id version : UInt32)
deriving DecidableEq

def encodeByte (b : UInt8) : List Char :=
  let upper (n : Nat) : Char := if n < 10 then Char.ofNat (48 + n) else Char.ofNat (55 + n)
  let c := Char.ofNat b.toNat
  if b.toNat < 128 && (c.isAlphanum || c = '-' || c = '.' || c = '_' || c = '~') then [c]
  else ['%', upper (b.toNat / 16), upper (b.toNat % 16)]

def encode (subject : String) : String :=
  String.ofList ((utf8 subject.toList).flatMap encodeByte)

def Request.method : Request → String
  | .lookUp _ _ => "POST"
  | .register _ _ _ _ => "POST"
  | .putMode _ _ => "PUT"
  | .deleteMode _ => "DELETE"
  | _ => "GET"

def Request.path : Request → String
  | .getById id => "/schemas/ids/" ++ toString id
  | .lookUp subject _ => "/subjects/" ++ encode subject ++ "?deleted=true"
  | .getVersion subject version =>
      "/subjects/" ++ encode subject ++ "/versions/" ++ toString version ++ "?deleted=true"
  | .getVersions subject => "/subjects/" ++ encode subject ++ "/versions?deleted=true"
  | .getMode => "/mode"
  | .getModeOf subject => "/mode/" ++ encode subject
  | .putMode subject _ => "/mode/" ++ encode subject ++ "?force=true"
  | .deleteMode subject => "/mode/" ++ encode subject
  | .register subject _ _ _ => "/subjects/" ++ encode subject ++ "/versions"

def Request.reads : Request → Bool
  | .putMode _ _ => false
  | .deleteMode _ => false
  | .register _ _ _ _ => false
  | _ => true

abbrev Answer : Request → Type := fun _ => Except String (Nat × Json)

def SCHEMA_CONFLICT : String := "SchemaConflict"
def CANNOT_KEEP_IDS : String := "SchemaRegistryCannotKeepIds"
def UNREACHABLE : String := "SchemaRegistryUnreachable"
def READ_ONLY : String := "SchemaRegistryReadOnly"
def MODE_NOT_RESTORED : String := "SchemaRegistryModeNotRestored"

inductive ImportRefusal where
  | conflict (subject : String) (version id : UInt32) (detail : String)
  | cannotKeepIds (subject detail : String)
  | unreachable (why : String)
  | readOnly (subject mode : String)
  | modeNotRestored (detail : String) (after : Option ImportRefusal)

def ImportRefusal.reason : ImportRefusal → String
  | .conflict _ _ _ _ => SCHEMA_CONFLICT
  | .cannotKeepIds _ _ => CANNOT_KEEP_IDS
  | .unreachable _ => UNREACHABLE
  | .readOnly _ _ => READ_ONLY
  | .modeNotRestored _ _ => MODE_NOT_RESTORED

def ImportRefusal.text : ImportRefusal → String
  | .conflict subject version id detail =>
      SCHEMA_CONFLICT ++ ": the target registry holds subject " ++ debug subject ++ " version " ++
        toString version ++ " or schema ID " ++ toString id ++ " with other content (" ++ detail ++
        "); restored records would decode against the wrong schema, so nothing was written and " ++
        "no topic was created. Restore into a registry that holds none of these schemas, or the " ++
        "source's own"
  | .cannotKeepIds subject detail =>
      CANNOT_KEEP_IDS ++ ": the target registry cannot register subject " ++ debug subject ++
        "'s schemas under their source IDs (" ++ detail ++ "); Logweir never rewrites record " ++
        "bytes, so the restore is refused before any topic is created. Use a registry with " ++
        "IMPORT mode (Confluent Schema Registry, Redpanda)"
  | .unreachable why =>
      UNREACHABLE ++ ": the target registry did not answer (" ++ why ++ "); no topic was created"
  | .readOnly subject mode =>
      READ_ONLY ++ ": the target registry's subject " ++ debug subject ++ " is " ++ mode ++
        ", so no schema was written and no topic was created; Logweir does not override a " ++
        "registry's read-only mode. Lift it, or restore into another registry"
  | .modeNotRestored detail after =>
      MODE_NOT_RESTORED ++ ": " ++ detail ++ "; set it back by hand. No topic was created" ++
        match after with
        | none => ""
        | some first => ". The import had stopped first: " ++ first.text

abbrev Pass := Program Request Answer ImportRefusal

def jsonText (body : Json) : String := String.ofList (compact body)

def field (name : String) : Json → Option Json
  | .obj members => members.lookup name
  | _ => none

def asU64 : Json → Option Nat
  | .num n => if 0 ≤ n ∧ n < 18446744073709551616 then some n.toNat else none
  | _ => none

def asStr : Json → Option String
  | .str s => some s
  | _ => none

def errorCode (body : Json) : Option Nat := (field "error_code" body).bind asU64

def SUBJECT_NOT_FOUND : Nat := 40401
def VERSION_NOT_FOUND : Nat := 40402
def SCHEMA_NOT_FOUND : Nat := 40403
def NO_SUBJECT_MODE : Nat := 40409

def transport (request : Request) (answer : Except String (Nat × Json)) :
    Except ImportRefusal (Nat × Json) :=
  match answer with
  | .error e => .error (.unreachable e)
  | .ok (status, body) =>
      if status = 401 ∨ status = 403 then
        .error (.unreachable (request.method ++ " " ++ request.path ++ " answered " ++
          toString status ++ ": the registry refused the connection's registry credential"))
      else if 500 ≤ status then
        .error (.unreachable (request.method ++ " " ++ request.path ++ " answered " ++
          toString status))
      else .ok (status, body)

def orStop {α : Type} : Except ImportRefusal α → Pass α
  | .ok a => pure a
  | .error e => .stop e

def send (request : Request) : Pass (Nat × Json) := do
  let answer ← (Program.call request : Pass (Except String (Nat × Json)))
  orStop (transport request answer)

inductive Class where
  /-- This ID with this schema, under this subject and version. -/
  | present
  /-- Neither the ID nor the subject-version. -/
  | import_
deriving DecidableEq

def conflict (v : SnapshotVersion) (detail : String) : ImportRefusal :=
  .conflict v.subject v.version v.id detail

def heldClass (v : SnapshotVersion) (status : Nat) (look : Json) : Except ImportRefusal Class :=
  if status = 200 ∧ (field "id" look).bind asU64 = some v.id.toNat ∧
      (field "version" look).bind asU64 = some v.version.toNat then .ok .present
  else .error (conflict v ("the target holds ID " ++ toString v.id ++
    " for another schema or subject-version"))

def absentClass (v : SnapshotVersion) (status : Nat) (body : Json) : Except ImportRefusal Class :=
  if status = 404 ∧ (errorCode body = some SUBJECT_NOT_FOUND ∨
      errorCode body = some VERSION_NOT_FOUND) then .ok .import_
  else .error (conflict v ("the target holds version " ++ toString v.version ++
    " of the subject under another ID, or answered " ++ toString status ++ " " ++ jsonText body))

def classifyOne (v : SnapshotVersion) : Pass Class := do
  let (status, body) ← send (.getById v.id)
  if status = 200 then
    let (status, look) ← send (.lookUp v.subject v.content)
    orStop (heldClass v status look)
  else if status = 404 ∧ errorCode body = some SCHEMA_NOT_FOUND then
    let (status, body) ← send (.getVersion v.subject v.version)
    orStop (absentClass v status body)
  else
    .stop (conflict v ("GET " ++ (Request.getById v.id).path ++ " answered " ++ toString status ++
      " " ++ jsonText body))

def classifyEach : List SnapshotVersion → Pass (List Class)
  | [] => pure []
  | v :: entries => do
      let c ← classifyOne v
      let classes ← classifyEach entries
      pure (c :: classes)

/-- `serde_json::from_value::<Vec<u32>>`. -/
def versionList : Json → Option (List Nat)
  | .arr items => items.mapM fun item => (asU64 item).filter fun n => n < 4294967296
  | _ => none

def heldVersions (first : SnapshotVersion) (versions : List Nat) (status : Nat) (held : Json) :
    Except ImportRefusal Unit :=
  if status = 404 ∧ errorCode held = some SUBJECT_NOT_FOUND then .ok ()
  else
    match if status = 200 then versionList held else none with
    | none =>
        .error (conflict first ("GET " ++ (Request.getVersions first.subject).path ++ " answered " ++
          toString status ++ " " ++ jsonText held ++ ", not a list of versions"))
    | some held =>
        match held.find? fun h => h ∉ versions with
        | some extra =>
            .error (conflict first ("the target's subject holds version " ++ toString extra ++
              ", which the snapshot does not"))
        | none => .ok ()

def subjectsOf (entries : List SnapshotVersion) : List String :=
  entries.foldl (fun subjects v => insertSubject v.subject subjects) []

def checkSubject (entries : List SnapshotVersion) (subject : String) : Pass Unit := do
  let (status, held) ← send (.getVersions subject)
  match entries.find? fun v => v.subject = subject with
  | none => pure ()
  | some first =>
      orStop (heldVersions first ((entries.filter fun v => v.subject = subject).map
        fun v => v.version.toNat) status held)

def checkSubjects (entries : List SnapshotVersion) : List String → Pass Unit
  | [] => pure ()
  | subject :: subjects => do
      checkSubject entries subject
      checkSubjects entries subjects

def classify (entries : List SnapshotVersion) : Pass (List Class) := do
  let classes ← classifyEach entries
  checkSubjects entries (subjectsOf entries)
  pure classes

def modeOf (body : Json) : Option String := (field "mode" body).bind asStr

def ownMode (subject : String) : Pass (Option String) := do
  let request := Request.getModeOf subject
  let (status, mode) ← send request
  if status = 200 then
    match modeOf mode with
    | some m => pure (some m)
    | none =>
        .stop (.cannotKeepIds subject ("GET " ++ request.path ++ " answered 200 without a mode"))
  else if status = 404 ∧ (errorCode mode = some NO_SUBJECT_MODE ∨
      errorCode mode = some SUBJECT_NOT_FOUND) then pure none
  else
    .stop (.cannotKeepIds subject ("GET " ++ request.path ++ " answered " ++ toString status ++
      " " ++ jsonText mode))

def succeeded (status : Nat) : Bool := 200 ≤ status && status < 300

def notPutBack (subject : String) (before : Option String) (why : String) : String :=
  "subject " ++ debug subject ++ "'s mode could not be put back to " ++
    before.getD "the registry's default" ++ " (" ++ why ++ ")"

def restoreMode (subject : String) (before : Option String) : Pass (Except String Unit) := do
  let request := match before with
    | some mode => Request.putMode subject mode
    | none => Request.deleteMode subject
  match ← (Program.call request : Pass (Except String (Nat × Json))) with
  | .ok (status, body) =>
      if succeeded status then pure (.ok ())
      else
        pure (.error (notPutBack subject before ("answered " ++ toString status ++ " " ++
          jsonText body)))
  | .error e => pure (.error (notPutBack subject before e))

def readOnly (mode : String) : Bool := mode = "READONLY" || mode = "READONLY_OVERRIDE"

def writableEach (globalMode : String) : List String → Pass (List (String × Option String))
  | [] => pure []
  | subject :: subjects => do
      let own ← ownMode subject
      let mode := own.getD globalMode
      if readOnly mode then .stop (.readOnly subject mode)
      else do
        let rest ← writableEach globalMode subjects
        pure ((subject, own) :: rest)

def writableModes : List String → Pass (List (String × Option String))
  | [] => pure []
  | first :: subjects => do
      let (status, body) ← send .getMode
      match if status = 200 then modeOf body else none with
      | none =>
          .stop (.cannotKeepIds first ("GET /mode answered " ++ toString status ++ " " ++
            jsonText body ++ ", not a mode"))
      | some globalMode => writableEach globalMode (first :: subjects)

structure ImportedVersion where
  subject : String
  version : UInt32
  id : UInt32
deriving DecidableEq

structure ImportReport where
  imported : List ImportedVersion
  alreadyPresent : Nat
deriving DecidableEq

def SnapshotVersion.imported (v : SnapshotVersion) : ImportedVersion := ⟨v.subject, v.version, v.id⟩

structure Importing where
  imported : List ImportedVersion
  importing : List String
  notRestored : List String

def openSubject (v : SnapshotVersion) : Pass Unit := do
  let (status, _) ← send (.putMode v.subject "IMPORT")
  if !succeeded status then
    .stop (.cannotKeepIds v.subject ("PUT /mode answered " ++ toString status))
  else do
    let (status, mode) ← send (.getModeOf v.subject)
    if status ≠ 200 ∨ modeOf mode ≠ some "IMPORT" then
      .stop (.cannotKeepIds v.subject ("GET /mode answered " ++ toString status ++ " " ++
        jsonText mode ++ ", not IMPORT"))
    else pure ()

def registerVersion (v : SnapshotVersion) : Pass Unit := do
  let (status, answer) ← send (.register v.subject v.content v.id v.version)
  if status ≠ 200 ∨ (field "id" answer).bind asU64 ≠ some v.id.toNat then
    .stop (.cannotKeepIds v.subject ("registering version " ++ toString v.version ++ " with ID " ++
      toString v.id ++ " answered " ++ toString status ++ " " ++ jsonText answer))
  else pure ()

def importsLater (subject : String) (rest : List (SnapshotVersion × Class)) : Bool :=
  rest.any fun e => e.2 = .import_ && e.1.subject = subject

def importEntry (v : SnapshotVersion) (opened : Bool) : Pass Unit := do
  if !opened then openSubject v
  registerVersion v

/-- The entries in order, until one is refused. -/
def importEntries (before : String → Option String) :
    List (SnapshotVersion × Class) → Importing → Pass (Importing × Except ImportRefusal Unit)
  | [], st => pure (st, .ok ())
  | (v, c) :: rest, st =>
      if c ≠ .import_ then importEntries before rest st
      else do
        let opened := decide (v.subject ∈ st.importing)
        let st := if opened then st
          else { st with importing := insertSubject v.subject st.importing }
        match ← ((importEntry v opened).attempt : Pass (Except ImportRefusal Unit)) with
        | .error e => pure (st, .error e)
        | .ok () =>
            let st := { st with imported := st.imported ++ [v.imported] }
            if importsLater v.subject rest then importEntries before rest st
            else do
              let st := { st with importing := st.importing.erase v.subject }
              match ← restoreMode v.subject (before v.subject) with
              | .ok () => importEntries before rest st
              | .error why =>
                  importEntries before rest { st with notRestored := st.notRestored ++ [why] }

def restoreEach (before : String → Option String) : List String → List String → Pass (List String)
  | [], notRestored => pure notRestored
  | subject :: subjects, notRestored => do
      match ← restoreMode subject (before subject) with
      | .ok () => restoreEach before subjects notRestored
      | .error why => restoreEach before subjects (notRestored ++ [why])

def joined (reasons : List String) : String := String.intercalate "; " reasons

def concluded (report : ImportReport) (result : Except ImportRefusal Unit)
    (notRestored : List String) : Except ImportRefusal ImportReport :=
  match result, notRestored with
  | .ok (), [] => .ok report
  | .ok (), reasons => .error (.modeNotRestored (joined reasons) none)
  | .error e, [] => .error e
  | .error e, reasons => .error (.modeNotRestored (joined reasons) (some e))

def toImport (entries : List (SnapshotVersion × Class)) : List SnapshotVersion :=
  (entries.filter fun e => e.2 = .import_).map Prod.fst

def import_ (entries : List SnapshotVersion) (classes : List Class) : Pass ImportReport := do
  let pairs := entries.zip classes
  let alreadyPresent := pairs.countP fun e => e.2 ≠ .import_
  if toImport pairs = [] then pure ⟨[], alreadyPresent⟩
  else do
    let modes ← writableModes (subjectsOf (toImport pairs))
    let before (subject : String) : Option String := (modes.lookup subject).join
    let (st, result) ← importEntries before pairs ⟨[], [], []⟩
    let notRestored ← restoreEach before st.importing st.notRestored
    orStop (concluded ⟨st.imported, alreadyPresent⟩ result notRestored)

end Logweir.SchemaRegistry
