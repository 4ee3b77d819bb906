import Logweir.Inventory.Result
import Logweir.Api.Cursor
import Logweir.Library.Paging

/-!
# Topic pages

`logweir_api::routes::topic_discoveries`: one page of a stored inventory, read
from its chunks under the request's filters, from the start or from a cursor.
-/

set_option autoImplicit false

namespace Logweir.Inventory

open Std Logweir.Text Logweir.Api

def ROUTE_TOPICS : String := "GET /api/v1/workspaces/{ws}/topic-discoveries/{id}/topics"

def DEFAULT_LIMIT : Nat := 50

def MAX_LIMIT : Nat := 200

def MAX_CHUNKS_PER_REQUEST : Nat := 8

inductive InternalFilter where
  | include_
  | exclude
  deriving DecidableEq

inductive ErroredFilter where
  | include_
  | exclude
  | only_
  deriving DecidableEq

structure TopicFilters where
  q : String
  prefix_ : String
  internal : InternalFilter
  errored : ErroredFilter

structure TopicsQuery where
  limit : Option String := none
  cursor : Option String := none
  q : Option String := none
  prefix_ : Option String := none
  internal : Option String := none
  errored : Option String := none

namespace TopicFilters

def internalWord (f : TopicFilters) : String :=
  match f.internal with
  | .include_ => "include"
  | .exclude => "exclude"

def erroredWord (f : TopicFilters) : String :=
  match f.errored with
  | .include_ => "include"
  | .exclude => "exclude"
  | .only_ => "only"

def canonical (f : TopicFilters) (uid topicsSha256 : String) : String :=
  "uid=" ++ uid ++ "&topics=" ++ topicsSha256 ++ "&q=" ++ f.q ++ "&prefix=" ++ f.prefix_ ++
    "&internal=" ++ f.internalWord ++ "&errored=" ++ f.erroredWord

def keeps (toLowercase : String → String) (f : TopicFilters) (entry : TopicEntryView) : Bool :=
  if !f.prefix_.isEmpty && !startsWith entry.name f.prefix_ then false
  else if !f.q.isEmpty && !contains (toLowercase entry.name) f.q then false
  else if f.internal = .exclude ∧ entry.internal then false
  else if f.errored = .exclude ∧ entry.errorCode.isSome then false
  else if f.errored = .only_ ∧ entry.errorCode.isNone then false
  else true

end TopicFilters

def bounded (value : Option String) (field : String) : String × List FieldError :=
  match value with
  | none => ("", [])
  | some value =>
      if 249 < value.utf8ByteSize ∨ value.toList.any isControl then
        ("", [⟨field, "invalid_value", "at most 249 bytes on one line"⟩])
      else (value, [])

def internalFilter : Option String → InternalFilter × List FieldError
  | none => (.exclude, [])
  | some word =>
      if word = "exclude" then (.exclude, [])
      else if word = "include" then (.include_, [])
      else (.exclude, [⟨"internal", "invalid_value", "internal is include or exclude"⟩])

def erroredFilter : Option String → ErroredFilter × List FieldError
  | none => (.include_, [])
  | some word =>
      if word = "include" then (.include_, [])
      else if word = "exclude" then (.exclude, [])
      else if word = "only" then (.only_, [])
      else (.include_, [⟨"errored", "invalid_value", "errored is include, exclude or only"⟩])

def parseFilters (toLowercase : String → String) (query : TopicsQuery) :
    Except ApiError TopicFilters :=
  let q := bounded query.q "q"
  let prefix_ := bounded query.prefix_ "prefix"
  let internal := internalFilter query.internal
  let errored := erroredFilter query.errored
  let errors := q.2 ++ prefix_.2 ++ internal.2 ++ errored.2
  if !errors.isEmpty then .error (.validation errors)
  else
    .ok { q := toLowercase q.1, prefix_ := prefix_.1, internal := internal.1, errored := errored.1 }

def pageLimit (text : Option String) : Except ApiError Nat :=
  match text with
  | none => .ok DEFAULT_LIMIT
  | some text =>
      let refused : ApiError := .validation [⟨"limit", "out_of_range",
        "limit must be an integer from 1 to " ++ toString MAX_LIMIT⟩]
      match parseUnsigned 32 text with
      | some n => if 1 ≤ n ∧ n ≤ MAX_LIMIT then .ok n else .error refused
      | none => .error refused

structure ResultDocument where
  labels : Option (ExtTreeMap String String compare)
  annotations : Option (ExtTreeMap String String compare)
  ownerReferences : Option (List OwnerReference)
  immutable : Option Bool
  data : ExtTreeMap String String compare

def ConfigMap.resultDocument (m : ConfigMap) : ResultDocument where
  labels := m.labels
  annotations := m.annotations
  ownerReferences := m.ownerReferences
  immutable := m.immutable
  data := m.data.getD ∅

def ResultDocument.controllerOwnerUid (d : ResultDocument) : Option String :=
  match d.ownerReferences with
  | some [owner] => if owner.controller = some true then some owner.uid else none
  | _ => none

def ResultDocument.annotation (d : ResultDocument) (key : String) : Option String :=
  d.annotations.bind fun annotations => annotations[key]?

def LABEL_CATALOG_UID : String := "logweir.dev/catalog-uid"

structure TopicDiscovery where
  uid : Option String
  result : Option TopicInventoryResult

structure AppState where
  crates : Crates
  cursorKey : List UInt8
  toLowercase : String → String
  /-- An actor's right to read a workspace's discoveries. -/
  authorize : String → String → Except ApiError Unit
  /-- A workspace's discovery of a name. -/
  discovery : String → String → Except KubeFailure TopicDiscovery
  /-- The `ConfigMap` of a name. -/
  configMap : String → Except KubeFailure ConfigMap

def isDnsLabelPart (part : String) : Bool :=
  let lower (c : Char) : Bool := decide ('a' ≤ c) && decide (c ≤ 'z')
  !part.isEmpty && part.toList.all (fun c => lower c || c.isDigit || c == '-') &&
    (part.toList.head?.any fun c => c.isAlphanum) && part.toList.getLast?.any fun c => c.isAlphanum

def isDnsSubdomain (value : String) : Bool :=
  !value.isEmpty && decide (value.utf8ByteSize ≤ 253) && (Text.split '.' value).all isDnsLabelPart

variable (state : AppState)

def getObject (workspace name : String) : Except ApiError TopicDiscovery :=
  if !isDnsSubdomain name then .error .notFound
  else (state.discovery workspace name).mapError KubeFailure.intoApiError

def getResultDocument (ownerUid name : String) : Except KubeFailure ResultDocument :=
  match state.configMap name with
  | .error failure => .error failure
  | .ok map =>
      let document := map.resultDocument
      let catalogPage := (document.labels.bind fun labels => labels[LABEL_CATALOG_UID]?) = some ownerUid
      if document.controllerOwnerUid = some ownerUid ∨ catalogPage then .ok document
      else .error .notFound

def integrity (why : String) : ApiError where
  code := .resultIntegrityFailed
  detail := "A stored result document failed its integrity check (" ++ why ++ "). The page is " ++
    "refused rather than served from bytes whose provenance did not hold."

def verifyDocument (document : ResultDocument) (expectedSha256 : Option String) :
    Except ApiError Unit :=
  if document.immutable ≠ some true then .error (integrity "it is not immutable")
  else
    match expectedSha256 with
    | none => .error (integrity "the status records no digest for it")
    | some expected =>
        if document.annotation SHA256_ANNOTATION ≠ some expected then
          .error (integrity "its recorded digest is not the one the status indexes")
        else if sha256Prefixed state.crates.sha256
            (String.join (document.data.toList.map Prod.snd)) ≠ expected then
          .error (integrity "its bytes do not hash to its recorded digest")
        else .ok ()

def chunkBody (uid : String) (chunk : InventoryChunk) : Except ApiError String :=
  match getResultDocument state uid chunk.name with
  | .error .notFound =>
      .error { code := .cursorExpired
               detail := "The stored inventory was collected with its discovery; run a new one." }
  | .error other => .error other.intoApiError
  | .ok document =>
      match verifyDocument state document (some chunk.sha256) with
      | .error e => .error e
      | .ok () => .ok ((document.data[CHUNK_KEY]?).getD "")

structure Scan where
  chunkIndex : Nat
  offset : Nat
  items : List TopicEntryView := []
  chunksScanned : Nat := 0
  complete : Bool := true

/-- The loop over a chunk's lines: the rows, the lines consumed, and whether the
page filled. -/
def scanLines (filters : TopicFilters) (limit : Nat) :
    List String → List TopicEntryView → Nat → List TopicEntryView × Nat × Bool
  | [], items, consumed => (items, consumed, false)
  | line :: lines, items, consumed =>
      match parseLine line with
      | none => scanLines filters limit lines items (consumed + 1)
      | some entry =>
          if !filters.keeps state.toLowercase entry then
            scanLines filters limit lines items (consumed + 1)
          else if limit ≤ (items ++ [entry]).length % 2 ^ 32 then
            (items ++ [entry], consumed + 1, true)
          else scanLines filters limit lines (items ++ [entry]) (consumed + 1)

def skipsChunk (filters : TopicFilters) (chunk : InventoryChunk) : Bool :=
  !filters.prefix_.isEmpty &&
    ((chunk.lastName.any fun last => decide (last < filters.prefix_)) ||
      chunk.firstName.any fun first =>
        decide (filters.prefix_ < first) && !startsWith first filters.prefix_)

/-- The loop over the chunks from the scan's position on. -/
def scanChunks (uid : String) (filters : TopicFilters) (limit : Nat) :
    List InventoryChunk → Scan → Except ApiError Scan
  | [], st => .ok st
  | chunk :: chunks, st =>
      if MAX_CHUNKS_PER_REQUEST ≤ st.chunksScanned then .ok { st with complete := false }
      else if skipsChunk filters chunk then
        scanChunks uid filters limit chunks { st with chunkIndex := st.chunkIndex + 1, offset := 0 }
      else
        match chunkBody state uid chunk with
        | .error e => .error e
        | .ok body =>
            let (items, consumed, filled) :=
              scanLines state filters limit ((lines body).drop st.offset) st.items st.offset
            if filled then
              .ok { st with items, offset := consumed, chunksScanned := st.chunksScanned + 1 }
            else
              scanChunks uid filters limit chunks
                { st with items, chunkIndex := st.chunkIndex + 1, offset := 0,
                          chunksScanned := st.chunksScanned + 1 }

structure ScanView where
  complete : Bool
  chunksScanned : Nat
  deriving DecidableEq

structure TopicPage where
  items : List TopicEntryView
  limit : Nat
  nextCursor : Option String
  snapshot : Option String
  scan : ScanView
  deriving DecidableEq

def cursorInvalid : ApiError where
  code := .cursorInvalid
  detail := "The cursor is not valid for this list; restart the list without a cursor."

def openPosition (scope : CursorScope) (cursor : String) (now : DateTime) :
    Except ApiError (Nat × Nat) :=
  match open_ state.crates state.cursorKey scope cursor now with
  | .error .invalid => .error cursorInvalid
  | .error .expired =>
      .error { code := .cursorExpired
               detail := "The cursor expired; restart the list without a cursor." }
  | .ok token =>
      match splitOnce ':' token with
      | none => .error cursorInvalid
      | some (chunk, offset) =>
          match parseUnsigned 64 chunk, parseUnsigned 64 offset with
          | some chunk, some offset => .ok (chunk, offset)
          | _, _ => .error cursorInvalid

def startPosition (scope : CursorScope) (cursor : Option String) (now : DateTime) :
    Except ApiError (Nat × Nat) :=
  match cursor with
  | none => .ok (0, 0)
  | some cursor => openPosition state scope cursor now

def positionToken (chunkIndex offset : Nat) : String := toString chunkIndex ++ ":" ++ toString offset

def topicsScope (actor workspace : String) (filters : TopicFilters) (uid topicsSha256 : String) :
    CursorScope where
  actorId := actor
  route := ROUTE_TOPICS
  workspace
  filters := filters.canonical uid topicsSha256

/-- `GET .../topic-discoveries/{id}/topics`. -/
def topics (actor workspace id : String) (query : TopicsQuery) (now : DateTime) :
    Except ApiError TopicPage := do
  state.authorize actor workspace
  let limit ← pageLimit query.limit
  let filters ← parseFilters state.toLowercase query
  let discovery ← getObject state workspace id
  let uid := discovery.uid.getD ""
  match discovery.result with
  | none =>
      .error { code := .notFound
               detail := "This discovery has produced no inventory to page through." }
  | some result =>
      let topicsSha256 := result.topicsSha256.getD ""
      let chunks := result.chunks.getD []
      let scope := topicsScope actor workspace filters uid topicsSha256
      let (chunkIndex, offset) ← startPosition state scope query.cursor now
      let st ← scanChunks state uid filters limit (chunks.drop chunkIndex) { chunkIndex, offset }
      let exhausted := decide (chunks.length ≤ st.chunkIndex)
      return {
        items := st.items
        limit
        nextCursor :=
          if exhausted then none
          else some (seal_ state.crates state.cursorKey scope
            (positionToken st.chunkIndex st.offset) now)
        snapshot := some (uid ++ "@" ++ topicsSha256)
        scan := { complete := st.complete && exhausted, chunksScanned := st.chunksScanned } }

end Logweir.Inventory
