import Std.Data.TreeMap
import Logweir.Library.Calendar
import Logweir.Core.Redaction
import Logweir.CatalogSync.Examine

/-!
# Walking the durable catalog

`logweir::check::kinds::catalog_sync`: an `Index` walk over the day shards of the log,
newest first, and a `Full` rescan over the record keys.  A walk spends objects against a
budget and a clock, examines a point whole or not at all, and says why it ended.
-/

set_option autoImplicit false

namespace Logweir.CatalogSync

open Logweir.Catalog Logweir.Calendar

def maxShardsPerSync : Nat := 3660
def archiveFloorPageKeys : Nat := 8
def shardPageKeys : Nat := 1000
def rescanPageKeys : Nat := 1000

structure SignatureCounts where
  verified : Nat
  invalid : Nat
  noEvidence : Nat
  notAttempted : Nat
deriving DecidableEq

structure CatalogCounts where
  total : Nat
  available : Nat
  missing : Nat
  unreadable : Nat
  deleted : Nat
  conflict : Nat
  unsupportedFormat : Nat
  partly : Nat
  signature : SignatureCounts
  unreadableOverReadCap : Nat
  unreadableMalformed : Nat
deriving DecidableEq

def CatalogCounts.zero : CatalogCounts :=
  { total := 0, available := 0, missing := 0, unreadable := 0, deleted := 0, conflict := 0
    unsupportedFormat := 0, partly := 0
    signature := { verified := 0, invalid := 0, noEvidence := 0, notAttempted := 0 }
    unreadableOverReadCap := 0, unreadableMalformed := 0 }

def CatalogCounts.countAvailability (c : CatalogCounts) : Availability → CatalogCounts
  | .available => { c with available := c.available + 1 }
  | .missing => { c with missing := c.missing + 1 }
  | .unreadable => { c with unreadable := c.unreadable + 1 }
  | .deleted => { c with deleted := c.deleted + 1 }
  | .conflict => { c with conflict := c.conflict + 1 }
  | .unsupportedFormat => { c with unsupportedFormat := c.unsupportedFormat + 1 }
  | .partly => { c with partly := c.partly + 1 }

def CatalogCounts.countCause (c : CatalogCounts) (availability : Availability)
    (cause : Option EntryCause) : CatalogCounts :=
  if availability ≠ .unreadable then c
  else
    match cause.map EntryCause.reason with
    | some .overReadCap => { c with unreadableOverReadCap := c.unreadableOverReadCap + 1 }
    | some .malformed => { c with unreadableMalformed := c.unreadableMalformed + 1 }
    | _ => c

def CatalogCounts.countSignature (c : CatalogCounts) : SignatureVerdict → CatalogCounts
  | .verified => { c with signature := { c.signature with verified := c.signature.verified + 1 } }
  | .invalid => { c with signature := { c.signature with invalid := c.signature.invalid + 1 } }
  | .noEvidence =>
      { c with signature := { c.signature with noEvidence := c.signature.noEvidence + 1 } }
  | .notAttempted =>
      { c with signature := { c.signature with notAttempted := c.signature.notAttempted + 1 } }

inductive WalkStop where
  | range
  | objectBudget
  | shardBudget
  | shardUnreadable
deriving DecidableEq

def WalkStop.complete (s : WalkStop) : Bool := s = .range

inductive Standing where
  | givesWay
  | record
  | kept
deriving DecidableEq

def Standing.place : Standing → Nat
  | .givesWay => 0
  | .record => 1
  | .kept => 2

structure Rank where
  standing : Standing
  recoveryPointAtMs : Int
  pointId : String
deriving DecidableEq

def Rank.compare (a b : Rank) : Ordering :=
  (Ord.compare a.standing.place b.standing.place).then
    ((Ord.compare a.recoveryPointAtMs b.recoveryPointAtMs).then (Ord.compare b.pointId a.pointId))

structure Walk where
  /-- The window's points, least rank first; an entry is built of its observation. -/
  window : Std.TreeMap Rank Observation Rank.compare
  counts : CatalogCounts
  byDay : Std.TreeMap String Nat
  signers : Std.TreeMap String Nat
  objects : Nat
  /-- The names already examined, the last one first. -/
  seen : List String
  oldestDay : Option Date
  lastRecordKey : Option String
  unreadableRows : Nat
  recordsUnread : Nat
  stop : WalkStop

def Walk.new : Walk :=
  { window := ∅, counts := .zero, byDay := ∅, signers := ∅, objects := 0, seen := []
    oldestDay := none, lastRecordKey := none, unreadableRows := 0, recordsUnread := 0
    stop := .range }

def Walk.complete (w : Walk) : Bool := w.stop.complete && w.recordsUnread == 0

structure Env extends Reading where
  /-- Whether the clock has room once that many objects were spent. -/
  room : Nat → Bool
  today : Date
  /-- The UTC day of an instant. -/
  dayText : Int → String

def Walk.affordable (w : Walk) (env : Env) : Bool :=
  decide ((w.objects : Int) < env.req.maxObjectsPerRun) && env.room w.objects

def Walk.affordablePoint (w : Walk) (env : Env) : Bool :=
  decide ((w.objects : Int) + objectsPerPoint ≤ env.req.maxObjectsPerRun) && env.room w.objects

def Walk.spend (w : Walk) : Walk := { w with objects := w.objects + 1 }

def tally (m : Std.TreeMap String Nat) (name : String) : Std.TreeMap String Nat :=
  m.insert name (m.getD name 0 + 1)

def displaceable (observation : Observation) : Bool :=
  if observation.point.isSome then false
  else
    match observation.availability with
    | .missing => true
    | .deleted => true
    | .partly => true
    | .unsupportedFormat => true
    | .unreadable => observation.cause.any fun c =>
        c.reason = .readFailed || c.reason = .overReadCap || c.reason = .notFound
    | .available => false
    | .conflict => false

def standingOf (observation : Observation) : Standing :=
  if observation.point.isSome then .record
  else if displaceable observation then .givesWay
  else .kept

def rankOf (observation : Observation) : Rank :=
  { standing := standingOf observation
    recoveryPointAtMs := (observation.point.map fun p => p.capture.startedAt / 1000000).getD 0
    pointId := Redaction.redact ((observation.point.map CatalogPoint.pointId).getD
      observation.pointId) }

def recordUnread (observation : Observation) : Bool :=
  observation.point.isNone &&
    observation.cause.any fun c => c.document = .record && c.reason = .readFailed

def Walk.place (w : Walk) (viewLimit : Nat) (observation : Observation) : Walk :=
  if w.window.size < viewLimit then
    { w with window := w.window.insert (rankOf observation) observation }
  else
    match w.window.minKey? with
    | none => w
    | some least =>
        if standingOf observation = .record ∧ least.compare (rankOf observation) = .lt then
          { w with window := (w.window.erase least).insert (rankOf observation) observation }
        else w

def Walk.counted (w : Walk) (env : Env) (observation : Observation) : Walk :=
  { w with
    counts := ((w.counts.countAvailability observation.availability).countCause
      observation.availability observation.cause).countSignature observation.signature
    -- A rescan's keys carry no instant, so it dates a point from its record.
    byDay :=
      match env.req.mode, observation.point with
      | .full, some point => tally w.byDay (env.dayText point.capture.startedAt)
      | .full, none => w.byDay
      | .index, _ => w.byDay
    signers :=
      match observation.signerKeyId with
      | some keyId => tally w.signers keyId
      | none => w.signers
    recordsUnread := w.recordsUnread + if recordUnread observation then 1 else 0 }

def Walk.push (w : Walk) (env : Env) (observation : Observation) : Walk :=
  (w.counted env observation).place env.req.viewLimit.toNat observation

def Walk.totalled (w : Walk) (day : Option String) : Walk :=
  { w with
    counts := { w.counts with total := w.counts.total + 1 }
    byDay :=
      match day with
      | some day => tally w.byDay day
      | none => w.byDay }

def Walk.take (w : Walk) (env : Env) (name : String) (subject : Subject)
    (day : Option String) : Walk :=
  let (observation, spent) := examine env.toReading subject
  let w := { w with objects := w.objects + spent, seen := name :: w.seen }
  if servedHere env.toReading observation then (w.totalled day).push env observation else w

def padded (width n : Nat) : String :=
  String.ofList (List.replicate (width - (toString n).toList.length) '0') ++ toString n

def yearInKey (year : Int) : String :=
  if year < 0 then "-" ++ padded 3 year.natAbs else padded 4 year.natAbs

def shardOf (day : Date) : String :=
  logPrefix ++ yearInKey day.year ++ "/" ++ padded 2 day.month ++ "/" ++ padded 2 day.day ++ "/"

/-- `%Y-%m-%d`. -/
def dayName (day : Date) : String :=
  (if 0 ≤ day.year ∧ day.year ≤ 9999 then padded 4 day.year.natAbs
    else (if day.year < 0 then "-" else "+") ++ padded 4 day.year.natAbs) ++
  "-" ++ padded 2 day.month ++ "-" ++ padded 2 day.day

/-- `i32::from_str`. -/
def parseI32 (s : String) : Option Int :=
  match s.toList with
  | '-' :: digits =>
      if digits.isEmpty || !digits.all Char.isDigit then none
      else
        let value : Nat := digits.foldl (fun n c => 10 * n + (c.toNat - 48)) 0
        if value ≤ 2 ^ 31 then some (-(value : Int)) else none
  | _ => (Text.parseUnsigned 31 s).map fun n => (n : Int)

def dayOfLogKey (key : String) : Option Date := do
  let rest ← Text.stripPrefix logPrefix key
  match Text.split '/' rest with
  | y :: m :: d :: _ =>
      let y ← parseI32 y
      let m ← Text.parseUnsigned 32 m
      let d ← Text.parseUnsigned 32 d
      Date.ofYmd? y m d
  | _ => none

def archiveFloor (access : ObjectAccess) : Except StoreError (Option Date) :=
  (access.listPage logPrefix none archiveFloorPageKeys).map fun keys =>
    Date.earliest (keys.filterMap dayOfLogKey)

def pointIdOfLogKey (key : String) : Option String := do
  let file ← (Text.split '/' key).getLast?
  let stem ← stripSuffix ".json" file
  let (_, pointId) ← Text.splitOnce '-' stem
  if isPointId pointId then some pointId else none

def indexKey (env : Env) (day : Date) (w : Walk) (key : String) : Except Walk Walk :=
  match pointIdOfLogKey key with
  | none => .ok { w with unreadableRows := w.unreadableRows + 1 }
  | some pointId =>
      if w.seen.contains pointId then .ok w
      else if !w.affordablePoint env then .error { w with stop := .objectBudget }
      else
        .ok (w.take env pointId { recordKey := recordKey pointId, pointId }
          (some (dayName day)))

/-- A day's whole shard, page after page.  Every page is an object, so there are no more pages
than the budget has objects. -/
def shardPages (env : Env) (day : Date) : Nat → Option String → List String → Walk →
    Except Walk (Walk × List String)
  | 0, _, _, w => .error { w with stop := .objectBudget, oldestDay := some day }
  | n + 1, after, keys, w =>
      match env.access.listPage (shardOf day) after shardPageKeys with
      | .error _ =>
          .error { w.spend with
            unreadableRows := w.unreadableRows + 1
            stop := .shardUnreadable
            oldestDay := some day }
      | .ok page =>
          if page.length < shardPageKeys then .ok (w.spend, keys ++ page)
          else if !w.spend.affordable env then
            .error { w.spend with stop := .objectBudget, oldestDay := some day }
          else shardPages env day n page.getLast? (keys ++ page) w.spend

def indexDay (env : Env) (day : Date) (w : Walk) : Except Walk Walk :=
  match shardPages env day env.req.maxObjectsPerRun.toNat none [] w with
  | .error w => .error w
  | .ok (w, keys) => keys.reverse.foldlM (indexKey env day) { w with oldestDay := some day }

def indexDays (env : Env) (floor : Date) : Nat → Date → Walk → Walk
  | shards, day, w =>
      if day < floor then w
      else
        match shards with
        | 0 => { w with stop := .shardBudget }
        | shards + 1 =>
            if !w.affordable env then { w with stop := .objectBudget }
            else
              match indexDay env day w with
              | .error w => w
              | .ok w =>
                  match day.pred? with
                  | none => w
                  | some before => indexDays env floor shards before w

def walkIndex (env : Env) : Except StoreError Walk :=
  match archiveFloor env.access with
  | .error e => .error e
  | .ok none => .ok Walk.new.spend
  | .ok (some day) =>
      .ok (indexDays env (Date.earlier day env.today) maxShardsPerSync env.today Walk.new.spend)

def pointIdOfRecordKey (key : String) : String :=
  ((Text.stripPrefix pointsPrefix key).bind (stripSuffix recordFile)).getD key

def isRecordKey (key : String) : Bool :=
  recordFile.toList.isSuffixOf key.toList && isPointId (pointIdOfRecordKey key)

def fullKey (env : Env) (w : Walk) (key : String) : Except Walk Walk :=
  if !recordFile.toList.isSuffixOf key.toList then .ok w
  else if w.seen.contains key then .ok w
  else if !isPointId (pointIdOfRecordKey key) then .ok w
  else if !w.affordablePoint env then .error { w with stop := .objectBudget }
  else
    .ok ({ w with lastRecordKey := some key }.take env key
      { recordKey := key, pointId := pointIdOfRecordKey key } none)

/-- The pages after a cursor, as many as the budget has objects.  Only a first listing that
fails is a walk that failed. -/
def fullPages (env : Env) : Nat → Option String → Bool → Walk → Except StoreError Walk
  | 0, _, _, w => .ok { w with stop := .objectBudget }
  | n + 1, cursor, firstListing, w =>
      if !w.affordable env then .ok { w with stop := .objectBudget }
      else
        match env.access.listPage pointsPrefix cursor rescanPageKeys with
        | .error e =>
            if firstListing then .error e else .ok { w.spend with stop := .shardUnreadable }
        | .ok keys =>
            if keys.isEmpty then .ok w.spend
            else
              match keys.foldlM (fullKey env) w.spend with
              | .error w => .ok w
              | .ok w =>
                  if keys.length < rescanPageKeys then .ok w
                  else fullPages env n keys.getLast? false w

def walkFull (env : Env) : Except StoreError Walk :=
  fullPages env env.req.maxObjectsPerRun.toNat env.req.rescanStartAfter true Walk.new

inductive ShardStep (env : Env) (day : Date) (n : Nat) (after : Option String)
    (keys : List String) (w : Walk) : Except Walk (Walk × List String) → Prop
  | unreadable (e : StoreError)
      (listed : env.access.listPage (shardOf day) after shardPageKeys = .error e) :
      ShardStep env day n after keys w (.error { w.spend with
        unreadableRows := w.unreadableRows + 1
        stop := .shardUnreadable
        oldestDay := some day })
  | last (page : List String)
      (listed : env.access.listPage (shardOf day) after shardPageKeys = .ok page)
      (short : page.length < shardPageKeys) :
      ShardStep env day n after keys w (.ok (w.spend, keys ++ page))
  | budget (page : List String)
      (listed : env.access.listPage (shardOf day) after shardPageKeys = .ok page)
      (full : ¬ page.length < shardPageKeys) (room : w.spend.affordable env = false) :
      ShardStep env day n after keys w
        (.error { w.spend with stop := .objectBudget, oldestDay := some day })
  | next (page : List String)
      (listed : env.access.listPage (shardOf day) after shardPageKeys = .ok page)
      (full : ¬ page.length < shardPageKeys) (room : w.spend.affordable env = true) :
      ShardStep env day n after keys w
        (shardPages env day n page.getLast? (keys ++ page) w.spend)

theorem shardPages_step (env : Env) (day : Date) (n : Nat) (after : Option String)
    (keys : List String) (w : Walk) :
    ShardStep env day n after keys w (shardPages env day (n + 1) after keys w) := by
  rw [shardPages]
  cases listed : env.access.listPage (shardOf day) after shardPageKeys with
  | error e => exact .unreadable e listed
  | ok page =>
      by_cases short : page.length < shardPageKeys
      · simp only [short, if_true]
        exact .last page listed short
      · simp only [short, if_false]
        cases room : w.spend.affordable env with
        | true =>
            simp only [Bool.not_true, Bool.false_eq_true, if_false]
            exact .next page listed short room
        | false =>
            simp only [Bool.not_false, if_true]
            exact .budget page listed short room

inductive DayStep (env : Env) (floor : Date) : Nat → Date → Walk → Walk → Prop
  | below (shards : Nat) (day : Date) (w : Walk) (past : day < floor) :
      DayStep env floor shards day w w
  | shards (day : Date) (w : Walk) (reached : ¬ day < floor) :
      DayStep env floor 0 day w { w with stop := .shardBudget }
  | budget (shards : Nat) (day : Date) (w : Walk) (reached : ¬ day < floor)
      (room : w.affordable env = false) :
      DayStep env floor (shards + 1) day w { w with stop := .objectBudget }
  | stopped (shards : Nat) (day : Date) (w w' : Walk) (reached : ¬ day < floor)
      (room : w.affordable env = true) (walked : indexDay env day w = .error w') :
      DayStep env floor (shards + 1) day w w'
  | first (shards : Nat) (day : Date) (w w' : Walk) (reached : ¬ day < floor)
      (room : w.affordable env = true) (walked : indexDay env day w = .ok w')
      (none_ : day.pred? = none) :
      DayStep env floor (shards + 1) day w w'
  | next (shards : Nat) (day before : Date) (w w' : Walk) (reached : ¬ day < floor)
      (room : w.affordable env = true) (walked : indexDay env day w = .ok w')
      (some_ : day.pred? = some before) :
      DayStep env floor (shards + 1) day w (indexDays env floor shards before w')

theorem indexDays_step (env : Env) (floor : Date) (shards : Nat) (day : Date) (w : Walk) :
    DayStep env floor shards day w (indexDays env floor shards day w) := by
  rw [indexDays.eq_def]
  by_cases past : day < floor
  · simp only [past, if_true]
    exact .below shards day w past
  · simp only [past, if_false]
    cases shards with
    | zero => exact .shards day w past
    | succ shards =>
        cases room : w.affordable env with
        | false =>
            simp only [Bool.not_false, if_true]
            exact .budget shards day w past room
        | true =>
            simp only [Bool.not_true, Bool.false_eq_true, if_false]
            cases walked : indexDay env day w with
            | error w' => exact .stopped shards day w w' past room walked
            | ok w' =>
                cases back : day.pred? with
                | none => exact .first shards day w w' past room walked back
                | some before => exact .next shards day before w w' past room walked back

inductive FullStep (env : Env) (n : Nat) (cursor : Option String) (w : Walk) :
    Bool → Except StoreError Walk → Prop
  | budget (firstListing : Bool) (room : w.affordable env = false) :
      FullStep env n cursor w firstListing (.ok { w with stop := .objectBudget })
  | failed (e : StoreError) (room : w.affordable env = true)
      (listed : env.access.listPage pointsPrefix cursor rescanPageKeys = .error e) :
      FullStep env n cursor w true (.error e)
  | unreadable (e : StoreError) (room : w.affordable env = true)
      (listed : env.access.listPage pointsPrefix cursor rescanPageKeys = .error e) :
      FullStep env n cursor w false (.ok { w.spend with stop := .shardUnreadable })
  | empty (firstListing : Bool) (room : w.affordable env = true)
      (listed : env.access.listPage pointsPrefix cursor rescanPageKeys = .ok []) :
      FullStep env n cursor w firstListing (.ok w.spend)
  | stopped (firstListing : Bool) (keys : List String) (w' : Walk)
      (room : w.affordable env = true)
      (listed : env.access.listPage pointsPrefix cursor rescanPageKeys = .ok keys)
      (some_ : keys ≠ []) (ran : keys.foldlM (fullKey env) w.spend = .error w') :
      FullStep env n cursor w firstListing (.ok w')
  | last (firstListing : Bool) (keys : List String) (w' : Walk)
      (room : w.affordable env = true)
      (listed : env.access.listPage pointsPrefix cursor rescanPageKeys = .ok keys)
      (some_ : keys ≠ []) (ran : keys.foldlM (fullKey env) w.spend = .ok w')
      (short : keys.length < rescanPageKeys) :
      FullStep env n cursor w firstListing (.ok w')
  | next (firstListing : Bool) (keys : List String) (w' : Walk)
      (room : w.affordable env = true)
      (listed : env.access.listPage pointsPrefix cursor rescanPageKeys = .ok keys)
      (some_ : keys ≠ []) (ran : keys.foldlM (fullKey env) w.spend = .ok w')
      (full : ¬ keys.length < rescanPageKeys) :
      FullStep env n cursor w firstListing (fullPages env n keys.getLast? false w')

theorem fullPages_step (env : Env) (n : Nat) (cursor : Option String) (firstListing : Bool)
    (w : Walk) :
    FullStep env n cursor w firstListing (fullPages env (n + 1) cursor firstListing w) := by
  rw [fullPages]
  cases room : w.affordable env with
  | false =>
      simp only [Bool.not_false, if_true]
      exact .budget firstListing room
  | true =>
      simp only [Bool.not_true, Bool.false_eq_true, if_false]
      cases listed : env.access.listPage pointsPrefix cursor rescanPageKeys with
      | error e =>
          cases firstListing with
          | true => exact .failed e room listed
          | false => exact .unreadable e room listed
      | ok keys =>
          cases keys with
          | nil => exact .empty firstListing room listed
          | cons key keys =>
              simp only [List.isEmpty_cons, Bool.false_eq_true, if_false]
              cases ran : (key :: keys).foldlM (fullKey env) w.spend with
              | error w' =>
                  exact .stopped firstListing _ w' room listed (List.cons_ne_nil _ _) ran
              | ok w' =>
                  by_cases short : (key :: keys).length < rescanPageKeys
                  · simp only [short, if_true]
                    exact .last firstListing _ w' room listed (List.cons_ne_nil _ _) ran short
                  · simp only [short, if_false]
                    exact .next firstListing _ w' room listed (List.cons_ne_nil _ _) ran short

structure CursorReport where
  indexShard : Option String
  rescanStartAfter : Option String
  complete : Bool
deriving DecidableEq

def cursorDocument (req : CatalogSyncRequest) (w : Walk) : CursorReport :=
  match req.mode with
  | .index =>
      { indexShard := w.oldestDay.map dayName, rescanStartAfter := none, complete := w.complete }
  | .full =>
      { indexShard := none
        rescanStartAfter :=
          if w.stop.complete then none else w.lastRecordKey.map Redaction.redactPath
        complete := w.complete }

end Logweir.CatalogSync
