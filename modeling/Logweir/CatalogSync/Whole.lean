import Logweir.Catalog.Backed
import Logweir.CatalogSync.Runs

/-!
# When a walk saw everything

The counts of every walk are those of the points it examined.  What `complete` says, and
what a cursor leaves to the next run, hold exactly under a condition on the archive's first
keys and on how far a run's budget, clock and store carry it.
-/

set_option autoImplicit false

namespace Logweir.CatalogSync

open Logweir.Catalog Logweir.Calendar Logweir.KeyRange

/-- The buckets sum to the total, and no more objects are spent than the budget has, when it
has one. -/
structure Sums (env : Env) (w : Walk) : Prop where
  availability : w.counts.examined = w.counts.total
  signature : w.counts.signature.sum = w.counts.total
  objects : 1 ≤ env.req.maxObjectsPerRun → (w.objects : Int) ≤ env.req.maxObjectsPerRun

theorem Accounted.toSums {env : Env} {subjectOf : String → Subject} {w : Walk}
    (holds : Accounted env subjectOf w) : Sums env w where
  availability := holds.sums.1
  signature := holds.sums.2
  objects some_ := by
    have bound := holds.objects
    omega

/-- Every record key after the start of a point that the destination serves was counted, and
its record read answered. -/
def FullWhole (env : Env) (archive : Archive) (w : Walk) : Prop :=
  ∀ key ∈ recordKeysAfter archive env.req.rescanStartAfter,
    countsHere env ofRecordKey key = true →
    key ∈ w.seen ∧ recordUnread (observed env ofRecordKey key) = false

theorem full_whole {env : Env} {archive : Archive} (law : Lists env.access archive) {w : Walk}
    (walked : walkFull env = .ok w) (complete : w.complete = true) :
    FullWhole env archive w := by
  obtain ⟨range, none_⟩ := complete_range complete
  obtain ⟨left, split, _, finished⟩ := walkFull_resumes law walked
  intro key mem here
  rw [split, finished range, List.append_nil, List.mem_reverse] at mem
  exact ⟨mem, (walkFull_accounted walked).answered none_ mem here⟩

/-- What rescans over an unchanged archive examine, each from the cursor the one before it
reported: every key once, in order, and no cursor goes back. -/
structure NothingLost {archive : Archive} (first : FullRun archive)
    (runs : List (FullRun archive)) (left : List String) : Prop where
  split : recordKeysAfter archive first.start =
    (first :: runs).flatMap FullRun.examined ++ left
  once : ((first :: runs).flatMap FullRun.examined).Nodup
  finished : ∀ last, (first :: runs).getLast? = some last → last.walk.stop = .range → left = []
  goesOn : ∀ r ∈ first :: runs, r.walk.stop ≠ .range → r.GoesOn

theorem nothing_lost {archive : Archive} {first : FullRun archive}
    {runs : List (FullRun archive)} (chained : Chained (first :: runs))
    (comes : ∀ r ∈ first :: runs, r.ComesToAKey) : ∃ left, NothingLost first runs left := by
  obtain ⟨left, split, finished⟩ := chained_split first runs chained comes
  refine ⟨left, split, ?_, finished, fun r mem stopped =>
    (r.goesOn_iff stopped).mpr (comes r mem)⟩
  have once := recordKeysAfter_nodup archive first.start
  rw [split] at once
  exact (List.nodup_append.mp once).1

/-- Every walk's counts are sums and within the budget; a complete `Full` walk saw every key
after its start, and a complete `Index` walk every key exactly when its floor reaches them; and
a run of rescans loses nothing when each comes to a key, which a stopped one needs to go on. -/
theorem walks_whole (archive : Archive) (env : Env) (law : Lists env.access archive) :
    (∀ w, walkIndex env = .ok w →
      Accounted env ofPointId w ∧ Sums env w ∧
      (w.complete = true → (IndexWhole env archive w ↔ FloorReaches env archive))) ∧
    (∀ w, walkFull env = .ok w →
      Accounted env ofRecordKey w ∧ Sums env w ∧
      (w.complete = true → FullWhole env archive w)) ∧
    (∀ r : FullRun archive, r.walk.stop ≠ .range → (r.GoesOn ↔ r.ComesToAKey)) ∧
    (∀ (first : FullRun archive) (runs : List (FullRun archive)),
      Chained (first :: runs) → (∀ r ∈ first :: runs, r.ComesToAKey) →
      ∃ left, NothingLost first runs left) := by
  refine ⟨fun w walked => ?_, fun w walked => ?_, fun r stopped => r.goesOn_iff stopped,
    fun first runs chained comes => nothing_lost chained comes⟩
  · have account := walkIndex_accounted walked
    exact ⟨account, account.toSums, index_whole_iff law walked⟩
  · have account := walkFull_accounted walked
    exact ⟨account, account.toSums, full_whole law walked⟩

def firstOfJanuary : Date :=
  { year := 1970, month := 1, day := 1, years := by decide, months := by decide, days := by decide }

def secondOfJanuary : Date :=
  { year := 1970, month := 1, day := 2, years := by decide, months := by decide, days := by decide }

def exampleId : String := "lwp1-e3b0c44298fc1c149afbf4c8996fb924"
def exampleLogKey : String :=
  "logweir/catalog/v1/log/1970/01/01/0000000000000-" ++ exampleId ++ ".json"

def foreignKeys : List String :=
  ["1", "2", "3", "4", "5", "6", "7", "8"].map fun n => "logweir/catalog/v1/log/." ++ n

def foreignArchive : Archive :=
  { keys := foreignKeys ++ [exampleLogKey, recordKey exampleId], ascending := by decide +kernel }

def examplePoint : CatalogPoint :=
  { exampleRecord with
    pointId := exampleId
    receipt := { exampleRecord.receipt with
      key := "logweir/backups/orders/run-1.receipt.json"
      sidecarKey := "logweir/backups/orders/run-1.receipt.sig" } }

def exampleAccess (archive : Archive) : ObjectAccess :=
  { get := fun key _ => if archive.keys.contains key then .ok [0] else .error (.notFound key)
    getWithVersion := fun key _ => .error (.notFound key)
    getVersion := fun key _ _ => .error (.notFound key)
    listPage := fun start after max => .ok ((under archive.keys start after).take max) }

theorem exampleAccess_lists (archive : Archive) : Lists (exampleAccess archive) archive := by
  intro start after max keys listed
  cases listed
  rfl

def exampleEnv (archive : Archive) (mode : SyncMode) (rescanStartAfter : Option String)
    (room : Nat) : Env :=
  { req := { mode, destination := { name := "archive", locationPrefix := "" }
             viewLimit := 100, maxObjectsPerRun := 1000, deepCheck := .none, rescanStartAfter }
    access := exampleAccess archive
    docs := { crates := exampleCrates
              recordText := fun _ => some { formatVersion := some "1.0.0", point := some examplePoint }
              receipt := fun _ => none
              sidecar := fun _ => none
              verifies := fun _ _ _ => false }
    trust := []
    room := fun n => decide (n < room)
    today := secondOfJanuary
    dayText := fun _ => "1970-01-01" }

def answers (r : Except StoreError Walk) (p : Walk → Bool) : Bool :=
  match r with
  | .ok w => p w
  | .error _ => false

theorem of_answers {r : Except StoreError Walk} {p : Walk → Bool} (holds : answers r p = true) :
    ∃ w, r = .ok w ∧ p w = true := by
  cases r with
  | error e => cases holds
  | ok w => exact ⟨w, rfl, holds⟩

def firstKey : String := recordKey "lwp1-00000000000000000000000000000000"
def secondKey : String := recordKey exampleId

def twoPoints : Archive :=
  { keys := [firstKey, secondKey], ascending := by decide +kernel }

theorem exampleRun (archive : Archive) (start : Option String) (room : Nat) {seen : List String}
    {stop : WalkStop} (ran : answers (walkFull (exampleEnv archive .full start room)) (fun w =>
      w.seen == seen && decide (w.stop = stop)) = true) :
    ∃ r : FullRun archive, r.env = exampleEnv archive .full start room ∧ r.walk.seen = seen ∧
      r.walk.stop = stop := by
  obtain ⟨w, walked, holds⟩ := of_answers ran
  rw [Bool.and_eq_true, beq_iff_eq, decide_eq_true_eq] at holds
  exact ⟨⟨_, w, rfl, exampleAccess_lists archive, walked⟩, rfl, holds.1, holds.2⟩

/-- Eight other keys before the first day hide a point from a walk that says it is complete.
And a rescan whose clock ends after its listing, resumed behind the first of two points,
reports no cursor: the next one examines the first point again. -/
theorem hidden_and_repeated :
    (∃ w, walkIndex (exampleEnv foreignArchive .index none 1000) = .ok w ∧ w.complete = true ∧
      ¬ IndexWhole (exampleEnv foreignArchive .index none 1000) foreignArchive w) ∧
    ∃ a b c : FullRun twoPoints,
      a.env = exampleEnv twoPoints .full none 2 ∧
      b.env = exampleEnv twoPoints .full (some firstKey) 1 ∧
      c.env = exampleEnv twoPoints .full none 1000 ∧ Chained [a, b, c] ∧
      ¬ ([a, b, c].flatMap FullRun.examined).Nodup ∧ ¬ b.GoesOn := by
  constructor
  · have ran : answers (walkIndex (exampleEnv foreignArchive .index none 1000))
        (fun w => w.complete && w.seen.isEmpty) = true := by decide +kernel
    obtain ⟨w, walked, holds⟩ := of_answers ran
    rw [Bool.and_eq_true, List.isEmpty_iff] at holds
    refine ⟨w, walked, holds.1, fun whole => ?_⟩
    have seen := (whole exampleLogKey (by decide) firstOfJanuary exampleId (by decide +kernel)
      (by decide +kernel) (by decide +kernel)).1
    rw [holds.2] at seen
    cases seen
  · obtain ⟨a, aEnv, aSeen, aStop⟩ :=
      @exampleRun twoPoints none 2 [firstKey] .objectBudget (by decide +kernel)
    obtain ⟨b, bEnv, bSeen, bStop⟩ :=
      @exampleRun twoPoints (some firstKey) 1 [] .objectBudget (by decide +kernel)
    obtain ⟨c, cEnv, cSeen, cStop⟩ :=
      @exampleRun twoPoints none 1000 [secondKey, firstKey] .range (by decide +kernel)
    have aStopped : a.walk.stop ≠ .range := by rw [aStop]; exact WalkStop.noConfusion
    have bStopped : b.walk.stop ≠ .range := by rw [bStop]; exact WalkStop.noConfusion
    have bStart : b.start = some firstKey := by rw [FullRun.start, bEnv]; rfl
    have bReported : b.reported = none := by rw [b.reported_eq bStopped, bSeen]; rfl
    have cStart : c.start = none := by rw [FullRun.start, cEnv]; rfl
    have aReported : a.reported = some firstKey := by rw [a.reported_eq aStopped, aSeen]; rfl
    refine ⟨a, b, c, aEnv, bEnv, cEnv, ?_, ?_, fun goes => ?_⟩
    · exact .cons_cons ⟨aStopped, bStart.trans aReported.symm⟩
        (.cons_cons ⟨bStopped, cStart.trans bReported.symm⟩ (.singleton c))
    · simp [FullRun.examined, aSeen, bSeen, cSeen]
    · obtain ⟨last, reported, _⟩ := goes firstKey bStart
      rw [bReported] at reported
      cases reported

def plainArchive : Archive := { keys := [exampleLogKey], ascending := by decide +kernel }

theorem plain_reaches :
    FloorReaches (exampleEnv plainArchive .index none 1000) plainArchive := by
  have low : firstDay plainArchive = some firstOfJanuary := by decide +kernel
  have named : pointIdOfLogKey exampleLogKey = some exampleId := by decide +kernel
  have earlier : Date.earlier firstOfJanuary secondOfJanuary = firstOfJanuary := by decide
  intro key mem day id starts same here
  obtain rfl := List.mem_singleton.mp mem
  refine ⟨firstOfJanuary, low, firstOfJanuary, ?_, by decide, exampleLogKey, mem,
    by decide +kernel, same⟩
  exact Int.le_of_eq (congrArg Date.rank earlier)

/-- Each part of the result at an archive that its condition holds of. -/
theorem walks_whole_plain :
    (∃ w, walkIndex (exampleEnv plainArchive .index none 1000) = .ok w ∧ w.complete = true ∧
      Sums (exampleEnv plainArchive .index none 1000) w ∧
      IndexWhole (exampleEnv plainArchive .index none 1000) plainArchive w) ∧
    (∃ w, walkFull (exampleEnv twoPoints .full none 1000) = .ok w ∧ w.complete = true ∧
      Sums (exampleEnv twoPoints .full none 1000) w ∧
      FullWhole (exampleEnv twoPoints .full none 1000) twoPoints w) ∧
    ∃ a b : FullRun twoPoints, a.env = exampleEnv twoPoints .full none 2 ∧
      b.env = exampleEnv twoPoints .full (some firstKey) 1000 ∧ a.GoesOn ∧
      ∃ left, NothingLost a [b] left := by
  refine ⟨?_, ?_, ?_⟩
  · have ran : answers (walkIndex (exampleEnv plainArchive .index none 1000))
        Walk.complete = true := by decide +kernel
    obtain ⟨w, walked, complete⟩ := of_answers ran
    obtain ⟨_, sums, whole⟩ := (walks_whole plainArchive
      (exampleEnv plainArchive .index none 1000) (exampleAccess_lists _)).1 w walked
    exact ⟨w, walked, complete, sums, (whole complete).mpr plain_reaches⟩
  · have ran : answers (walkFull (exampleEnv twoPoints .full none 1000))
        Walk.complete = true := by decide +kernel
    obtain ⟨w, walked, complete⟩ := of_answers ran
    obtain ⟨_, sums, whole⟩ := (walks_whole twoPoints
      (exampleEnv twoPoints .full none 1000) (exampleAccess_lists _)).2.1 w walked
    exact ⟨w, walked, complete, sums, whole complete⟩
  · obtain ⟨a, aEnv, aSeen, aStop⟩ :=
      @exampleRun twoPoints none 2 [firstKey] .objectBudget (by decide +kernel)
    obtain ⟨b, bEnv, bSeen, bStop⟩ :=
      @exampleRun twoPoints (some firstKey) 1000 [secondKey] .range (by decide +kernel)
    have aStopped : a.walk.stop ≠ .range := by rw [aStop]; exact WalkStop.noConfusion
    have aStart : a.start = none := by rw [FullRun.start, aEnv]; rfl
    have aReported : a.reported = some firstKey := by rw [a.reported_eq aStopped, aSeen]; rfl
    have bStart : b.start = some firstKey := by rw [FullRun.start, bEnv]; rfl
    have aComes : a.ComesToAKey := .inl aStart
    have bComes : b.ComesToAKey := .inr ((walkFull_reaches b.lists b.walked).mp (.inl bStop))
    obtain ⟨_, _, goes, lost⟩ := walks_whole twoPoints
      (exampleEnv twoPoints .full none 1000) (exampleAccess_lists _)
    refine ⟨a, b, aEnv, bEnv, (goes a aStopped).mpr aComes, lost a [b] ?_ fun r mem => ?_⟩
    · exact .cons_cons ⟨aStopped, bStart.trans aReported.symm⟩ (.singleton b)
    · rcases List.mem_cons.mp mem with rfl | mem
      · exact aComes
      · obtain rfl := List.mem_singleton.mp mem
        exact bComes

end Logweir.CatalogSync
