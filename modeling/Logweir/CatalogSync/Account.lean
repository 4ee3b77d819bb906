import Logweir.Library.Loops
import Logweir.CatalogSync.Walk

/-!
# What a walk has counted

Every walk's counts are those of the points it examined: a point is counted when its
whole examination says that the destination serves it, in one availability bucket and in
one signature bucket, and the objects spent stay within the budget.
-/

set_option autoImplicit false

namespace Logweir.CatalogSync

open Logweir.Catalog Logweir.Calendar Logweir.Loops

def CatalogCounts.of (c : CatalogCounts) : Availability → Nat
  | .available => c.available
  | .missing => c.missing
  | .unreadable => c.unreadable
  | .deleted => c.deleted
  | .conflict => c.conflict
  | .unsupportedFormat => c.unsupportedFormat
  | .partly => c.partly

def SignatureCounts.of (c : SignatureCounts) : SignatureVerdict → Nat
  | .verified => c.verified
  | .invalid => c.invalid
  | .noEvidence => c.noEvidence
  | .notAttempted => c.notAttempted

def CatalogCounts.examined (c : CatalogCounts) : Nat :=
  c.available + c.missing + c.unreadable + c.deleted + c.conflict + c.unsupportedFormat + c.partly

def SignatureCounts.sum (c : SignatureCounts) : Nat :=
  c.verified + c.invalid + c.noEvidence + c.notAttempted

theorem countAvailability_of (c : CatalogCounts) (a b : Availability) :
    (c.countAvailability a).of b = c.of b + if a = b then 1 else 0 := by
  cases a <;> cases b <;> rfl

@[simp] theorem countAvailability_total (c : CatalogCounts) (a : Availability) :
    (c.countAvailability a).total = c.total := by
  cases a <;> rfl

@[simp] theorem countAvailability_signature (c : CatalogCounts) (a : Availability) :
    (c.countAvailability a).signature = c.signature := by
  cases a <;> rfl

theorem countCause_keeps (c : CatalogCounts) (a : Availability) (cause : Option EntryCause) :
    (c.countCause a cause).of = c.of ∧ (c.countCause a cause).total = c.total ∧
      (c.countCause a cause).signature = c.signature := by
  have buckets : ∀ d : CatalogCounts, d.available = c.available → d.missing = c.missing →
      d.unreadable = c.unreadable → d.deleted = c.deleted → d.conflict = c.conflict →
      d.unsupportedFormat = c.unsupportedFormat → d.partly = c.partly → d.of = c.of := by
    intro d available missing unreadable deleted conflict format partly
    funext b
    cases b
    · exact available
    · exact missing
    · exact unreadable
    · exact deleted
    · exact conflict
    · exact format
    · exact partly
  unfold CatalogCounts.countCause
  split
  · exact ⟨rfl, rfl, rfl⟩
  · split
    · exact ⟨buckets _ rfl rfl rfl rfl rfl rfl rfl, rfl, rfl⟩
    · exact ⟨buckets _ rfl rfl rfl rfl rfl rfl rfl, rfl, rfl⟩
    · exact ⟨rfl, rfl, rfl⟩

theorem countSignature_of (c : CatalogCounts) (s t : SignatureVerdict) :
    (c.countSignature s).signature.of t = c.signature.of t + if s = t then 1 else 0 := by
  cases s <;> cases t <;> rfl

theorem countSignature_keeps (c : CatalogCounts) (s : SignatureVerdict) :
    (c.countSignature s).of = c.of ∧ (c.countSignature s).total = c.total := by
  cases s <;> exact ⟨funext fun b => by cases b <;> rfl, rfl⟩

theorem sum_countP_availability {α : Type} (f : α → Availability) (l : List α) :
    l.countP (fun x => f x = .available) + l.countP (fun x => f x = .missing) +
      l.countP (fun x => f x = .unreadable) + l.countP (fun x => f x = .deleted) +
      l.countP (fun x => f x = .conflict) + l.countP (fun x => f x = .unsupportedFormat) +
      l.countP (fun x => f x = .partly) = l.length := by
  induction l with
  | nil => rfl
  | cons x l ih =>
      simp only [List.countP_cons, List.length_cons]
      cases f x <;> simp <;> omega

theorem sum_countP_signature {α : Type} (f : α → SignatureVerdict) (l : List α) :
    l.countP (fun x => f x = .verified) + l.countP (fun x => f x = .invalid) +
      l.countP (fun x => f x = .noEvidence) + l.countP (fun x => f x = .notAttempted) =
      l.length := by
  induction l with
  | nil => rfl
  | cons x l ih =>
      simp only [List.countP_cons, List.length_cons]
      cases f x <;> simp <;> omega

theorem place_keeps (w : Walk) (viewLimit : Nat) (o : Observation) :
    ∃ window, w.place viewLimit o = { w with window } := by
  unfold Walk.place
  split
  · exact ⟨_, rfl⟩
  · split
    · exact ⟨w.window, rfl⟩
    · split
      · exact ⟨_, rfl⟩
      · exact ⟨w.window, rfl⟩

variable (env : Env) (subjectOf : String → Subject)

def observed (name : String) : Observation := (examine env.toReading (subjectOf name)).1

def countsHere (name : String) : Bool := servedHere env.toReading (observed env subjectOf name)

/-- What a step that examines a point changes. -/
structure Taken (w w' : Walk) (name : String) : Prop where
  seen : w'.seen = name :: w.seen
  objects : w'.objects = w.objects + (examine env.toReading (subjectOf name)).2
  total : w'.counts.total = w.counts.total + if countsHere env subjectOf name then 1 else 0
  availability : ∀ a, w'.counts.of a = w.counts.of a +
    if countsHere env subjectOf name ∧ (observed env subjectOf name).availability = a then 1
    else 0
  signature : ∀ s, w'.counts.signature.of s = w.counts.signature.of s +
    if countsHere env subjectOf name ∧ (observed env subjectOf name).signature = s then 1 else 0
  recordsUnread : w'.recordsUnread = w.recordsUnread +
    if countsHere env subjectOf name ∧ recordUnread (observed env subjectOf name) then 1 else 0
  stop : w'.stop = w.stop
  lastRecordKey : w'.lastRecordKey = w.lastRecordKey
  oldestDay : w'.oldestDay = w.oldestDay

theorem take_taken (w : Walk) (name : String) (day : Option String) :
    Taken env subjectOf w (w.take env name (subjectOf name) day) name := by
  unfold Walk.take
  by_cases here : countsHere env subjectOf name = true
  · have served : servedHere env.toReading (examine env.toReading (subjectOf name)).1 = true :=
      here
    simp only [served, if_true]
    obtain ⟨window, placed⟩ := place_keeps
      ((Walk.totalled { w with
        objects := w.objects + (examine env.toReading (subjectOf name)).2
        seen := name :: w.seen } day).counted env (observed env subjectOf name))
      env.req.viewLimit.toNat (observed env subjectOf name)
    have pushed : Walk.push _ env (examine env.toReading (subjectOf name)).1 = _ := placed
    rw [pushed]
    obtain ⟨buckets, total, signature⟩ := countCause_keeps
      ((Walk.totalled { w with
        objects := w.objects + (examine env.toReading (subjectOf name)).2
        seen := name :: w.seen } day).counts.countAvailability
          (observed env subjectOf name).availability)
      (observed env subjectOf name).availability (observed env subjectOf name).cause
    exact {
      seen := rfl
      objects := rfl
      total := by
        rw [if_pos here]
        exact ((countSignature_keeps _ _).2.trans total).trans (countAvailability_total _ _)
      availability := fun a => by
        simp only [here, true_and]
        exact (congrFun (countSignature_keeps _ _).1 a).trans
          ((congrFun buckets a).trans (countAvailability_of _ _ a))
      signature := fun s => by
        simp only [here, true_and]
        refine (countSignature_of _ _ s).trans ?_
        rw [signature, countAvailability_signature]
        rfl
      recordsUnread := by
        simp only [here, true_and]
        rfl
      stop := rfl
      lastRecordKey := rfl
      oldestDay := rfl }
  · have left : servedHere env.toReading (examine env.toReading (subjectOf name)).1 = false :=
      Bool.eq_false_iff.mpr here
    simp only [left, Bool.false_eq_true, if_false]
    exact {
      seen := rfl
      objects := rfl
      total := by rw [if_neg here, Nat.add_zero]
      availability := fun a => by rw [if_neg fun both => here both.1, Nat.add_zero]
      signature := fun s => by rw [if_neg fun both => here both.1, Nat.add_zero]
      recordsUnread := by rw [if_neg fun both => here both.1, Nat.add_zero]
      stop := rfl
      lastRecordKey := rfl
      oldestDay := rfl }

/-- The counts are those of the names examined, each once, and the budget holds. -/
structure Accounted (w : Walk) : Prop where
  once : w.seen.Nodup
  total : w.counts.total = w.seen.countP (countsHere env subjectOf)
  availability : ∀ a, w.counts.of a = w.seen.countP fun n =>
    countsHere env subjectOf n && decide ((observed env subjectOf n).availability = a)
  signature : ∀ s, w.counts.signature.of s = w.seen.countP fun n =>
    countsHere env subjectOf n && decide ((observed env subjectOf n).signature = s)
  recordsUnread : w.recordsUnread = w.seen.countP fun n =>
    countsHere env subjectOf n && recordUnread (observed env subjectOf n)
  objects : (w.objects : Int) ≤ max env.req.maxObjectsPerRun 1

variable {env subjectOf}

theorem accounted_new : Accounted env subjectOf Walk.new where
  once := List.nodup_nil
  total := rfl
  availability a := by cases a <;> rfl
  signature s := by cases s <;> rfl
  recordsUnread := rfl
  objects := by
    show (0 : Int) ≤ max env.req.maxObjectsPerRun 1
    omega

theorem Accounted.congr {w w' : Walk} (holds : Accounted env subjectOf w)
    (seen : w'.seen = w.seen) (counts : w'.counts = w.counts)
    (unread : w'.recordsUnread = w.recordsUnread)
    (objects : (w'.objects : Int) ≤ max env.req.maxObjectsPerRun 1) :
    Accounted env subjectOf w' where
  once := seen ▸ holds.once
  total := by rw [seen, counts]; exact holds.total
  availability := by rw [seen, counts]; exact holds.availability
  signature := by rw [seen, counts]; exact holds.signature
  recordsUnread := by rw [seen, unread]; exact holds.recordsUnread
  objects := objects

theorem affordable_lt {w : Walk} (room : w.affordable env = true) :
    (w.objects : Int) < env.req.maxObjectsPerRun := by
  unfold Walk.affordable at room
  rw [Bool.and_eq_true, decide_eq_true_eq] at room
  exact room.1

theorem affordablePoint_le {w : Walk} (room : w.affordablePoint env = true) :
    (w.objects : Int) + objectsPerPoint ≤ env.req.maxObjectsPerRun := by
  unfold Walk.affordablePoint at room
  rw [Bool.and_eq_true, decide_eq_true_eq] at room
  exact room.1

theorem spend_le {w : Walk} (room : w.affordable env = true) :
    ((w.objects + 1 : Nat) : Int) ≤ max env.req.maxObjectsPerRun 1 := by
  have less := affordable_lt room
  omega

theorem Accounted.take {w : Walk} (holds : Accounted env subjectOf w) {name : String}
    (new : name ∉ w.seen) (room : w.affordablePoint env = true) (day : Option String) :
    Accounted env subjectOf (w.take env name (subjectOf name) day) := by
  have taken := take_taken env subjectOf w name day
  have one : ∀ p : String → Bool, (name :: w.seen).countP p =
      w.seen.countP p + if p name = true then 1 else 0 := fun p => by
    rw [List.countP_cons]
  exact {
    once := by
      rw [taken.seen]
      exact List.nodup_cons.mpr ⟨new, holds.once⟩
    total := by rw [taken.seen, taken.total, holds.total, one]
    availability := fun a => by
      rw [taken.seen, taken.availability, holds.availability, one]
      simp only [Bool.and_eq_true, decide_eq_true_eq]
    signature := fun s => by
      rw [taken.seen, taken.signature, holds.signature, one]
      simp only [Bool.and_eq_true, decide_eq_true_eq]
    recordsUnread := by
      rw [taken.seen, taken.recordsUnread, holds.recordsUnread, one]
      simp only [Bool.and_eq_true]
    objects := by
      have bound := (examine_spent env.toReading (subjectOf name)).2
      have fits := affordablePoint_le room
      rw [taken.objects]
      omega }

theorem Accounted.sums {w : Walk} (holds : Accounted env subjectOf w) :
    w.counts.examined = w.counts.total ∧ w.counts.signature.sum = w.counts.total := by
  have split : ∀ q : String → Bool,
      (w.seen.countP fun n => countsHere env subjectOf n && q n) =
        (w.seen.filter (countsHere env subjectOf)).countP q := fun q => by
    rw [List.countP_filter]
    exact List.countP_congr fun n _ => by rw [Bool.and_comm]
  have total : w.counts.total = (w.seen.filter (countsHere env subjectOf)).length := by
    rw [holds.total, List.countP_eq_length_filter]
  constructor
  · have of := holds.availability
    simp only [split] at of
    have whole := sum_countP_availability (fun n => (observed env subjectOf n).availability)
      (w.seen.filter (countsHere env subjectOf))
    rw [← of .available, ← of .missing, ← of .unreadable, ← of .deleted, ← of .conflict,
      ← of .unsupportedFormat, ← of .partly, ← total] at whole
    exact whole
  · have of := holds.signature
    simp only [split] at of
    have whole := sum_countP_signature (fun n => (observed env subjectOf n).signature)
      (w.seen.filter (countsHere env subjectOf))
    rw [← of .verified, ← of .invalid, ← of .noEvidence, ← of .notAttempted, ← total] at whole
    exact whole

theorem Accounted.answered {w : Walk} (holds : Accounted env subjectOf w)
    (none_ : w.recordsUnread = 0) {name : String} (seen : name ∈ w.seen)
    (counted : countsHere env subjectOf name = true) :
    recordUnread (observed env subjectOf name) = false := by
  have unread := holds.recordsUnread
  rw [none_] at unread
  have never := List.countP_eq_zero.mp unread.symm name seen
  rw [counted, Bool.true_and] at never
  exact Bool.eq_false_iff.mpr never

def ofPointId (pointId : String) : Subject := { recordKey := recordKey pointId, pointId }

def ofRecordKey (key : String) : Subject :=
  { recordKey := key, pointId := pointIdOfRecordKey key }

theorem indexKey_accounted {w : Walk} (holds : Accounted env ofPointId w) (day : Date)
    (key : String) : Accounted env ofPointId (final (indexKey env day w key)) := by
  unfold indexKey
  split
  · exact holds.congr rfl rfl rfl holds.objects
  · rename_i pointId _
    split
    · exact holds
    · rename_i new
      split
      · exact holds.congr rfl rfl rfl holds.objects
      · rename_i room
        rw [final_ok]
        rw [List.contains_iff_mem] at new
        exact holds.take new (by simpa using room) _

theorem fullKey_accounted {w : Walk} (holds : Accounted env ofRecordKey w) (key : String) :
    Accounted env ofRecordKey (final (fullKey env w key)) := by
  unfold fullKey
  split
  · exact holds
  · split
    · exact holds
    · rename_i new
      split
      · exact holds
      · split
        · exact holds.congr rfl rfl rfl holds.objects
        · rename_i room
          rw [final_ok]
          rw [List.contains_iff_mem] at new
          have noted : Accounted env ofRecordKey { w with lastRecordKey := some key } :=
            holds.congr rfl rfl rfl holds.objects
          exact noted.take new (by simpa [Walk.affordablePoint] using room) _

/-- What a shard's pages leave: a walk that stopped, not at its range's end, or one that has
changed in its objects alone. -/
def PagesKept (w : Walk) : Except Walk (Walk × List String) → Prop
  | .error w' => Accounted env ofPointId w' ∧ w'.stop ≠ .range
  | .ok (w', _) => Accounted env ofPointId w' ∧ ∃ objects, w' = { w with objects }

theorem spend_accounted {w : Walk} (holds : Accounted env subjectOf w)
    (room : w.affordable env = true) : Accounted env subjectOf w.spend :=
  holds.congr rfl rfl rfl (spend_le room)

theorem shardPages_accounted (day : Date) : ∀ (n : Nat) (after : Option String)
    (keys : List String) {w : Walk}, Accounted env ofPointId w → w.affordable env = true →
    @PagesKept env w (shardPages env day n after keys w) := by
  intro n
  induction n with
  | zero =>
      intro after keys w holds _
      exact ⟨holds.congr rfl rfl rfl holds.objects, WalkStop.noConfusion⟩
  | succ n ih =>
      intro after keys w holds room
      have spent := spend_accounted holds room
      have step := shardPages_step env day n after keys w
      generalize shardPages env day (n + 1) after keys w = r at step ⊢
      cases step with
      | unreadable e listed => exact ⟨spent.congr rfl rfl rfl spent.objects, WalkStop.noConfusion⟩
      | last page listed short => exact ⟨spent, _, rfl⟩
      | budget page listed full none_ =>
          exact ⟨spent.congr rfl rfl rfl spent.objects, WalkStop.noConfusion⟩
      | next page listed full more =>
          have rest := ih page.getLast? (keys ++ page) spent more
          revert rest
          cases shardPages env day n page.getLast? (keys ++ page) w.spend with
          | error w' => exact id
          | ok r =>
              rintro ⟨kept, objects, same⟩
              exact ⟨kept, objects, same⟩

theorem indexDay_accounted (day : Date) {w : Walk} (holds : Accounted env ofPointId w)
    (room : w.affordable env = true) :
    Accounted env ofPointId (final (indexDay env day w)) := by
  have pages := shardPages_accounted day env.req.maxObjectsPerRun.toNat none [] holds room
  unfold indexDay
  revert pages
  cases shardPages env day env.req.maxObjectsPerRun.toNat none [] w with
  | error w' => exact fun kept => kept.1
  | ok r =>
      obtain ⟨w', keys⟩ := r
      rintro ⟨kept, _⟩
      have dated : Accounted env ofPointId { w' with oldestDay := some day } :=
        kept.congr rfl rfl rfl kept.objects
      exact final_foldlM (P := Accounted env ofPointId)
        (fun s key _ held => indexKey_accounted held day key) dated

theorem indexDays_accounted (floor : Date) : ∀ (shards : Nat) (day : Date) {w : Walk},
    Accounted env ofPointId w → Accounted env ofPointId (indexDays env floor shards day w) := by
  intro shards
  induction shards with
  | zero =>
      intro day w holds
      have step := indexDays_step env floor 0 day w
      generalize indexDays env floor 0 day w = w' at step ⊢
      cases step with
      | below _ _ _ past => exact holds
      | shards _ _ reached => exact holds.congr rfl rfl rfl holds.objects
  | succ shards ih =>
      intro day w holds
      have one : w.affordable env = true → Accounted env ofPointId (final (indexDay env day w)) :=
        indexDay_accounted day holds
      have step := indexDays_step env floor (shards + 1) day w
      generalize indexDays env floor (shards + 1) day w = w' at step ⊢
      cases step with
      | below _ _ _ past => exact holds
      | budget _ _ _ reached room => exact holds.congr rfl rfl rfl holds.objects
      | stopped _ _ _ _ reached room walked =>
          rw [walked] at one
          exact one room
      | first _ _ _ _ reached room walked none_ =>
          rw [walked] at one
          exact one room
      | next _ _ before _ w₁ reached room walked some_ =>
          rw [walked] at one
          exact ih before (one room)

theorem walkIndex_accounted {w : Walk} (walked : walkIndex env = .ok w) :
    Accounted env ofPointId w := by
  have first : Accounted env ofPointId Walk.new.spend :=
    accounted_new.congr rfl rfl rfl (by
      show (1 : Int) ≤ max env.req.maxObjectsPerRun 1
      omega)
  unfold walkIndex at walked
  cases floor : archiveFloor env.access with
  | error e =>
      rw [floor] at walked
      cases walked
  | ok day =>
      rw [floor] at walked
      cases day with
      | none =>
          cases walked
          exact first
      | some day =>
          cases walked
          exact indexDays_accounted _ _ _ first

theorem fullPages_accounted : ∀ (n : Nat) (cursor : Option String) (firstListing : Bool)
    {w w' : Walk}, Accounted env ofRecordKey w → fullPages env n cursor firstListing w = .ok w' →
    Accounted env ofRecordKey w' := by
  intro n
  induction n with
  | zero =>
      intro cursor firstListing w w' holds walked
      cases walked
      exact holds.congr rfl rfl rfl holds.objects
  | succ n ih =>
      intro cursor firstListing w w' holds walked
      have page : w.affordable env = true → ∀ keys : List String,
          Accounted env ofRecordKey (final (keys.foldlM (fullKey env) w.spend)) :=
        fun room keys => final_foldlM (P := Accounted env ofRecordKey)
          (fun s key _ held => fullKey_accounted held key) (spend_accounted holds room)
      have step := fullPages_step env n cursor firstListing w
      rw [walked] at step
      generalize answer : (Except.ok w' : Except StoreError Walk) = r at step
      cases step with
      | budget _ room =>
          cases answer
          exact holds.congr rfl rfl rfl holds.objects
      | failed e room listed => cases answer
      | unreadable e room listed =>
          cases answer
          exact (spend_accounted holds room).congr rfl rfl rfl (spend_le room)
      | empty _ room listed =>
          cases answer
          exact spend_accounted holds room
      | stopped _ keys w₁ room listed some_ ran =>
          cases answer
          have kept := page room keys
          rw [ran] at kept
          exact kept
      | last _ keys w₁ room listed some_ ran short =>
          cases answer
          have kept := page room keys
          rw [ran] at kept
          exact kept
      | next _ keys w₁ room listed some_ ran full =>
          have kept := page room keys
          rw [ran] at kept
          exact ih _ _ kept answer.symm

theorem walkFull_accounted {w : Walk} (walked : walkFull env = .ok w) :
    Accounted env ofRecordKey w :=
  fullPages_accounted _ _ _ accounted_new walked

end Logweir.CatalogSync
