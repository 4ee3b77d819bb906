import Logweir.CatalogSync.Resume

/-!
# Rescans one after another

Over one archive, rescans that each start at the cursor the one before reported examine
every record key once and in order, as long as each comes to the first key after its
cursor.  A rescan that does not reports no cursor, and the next one starts over.
-/

set_option autoImplicit false

namespace Logweir.CatalogSync

open Logweir.Catalog Logweir.Loops Logweir.KeyRange

variable {env : Env} {archive : Archive}

def Walk.having (objects : Nat) : Walk := { Walk.new with objects }

def pageCursor (archive : Archive) : Option String → Nat → Option String
  | start, 0 => start
  | start, j + 1 =>
      pageCursor archive ((under archive.keys pointsPrefix start).take rescanPageKeys).getLast? j

def pagesBefore (archive : Archive) (start : Option String) : Nat :=
  ((under archive.keys pointsPrefix start).takeWhile fun key => !isRecordKey key).length /
    rescanPageKeys

/-- The budget, the clock and the store's answers carry a walk over the pages up to the first
record key after its cursor and through that key's point, or to the end without one. -/
structure Reaches (env : Env) (archive : Archive) (start : Option String) (objects : Nat) :
    Prop where
  listings : ∀ j ≤ pagesBefore archive start,
    (Walk.having (objects + j)).affordable env = true ∧
      ∃ page, env.access.listPage pointsPrefix (pageCursor archive start j) rescanPageKeys =
        .ok page
  point : recordKeysAfter archive start ≠ [] →
    (Walk.having (objects + pagesBefore archive start + 1)).affordablePoint env = true

section Page

variable (law : Lists env.access archive) {cursor : Option String} {page : List String}
  (listed : env.access.listPage pointsPrefix cursor rescanPageKeys = .ok page)
include law listed

theorem pagesBefore_record (some_ : ∃ key ∈ page, isRecordKey key = true) :
    pagesBefore archive cursor = 0 := by
  have cut := law _ _ _ _ listed
  obtain ⟨key, mem, record⟩ := some_
  have inside : (page.takeWhile fun k => !isRecordKey k).length < page.length := by
    refine Nat.lt_of_le_of_ne (List.takeWhile_prefix _).length_le fun whole => ?_
    have all := List.takeWhile_eq_self_iff.mp
      ((List.takeWhile_prefix _).eq_of_length whole) key mem
    rw [record] at all
    cases all
  have bound : page.length ≤ rescanPageKeys := by
    rw [cut, List.length_take]
    exact Nat.min_le_left _ _
  have front : under archive.keys pointsPrefix cursor =
      page ++ (under archive.keys pointsPrefix cursor).drop rescanPageKeys := by
    rw [cut, List.take_append_drop]
  unfold pagesBefore
  rw [front, List.takeWhile_append, if_neg (Nat.ne_of_lt inside)]
  exact Nat.div_eq_of_lt (Nat.lt_of_lt_of_le inside bound)

theorem pagesBefore_short (short : page.length < rescanPageKeys) :
    pagesBefore archive cursor = 0 := by
  unfold pagesBefore
  rw [← page_short law listed short]
  exact Nat.div_eq_of_lt (Nat.lt_of_le_of_lt (List.takeWhile_prefix _).length_le short)

theorem pagesBefore_next (full : ¬ page.length < rescanPageKeys)
    (none_ : ∀ key ∈ page, isRecordKey key = false) :
    pagesBefore archive cursor = pagesBefore archive page.getLast? + 1 := by
  have bound : page.length ≤ rescanPageKeys := by
    rw [law _ _ _ _ listed, List.length_take]
    exact Nat.min_le_left _ _
  have passed : (page.takeWhile fun k => !isRecordKey k) = page :=
    List.takeWhile_eq_self_iff.mpr fun key mem => by rw [none_ key mem]; rfl
  unfold pagesBefore
  rw [page_full law listed full (by decide), List.takeWhile_append, passed, if_pos rfl,
    List.length_append, Nat.le_antisymm bound (Nat.not_lt.mp full), Nat.add_comm,
    Nat.add_div_right _ (by decide)]

theorem recordKeysAfter_next (full : ¬ page.length < rescanPageKeys)
    (none_ : ∀ key ∈ page, isRecordKey key = false) :
    recordKeysAfter archive cursor = recordKeysAfter archive page.getLast? := by
  have passed : page.filter isRecordKey = [] :=
    List.filter_eq_nil_iff.mpr fun key mem => by rw [none_ key mem]; exact Bool.false_ne_true
  rw [recordKeysAfter_page law listed full, passed, List.nil_append]

end Page

theorem fold_no_record {w : Walk} : ∀ {page : List String},
    (∀ key ∈ page, isRecordKey key = false) → page.foldlM (fullKey env) w = .ok w := by
  intro page
  induction page with
  | nil => exact fun _ => rfl
  | cons key page ih =>
      intro none_
      have step := fullKey_step env w key
      have other := none_ key List.mem_cons_self
      rw [List.foldlM_cons]
      generalize fullKey env w key = r at step ⊢
      cases step with
      | passed _ => exact ih fun k mem => none_ k (List.mem_cons_of_mem key mem)
      | known record _ => rw [record] at other; cases other
      | budget record _ _ => rw [record] at other; cases other
      | examined record _ _ => rw [record] at other; cases other

theorem fullKey_seen {w : Walk} (key : String) (some_ : w.seen ≠ []) :
    (final (fullKey env w key)).seen ≠ [] := by
  have step := fullKey_step env w key
  generalize fullKey env w key = r at step ⊢
  cases step with
  | passed other => exact some_
  | known record seen => exact some_
  | budget record new room => exact some_
  | examined record new room =>
      rw [final_ok, (take_taken env ofRecordKey _ key none).seen]
      exact List.cons_ne_nil _ _

theorem fold_unaffordable {w : Walk} (unseen : w.seen = []) (room : w.affordablePoint env = false) :
    ∀ {page : List String}, (∃ key ∈ page, isRecordKey key = true) →
      page.foldlM (fullKey env) w = .error { w with stop := .objectBudget } := by
  intro page
  induction page with
  | nil =>
      rintro ⟨key, mem, _⟩
      cases mem
  | cons key page ih =>
      rintro ⟨first, mem, record⟩
      have step := fullKey_step env w key
      rw [List.foldlM_cons]
      generalize fullKey env w key = r at step ⊢
      cases step with
      | passed other =>
          refine ih ⟨first, (List.mem_cons.mp mem).resolve_left fun same => ?_, record⟩
          rw [same, other] at record
          cases record
      | known _ seen =>
          rw [unseen] at seen
          cases seen
      | budget _ _ _ => rfl
      | examined _ _ afforded =>
          rw [room] at afforded
          cases afforded

theorem fold_affordable {w : Walk} (room : w.affordablePoint env = true) :
    ∀ {page : List String}, (∃ key ∈ page, isRecordKey key = true) → w.seen = [] →
      (final (page.foldlM (fullKey env) w)).seen ≠ [] := by
  intro page
  induction page with
  | nil =>
      rintro ⟨key, mem, _⟩
      cases mem
  | cons key page ih =>
      rintro ⟨first, mem, record⟩ unseen
      have step := fullKey_step env w key
      rw [List.foldlM_cons]
      generalize fullKey env w key = r at step ⊢
      cases step with
      | passed other =>
          refine ih ⟨first, (List.mem_cons.mp mem).resolve_left fun same => ?_, record⟩ unseen
          rw [same, other] at record
          cases record
      | known _ seen =>
          rw [unseen] at seen
          cases seen
      | budget _ _ short =>
          rw [room] at short
          cases short
      | examined _ _ _ =>
          refine final_foldlM (P := fun s : Walk => s.seen ≠ [])
            (fun s k _ some_ => fullKey_seen k some_) ?_
          rw [(take_taken env ofRecordKey _ key none).seen]
          exact List.cons_ne_nil _ _

theorem fullPages_seen : ∀ (n : Nat) (cursor : Option String) (firstListing : Bool) {w w' : Walk},
    w.seen ≠ [] → fullPages env n cursor firstListing w = .ok w' → w'.seen ≠ [] := by
  intro n
  induction n with
  | zero =>
      intro cursor firstListing w w' some_ ran
      cases ran
      exact some_
  | succ n ih =>
      intro cursor firstListing w w' some_ ran
      have page : ∀ keys : List String,
          (final (keys.foldlM (fullKey env) w.spend)).seen ≠ [] := fun keys =>
        final_foldlM (P := fun s : Walk => s.seen ≠ [])
          (fun s k _ held => fullKey_seen k held) some_
      have step := fullPages_step env n cursor firstListing w
      rw [ran] at step
      generalize answer : (Except.ok w' : Except StoreError Walk) = r at step
      cases step with
      | budget _ room => cases answer; exact some_
      | failed e room listed => cases answer
      | unreadable e room listed => cases answer; exact some_
      | empty _ room listed => cases answer; exact some_
      | stopped _ keys w₁ room listed _ read =>
          cases answer
          have kept := page keys
          rwa [read] at kept
      | last _ keys w₁ room listed _ read short =>
          cases answer
          have kept := page keys
          rwa [read] at kept
      | next _ keys w₁ room listed _ read full =>
          have kept := page keys
          rw [read] at kept
          exact ih keys.getLast? false kept answer.symm

theorem reaches_record (law : Lists env.access archive) {cursor : Option String}
    {page : List String} {objects : Nat}
    (listed : env.access.listPage pointsPrefix cursor rescanPageKeys = .ok page)
    (room : (Walk.having objects).affordable env = true)
    (some_ : ∃ key ∈ page, isRecordKey key = true) :
    Reaches env archive cursor objects ↔
      (Walk.having (objects + 1)).affordablePoint env = true := by
  have here := pagesBefore_record law listed some_
  have keys : recordKeysAfter archive cursor ≠ [] := by
    obtain ⟨key, mem, record⟩ := some_
    obtain ⟨rest, split⟩ := recordKeysAfter_front law listed
    rw [split]
    exact List.append_ne_nil_of_left_ne_nil
      (List.ne_nil_of_mem (List.mem_filter.mpr ⟨mem, record⟩)) rest
  constructor
  · intro reaches
    have point := reaches.point keys
    rwa [here, Nat.add_zero] at point
  · intro point
    refine ⟨fun j least => ?_, fun _ => by rwa [here, Nat.add_zero]⟩
    rw [here] at least
    obtain rfl := Nat.le_zero.mp least
    exact ⟨room, page, listed⟩

theorem reaches_end (law : Lists env.access archive) {cursor : Option String}
    {page : List String} {objects : Nat}
    (listed : env.access.listPage pointsPrefix cursor rescanPageKeys = .ok page)
    (room : (Walk.having objects).affordable env = true)
    (none_ : ∀ key ∈ page, isRecordKey key = false) (short : page.length < rescanPageKeys) :
    Reaches env archive cursor objects := by
  refine ⟨fun j least => ?_, fun some_ => ?_⟩
  · rw [pagesBefore_short law listed short] at least
    obtain rfl := Nat.le_zero.mp least
    exact ⟨room, page, listed⟩
  · rw [recordKeysAfter_short law listed short] at some_
    exact absurd (List.filter_eq_nil_iff.mpr fun key mem => by
      rw [none_ key mem]; exact Bool.false_ne_true) some_

theorem reaches_next (law : Lists env.access archive) {cursor : Option String}
    {page : List String} {objects : Nat}
    (listed : env.access.listPage pointsPrefix cursor rescanPageKeys = .ok page)
    (room : (Walk.having objects).affordable env = true)
    (none_ : ∀ key ∈ page, isRecordKey key = false) (full : ¬ page.length < rescanPageKeys) :
    Reaches env archive cursor objects ↔ Reaches env archive page.getLast? (objects + 1) := by
  have pages := pagesBefore_next law listed full none_
  have keys := recordKeysAfter_next law listed full none_
  have later : ∀ j, pageCursor archive cursor (j + 1) = pageCursor archive page.getLast? j :=
    fun j => by rw [pageCursor, ← law _ _ _ _ listed]
  have sum : ∀ j, objects + (j + 1) = objects + 1 + j := fun j => by omega
  constructor
  · intro reaches
    refine ⟨fun j least => ?_, fun some_ => ?_⟩
    · have one := reaches.listings (j + 1) (by rw [pages]; exact Nat.succ_le_succ least)
      rwa [sum, later] at one
    · have point := reaches.point (by rwa [keys])
      rwa [pages, sum] at point
  · intro reaches
    refine ⟨fun j least => ?_, fun some_ => ?_⟩
    · cases j with
      | zero => exact ⟨room, page, listed⟩
      | succ j =>
          rw [sum, later]
          exact reaches.listings j (by rw [pages] at least; exact Nat.le_of_succ_le_succ least)
    · rw [pages, sum]
      exact reaches.point (by rwa [keys] at some_)

section PageRead

variable (law : Lists env.access archive) {cursor : Option String} {page : List String}
  {w w' : Walk} (unseen : w.seen = []) (room : w.affordable env = true)
  (listed : env.access.listPage pointsPrefix cursor rescanPageKeys = .ok page)
include law unseen room listed

theorem page_afforded (some_ : ∃ key ∈ page, isRecordKey key = true)
    (read : page.foldlM (fullKey env) w.spend = .ok w') :
    w'.seen ≠ [] ∧ Reaches env archive cursor w.objects := by
  have point : w.spend.affordablePoint env = true := by
    cases short : w.spend.affordablePoint env with
    | true => rfl
    | false =>
        rw [fold_unaffordable (w := w.spend) unseen short some_] at read
        cases read
  have seen := fold_affordable point some_ unseen
  rw [read] at seen
  exact ⟨seen, (reaches_record law listed room some_).mpr point⟩

theorem page_stopped (read : page.foldlM (fullKey env) w.spend = .error w') :
    (w'.stop = .range ∨ w'.seen ≠ []) ↔ Reaches env archive cursor w.objects := by
  have some_ : ∃ key ∈ page, isRecordKey key = true := by
    by_contra none_
    simp only [not_exists, not_and, Bool.not_eq_true] at none_
    rw [fold_no_record none_] at read
    cases read
  obtain ⟨_, _, _, s, _, _, stopped⟩ := error_foldlM (Q := fun _ _ => True)
    (fun _ _ _ _ _ _ _ _ => trivial) (List.nil_append page) trivial read
  have stop : w'.stop = .objectBudget := by
    rw [(fullKey_error stopped).2.2]
  have ended : (w'.stop = .range ∨ w'.seen ≠ []) ↔ w'.seen ≠ [] :=
    or_iff_right fun finished => by rw [stop] at finished; cases finished
  rw [ended, reaches_record law listed room some_]
  cases point : w.spend.affordablePoint env with
  | false =>
      rw [fold_unaffordable (w := w.spend) unseen point some_] at read
      cases read
      refine iff_of_false (fun seen => seen unseen) fun afforded => ?_
      have same : w.spend.affordablePoint env = true := afforded
      rw [point] at same
      cases same
  | true =>
      have seen := fold_affordable point some_ unseen
      rw [read] at seen
      exact iff_of_true seen point

end PageRead

theorem fullPages_reaches (law : Lists env.access archive) :
    ∀ (n : Nat) (cursor : Option String) (firstListing : Bool) {w w' : Walk},
      w.seen = [] → w.stop = .range → env.req.maxObjectsPerRun ≤ n + w.objects →
      fullPages env n cursor firstListing w = .ok w' →
      ((w'.stop = .range ∨ w'.seen ≠ []) ↔ Reaches env archive cursor w.objects) := by
  intro n
  induction n with
  | zero =>
      intro cursor firstListing w w' unseen _ enough ran
      cases ran
      refine iff_of_false (fun either => either.elim WalkStop.noConfusion fun some_ =>
        some_ unseen) fun reaches => ?_
      have less := affordable_lt (reaches.listings 0 (Nat.zero_le _)).1
      simp only [Walk.having] at less
      omega
  | succ n ih =>
      intro cursor firstListing w w' unseen range enough ran
      have step := fullPages_step env n cursor firstListing w
      rw [ran] at step
      generalize answer : (Except.ok w' : Except StoreError Walk) = r at step
      cases step with
      | budget _ room =>
          cases answer
          refine iff_of_false (fun either => either.elim WalkStop.noConfusion fun some_ =>
            some_ unseen) fun reaches => ?_
          have here : w.affordable env = true := (reaches.listings 0 (Nat.zero_le _)).1
          rw [room] at here
          cases here
      | failed e room listed => cases answer
      | unreadable e room listed =>
          cases answer
          refine iff_of_false (fun either => either.elim WalkStop.noConfusion fun some_ =>
            some_ unseen) fun reaches => ?_
          obtain ⟨page, answered⟩ := (reaches.listings 0 (Nat.zero_le _)).2
          rw [pageCursor, listed] at answered
          cases answered
      | empty _ room listed =>
          cases answer
          exact iff_of_true (.inl range)
            (reaches_end law listed room (fun key mem => by cases mem) (by decide))
      | stopped _ page w₁ room listed _ read =>
          cases answer
          exact page_stopped law unseen room listed read
      | last _ page w₁ room listed _ read short =>
          cases answer
          by_cases some_ : ∃ key ∈ page, isRecordKey key = true
          · obtain ⟨seen, reaches⟩ := page_afforded law unseen room listed some_ read
            exact iff_of_true (.inr seen) reaches
          · simp only [not_exists, not_and, Bool.not_eq_true] at some_
            rw [fold_no_record some_] at read
            cases read
            exact iff_of_true (.inl range) (reaches_end law listed room some_ short)
      | next _ page w₁ room listed _ read full =>
          by_cases some_ : ∃ key ∈ page, isRecordKey key = true
          · obtain ⟨seen, reaches⟩ := page_afforded law unseen room listed some_ read
            exact iff_of_true (.inr (fullPages_seen n _ false seen answer.symm)) reaches
          · simp only [not_exists, not_and, Bool.not_eq_true] at some_
            rw [fold_no_record some_] at read
            cases read
            have unseen' : w.spend.seen = [] := unseen
            have enough' : env.req.maxObjectsPerRun ≤ n + w.spend.objects := by
              simp only [Walk.spend]
              omega
            rw [reaches_next law listed room some_ full]
            exact ih page.getLast? false unseen' range enough' answer.symm

theorem walkFull_reaches (law : Lists env.access archive) {w : Walk}
    (walked : walkFull env = .ok w) :
    (w.stop = .range ∨ w.seen ≠ []) ↔ Reaches env archive env.req.rescanStartAfter 0 :=
  fullPages_reaches law _ _ _ rfl rfl (by simp only [Walk.new]; omega) walked

structure FullRun (archive : Archive) where
  env : Env
  walk : Walk
  mode : env.req.mode = .full
  lists : Lists env.access archive
  walked : walkFull env = .ok walk

namespace FullRun

variable {archive : Archive} (r : FullRun archive)

def start : Option String := r.env.req.rescanStartAfter

def reported : Option String := (cursorDocument r.env.req r.walk).rescanStartAfter

def examined : List String := r.walk.seen.reverse

/-- The run starts at the beginning, or comes to a key after its cursor. -/
def ComesToAKey : Prop := r.start = none ∨ Reaches r.env archive r.start 0

/-- The cursor reported is not before the one the run started at. -/
def GoesOn : Prop := ∀ from_, r.start = some from_ → ∃ last, r.reported = some last ∧ from_ ≤ last

theorem reported_eq (stopped : r.walk.stop ≠ .range) : r.reported = r.walk.seen.head? := by
  obtain ⟨left, split, last, _⟩ := walkFull_resumes r.lists r.walked
  unfold reported cursorDocument
  simp only [r.mode, WalkStop.complete, decide_eq_true_eq, if_neg stopped, last]
  cases newest : r.walk.seen.head? with
  | none => rfl
  | some key =>
      have seen : key ∈ r.walk.seen.reverse := List.mem_reverse.mpr (List.mem_of_head? newest)
      have mem : key ∈ recordKeysAfter archive r.start :=
        split ▸ List.mem_append_left left seen
      obtain ⟨inRange, record⟩ := List.mem_filter.mp mem
      obtain ⟨id, valid, rfl⟩ := record_key_of (mem_under.mp inRange).2.1 record
      rw [Option.map_some, redactPath_recordKey valid]

theorem splits (comes : r.ComesToAKey) :
    recordKeysAfter archive r.start =
      r.examined ++ if r.walk.stop = .range then [] else recordKeysAfter archive r.reported := by
  obtain ⟨left, split, last, finished⟩ := walkFull_resumes r.lists r.walked
  by_cases range : r.walk.stop = .range
  · rw [if_pos range, ← finished range]
    exact split
  · rw [if_neg range, reported_eq r range]
    cases seen : r.walk.seen with
    | nil =>
        have none_ : r.start = none := comes.resolve_right fun reaches => by
          have either := (walkFull_reaches r.lists r.walked).mpr reaches
          exact either.elim range fun some_ => some_ seen
        rw [examined, seen, none_]
        rfl
    | cons key older =>
        rw [seen, List.reverse_cons, List.append_assoc] at split
        have here : recordKeysAfter archive (some key) = left := recordKeysAfter_some split
        rw [List.head?_cons, here, examined, seen, List.reverse_cons, List.append_assoc]
        exact split

theorem goesOn_iff (stopped : r.walk.stop ≠ .range) : r.GoesOn ↔ r.ComesToAKey := by
  have reaches := walkFull_reaches r.lists r.walked
  obtain ⟨left, split, _, _⟩ := walkFull_resumes r.lists r.walked
  unfold GoesOn ComesToAKey
  rw [reported_eq r stopped]
  constructor
  · intro goes
    cases start : r.start with
    | none => exact .inl rfl
    | some from_ =>
        obtain ⟨last, newest, _⟩ := goes from_ start
        refine .inr (start ▸ reaches.mp (.inr fun none_ => ?_))
        rw [none_] at newest
        cases newest
  · intro comes from_ start
    have come : Reaches r.env archive r.start 0 := comes.resolve_left fun none_ => by
      rw [none_] at start
      cases start
    cases seen : r.walk.seen with
    | nil => exact absurd seen ((reaches.mpr come).resolve_left stopped)
    | cons key older =>
        have mem : key ∈ recordKeysAfter archive r.start := by
          have first : key ∈ r.walk.seen.reverse := by rw [seen]; simp
          exact split ▸ List.mem_append_left left first
        have past := (mem_under.mp (List.mem_filter.mp mem).1).2.2 from_ start
        exact ⟨key, rfl, le_of_lt past⟩

end FullRun

/-- Each run starts at the cursor that the stopped one before it reported. -/
def Chained (runs : List (FullRun archive)) : Prop :=
  runs.IsChain fun r next => r.walk.stop ≠ .range ∧ next.start = r.reported

theorem chained_split : ∀ (r : FullRun archive) (runs : List (FullRun archive)),
    Chained (r :: runs) → (∀ q ∈ r :: runs, q.ComesToAKey) →
    ∃ left, recordKeysAfter archive r.start = (r :: runs).flatMap FullRun.examined ++ left ∧
      ∀ last, (r :: runs).getLast? = some last → last.walk.stop = .range → left = [] := by
  intro r runs
  induction runs generalizing r with
  | nil =>
      intro _ comes
      refine ⟨_, by simpa using r.splits (comes r List.mem_cons_self), fun last same range => ?_⟩
      cases same
      have here : r.walk.stop = .range := range
      rw [if_pos here]
  | cons next runs ih =>
      intro chained comes
      obtain ⟨⟨stopped, start⟩, rest⟩ := List.isChain_cons_cons.mp chained
      obtain ⟨left, split, finished⟩ := ih next rest fun q mem =>
        comes q (List.mem_cons_of_mem r mem)
      refine ⟨left, ?_, fun last same => finished last same⟩
      rw [r.splits (comes r List.mem_cons_self), if_neg stopped, ← start, split]
      simp only [List.flatMap_cons, List.append_assoc]

end Logweir.CatalogSync
