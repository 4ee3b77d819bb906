import Logweir.CatalogSync.Coverage

/-!
# Resuming a `Full` rescan

A rescan examines the record keys after its cursor in their order, and the last one it
examined is the cursor of the rescan after it.  One that stops before its first record key
reports no cursor.
-/

set_option autoImplicit false

namespace Logweir.CatalogSync

open Logweir.Catalog Logweir.Loops Logweir.KeyRange

variable {env : Env} {archive : Archive}

def recordKeysAfter (archive : Archive) (start : Option String) : List String :=
  (under archive.keys pointsPrefix start).filter isRecordKey

theorem recordKeysAfter_nodup (archive : Archive) (start : Option String) :
    (recordKeysAfter archive start).Nodup :=
  ((pairwise_under archive.ascending pointsPrefix start).filter _).imp fun less => ne_of_lt less

theorem recordKeysAfter_some {start : Option String} {done left : List String} {last : String}
    (split : recordKeysAfter archive start = done ++ last :: left) :
    recordKeysAfter archive (some last) = left := by
  obtain ⟨front, back, whole, _, rest⟩ := List.filter_eq_append_iff.mp split
  obtain ⟨passed, after, back_split, _, _, kept⟩ := List.filter_eq_cons_iff.mp rest
  have here : under archive.keys pointsPrefix start = (front ++ passed) ++ last :: after := by
    rw [whole, back_split, List.append_assoc]
  unfold recordKeysAfter
  rw [under_some_of_split archive.ascending here, kept]

inductive KeyStep (env : Env) (w : Walk) (key : String) : Except Walk Walk → Prop
  | passed (other : isRecordKey key = false) : KeyStep env w key (.ok w)
  | known (record : isRecordKey key = true) (seen : key ∈ w.seen) : KeyStep env w key (.ok w)
  | budget (record : isRecordKey key = true) (new : key ∉ w.seen)
      (room : w.affordablePoint env = false) :
      KeyStep env w key (.error { w with stop := .objectBudget })
  | examined (record : isRecordKey key = true) (new : key ∉ w.seen)
      (room : w.affordablePoint env = true) :
      KeyStep env w key (.ok ({ w with lastRecordKey := some key }.take env key
        (ofRecordKey key) none))

theorem fullKey_step (env : Env) (w : Walk) (key : String) :
    KeyStep env w key (fullKey env w key) := by
  unfold fullKey
  cases file : recordFile.toList.isSuffixOf key.toList with
  | false =>
      simp only [Bool.not_false, if_true]
      exact .passed (by rw [isRecordKey, file, Bool.false_and])
  | true =>
      simp only [Bool.not_true, Bool.false_eq_true, if_false]
      cases named : isPointId (pointIdOfRecordKey key) with
      | false =>
          simp only [Bool.not_false, if_true, ite_self]
          exact .passed (by rw [isRecordKey, file, named, Bool.true_and])
      | true =>
          have record : isRecordKey key = true := by rw [isRecordKey, file, named, Bool.true_and]
          simp only [Bool.not_true, Bool.false_eq_true, if_false]
          by_cases seen : key ∈ w.seen
          · rw [if_pos (List.contains_iff_mem.mpr seen)]
            exact .known record seen
          · rw [if_neg fun known => seen (List.contains_iff_mem.mp known)]
            cases room : w.affordablePoint env with
            | false =>
                simp only [Bool.not_false, if_true]
                exact .budget record seen room
            | true =>
                simp only [Bool.not_true, Bool.false_eq_true, if_false]
                exact .examined record seen room

/-- A walk inside a page: the record keys read of it are the newest names seen. -/
structure PageDone (done read : List String) (w : Walk) : Prop where
  seen : w.seen.reverse = done ++ read.filter isRecordKey
  last : w.lastRecordKey = w.seen.head?
  range : w.stop = .range

theorem PageDone.step {done front back : List String} {key : String} {w w' : Walk}
    (once : (done ++ (front ++ key :: back).filter isRecordKey).Nodup)
    (before : PageDone done front w) (stepped : fullKey env w key = .ok w') :
    PageDone done (front ++ [key]) w' := by
  have step := fullKey_step env w key
  rw [stepped] at step
  generalize answer : (Except.ok w' : Except Walk Walk) = r at step
  cases step with
  | passed other =>
      cases answer
      refine ⟨?_, before.last, before.range⟩
      rw [before.seen, List.filter_append, List.filter_cons, other]
      simp
  | known record seen =>
      rw [← List.mem_reverse, before.seen] at seen
      rw [List.filter_append, List.filter_cons, if_pos record, ← List.append_assoc] at once
      exact absurd rfl ((List.nodup_append.mp once).2.2 key seen key List.mem_cons_self)
  | budget record new room => cases answer
  | examined record new room =>
      cases answer
      have taken := take_taken env ofRecordKey { w with lastRecordKey := some key } key none
      refine ⟨?_, ?_, taken.stop.trans before.range⟩
      · rw [taken.seen, List.reverse_cons, before.seen, List.filter_append, List.filter_cons,
          if_pos record]
        simp
      · rw [taken.seen, taken.lastRecordKey]
        rfl

theorem fullKey_error {key : String} {w w' : Walk} (stepped : fullKey env w key = .error w') :
    isRecordKey key = true ∧ w.affordablePoint env = false ∧
      w' = { w with stop := .objectBudget } := by
  have step := fullKey_step env w key
  rw [stepped] at step
  generalize answer : (Except.error w' : Except Walk Walk) = r at step
  cases step with
  | passed other => cases answer
  | known record seen => cases answer
  | budget record new room =>
      cases answer
      exact ⟨record, room, rfl⟩
  | examined record new room => cases answer

/-- What a rescan from a cursor adds to the names seen, and what it leaves: both together are
the record keys after the cursor. -/
structure Resumes (archive : Archive) (cursor : Option String) (w w' : Walk)
    (more left : List String) : Prop where
  seen : w'.seen.reverse = w.seen.reverse ++ more
  split : recordKeysAfter archive cursor = more ++ left
  last : w'.lastRecordKey = w'.seen.head?
  range : w'.stop = .range → left = []

theorem recordKeysAfter_page (law : Lists env.access archive) {cursor : Option String}
    {page : List String}
    (listed : env.access.listPage pointsPrefix cursor rescanPageKeys = .ok page)
    (full : ¬ page.length < rescanPageKeys) :
    recordKeysAfter archive cursor =
      page.filter isRecordKey ++ recordKeysAfter archive page.getLast? := by
  unfold recordKeysAfter
  rw [page_full law listed full (by decide), List.filter_append]

theorem recordKeysAfter_short (law : Lists env.access archive) {cursor : Option String}
    {page : List String}
    (listed : env.access.listPage pointsPrefix cursor rescanPageKeys = .ok page)
    (short : page.length < rescanPageKeys) :
    recordKeysAfter archive cursor = page.filter isRecordKey := by
  unfold recordKeysAfter
  rw [page_short law listed short]

theorem recordKeysAfter_front (law : Lists env.access archive) {cursor : Option String}
    {page : List String}
    (listed : env.access.listPage pointsPrefix cursor rescanPageKeys = .ok page) :
    ∃ rest, recordKeysAfter archive cursor = page.filter isRecordKey ++ rest := by
  by_cases short : page.length < rescanPageKeys
  · exact ⟨[], by rw [recordKeysAfter_short law listed short, List.append_nil]⟩
  · exact ⟨_, recordKeysAfter_page law listed short⟩

theorem PageDone.start {w : Walk} (last : w.lastRecordKey = w.seen.head?)
    (range : w.stop = .range) : PageDone w.seen.reverse [] w.spend :=
  ⟨by simp [Walk.spend], last, range⟩

theorem page_ok {page : List String} {w w' : Walk}
    (once : (w.seen.reverse ++ page.filter isRecordKey).Nodup)
    (last : w.lastRecordKey = w.seen.head?) (range : w.stop = .range)
    (ran : page.foldlM (fullKey env) w.spend = .ok w') :
    PageDone w.seen.reverse page w' :=
  ok_foldlM (Q := PageDone w.seen.reverse)
    (fun _ _ _ _ _ all before stepped => before.step (all ▸ once) stepped)
    (List.nil_append page) (PageDone.start last range) ran

theorem page_error {page : List String} {w w' : Walk}
    (once : (w.seen.reverse ++ page.filter isRecordKey).Nodup)
    (last : w.lastRecordKey = w.seen.head?) (range : w.stop = .range)
    (ran : page.foldlM (fullKey env) w.spend = .error w') :
    w'.stop = .objectBudget ∧ w'.lastRecordKey = w'.seen.head? ∧
      ∃ more rest, w'.seen.reverse = w.seen.reverse ++ more ∧
        page.filter isRecordKey = more ++ rest := by
  obtain ⟨front, key, back, s, all, before, stopped⟩ := error_foldlM
    (Q := PageDone w.seen.reverse)
    (fun _ _ _ _ _ all before stepped => before.step (all ▸ once) stepped)
    (List.nil_append page) (PageDone.start last range) ran
  obtain ⟨_, _, rfl⟩ := fullKey_error stopped
  refine ⟨rfl, before.last, front.filter isRecordKey, (key :: back).filter isRecordKey,
    before.seen, ?_⟩
  rw [← all, List.filter_append]

theorem fullPages_resumes (law : Lists env.access archive) :
    ∀ (n : Nat) (cursor : Option String) (firstListing : Bool) {w w' : Walk},
      (w.seen.reverse ++ recordKeysAfter archive cursor).Nodup →
      w.lastRecordKey = w.seen.head? → w.stop = .range →
      fullPages env n cursor firstListing w = .ok w' →
      ∃ more left, Resumes archive cursor w w' more left := by
  intro n
  induction n with
  | zero =>
      intro cursor firstListing w w' _ last _ ran
      cases ran
      exact ⟨[], _, (List.append_nil _).symm, rfl, last, WalkStop.noConfusion⟩
  | succ n ih =>
      intro cursor firstListing w w' once last range ran
      have onPage : ∀ {page : List String},
          env.access.listPage pointsPrefix cursor rescanPageKeys = .ok page →
          (w.seen.reverse ++ page.filter isRecordKey).Nodup := fun listed => by
        obtain ⟨rest, split⟩ := recordKeysAfter_front law listed
        rw [split, ← List.append_assoc] at once
        exact (List.nodup_append.mp once).1
      have step := fullPages_step env n cursor firstListing w
      rw [ran] at step
      generalize answer : (Except.ok w' : Except StoreError Walk) = r at step
      cases step with
      | budget _ room =>
          cases answer
          exact ⟨[], _, (List.append_nil _).symm, rfl, last, WalkStop.noConfusion⟩
      | failed e room listed => cases answer
      | unreadable e room listed =>
          cases answer
          exact ⟨[], _, (List.append_nil _).symm, rfl, last, WalkStop.noConfusion⟩
      | empty _ room listed =>
          cases answer
          have none_ := recordKeysAfter_short law listed (by decide)
          exact ⟨[], [], (List.append_nil _).symm, none_, last, fun _ => rfl⟩
      | stopped _ page w₁ room listed some_ ran =>
          cases answer
          obtain ⟨stop, last', more, rest, seen, split⟩ := page_error (onPage listed) last range ran
          obtain ⟨later, front⟩ := recordKeysAfter_front law listed
          refine ⟨more, rest ++ later, seen, ?_, last', fun finished => ?_⟩
          · rw [front, split, List.append_assoc]
          · rw [stop] at finished
            cases finished
      | last _ page w₁ room listed some_ ran short =>
          cases answer
          have done := page_ok (onPage listed) last range ran
          exact ⟨_, [], done.seen, by rw [recordKeysAfter_short law listed short, List.append_nil],
            done.last, fun _ => rfl⟩
      | next _ page w₁ room listed some_ ran full =>
          have done := page_ok (onPage listed) last range ran
          have split := recordKeysAfter_page law listed full
          have once' : (w₁.seen.reverse ++ recordKeysAfter archive page.getLast?).Nodup := by
            rw [done.seen, List.append_assoc, ← split]
            exact once
          obtain ⟨more, left, rest⟩ := ih page.getLast? false once' done.last done.range answer.symm
          refine ⟨page.filter isRecordKey ++ more, left, ?_, ?_, rest.last, rest.range⟩
          · rw [rest.seen, done.seen, List.append_assoc]
          · rw [split, rest.split, List.append_assoc]

theorem walkFull_resumes (law : Lists env.access archive) {w : Walk}
    (walked : walkFull env = .ok w) :
    ∃ left, recordKeysAfter archive env.req.rescanStartAfter = w.seen.reverse ++ left ∧
      w.lastRecordKey = w.seen.head? ∧ (w.stop = .range → left = []) := by
  have once : (Walk.new.seen.reverse ++
      recordKeysAfter archive env.req.rescanStartAfter).Nodup :=
    recordKeysAfter_nodup archive env.req.rescanStartAfter
  obtain ⟨more, left, resumes⟩ := fullPages_resumes law _ _ _ once rfl rfl walked
  have seen : w.seen.reverse = more := resumes.seen
  exact ⟨left, by rw [seen, resumes.split], resumes.last, resumes.range⟩

theorem stripSuffix_eq_some {end_ s rest : String} (cut : stripSuffix end_ s = some rest) :
    s = rest ++ end_ := by
  unfold stripSuffix at cut
  split at cut
  · rename_i ends
    cases cut
    have whole := List.suffix_iff_eq_append.mp (List.isSuffixOf_iff_suffix.mp ends)
    rw [← String.toList_inj, String.toList_append, String.toList_ofList, whole]
  · cases cut

theorem isPointId_hex {id : String} (valid : isPointId id = true) :
    ∃ hex : List Char, id.toList = "lwp1-".toList ++ hex ∧ hex.length = 32 ∧
      ∀ c ∈ hex, (c.isLower || c.isDigit) = true := by
  unfold isPointId at valid
  cases cut : Text.stripPrefix pointIdPrefix id with
  | none => simp [cut] at valid
  | some hex =>
      simp only [cut, Bool.and_eq_true, beq_iff_eq, List.all_eq_true] at valid
      refine ⟨hex.toList, ?_, valid.1, fun c mem => ?_⟩
      · rw [Text.stripPrefix_eq_some cut, String.toList_append]
        rfl
      · have legal := valid.2 c mem
        rcases Bool.or_eq_true _ _ ▸ legal with digit | letter
        · rw [digit, Bool.or_true]
        · rw [Bool.and_eq_true, decide_eq_true_eq, decide_eq_true_eq] at letter
          have low : (97 : Nat) ≤ c.toNat := letter.1
          have high : c.toNat ≤ 102 := letter.2
          have lower : c.isLower = true :=
            (Bool.and_eq_true _ _).mpr
              ⟨decide_eq_true low, decide_eq_true (Nat.le_trans high (by decide))⟩
          rw [lower, Bool.true_or]

theorem record_key_of {key : String} (starts : Text.startsWith key pointsPrefix = true)
    (record : isRecordKey key = true) : ∃ id, isPointId id = true ∧ key = recordKey id := by
  have valid := (Bool.and_eq_true _ _ ▸ record).2
  unfold pointIdOfRecordKey at valid
  cases cut : Text.stripPrefix pointsPrefix key with
  | none =>
      unfold Text.stripPrefix at cut
      unfold Text.startsWith at starts
      rw [if_pos starts] at cut
      cases cut
  | some rest =>
      have whole := Text.stripPrefix_eq_some cut
      rw [cut, Option.bind_some] at valid
      cases ends : stripSuffix recordFile rest with
      | none =>
          -- The whole key starts as the prefix does, so it is no id.
          rw [ends, Option.getD_none] at valid
          obtain ⟨hex, chars, _⟩ := isPointId_hex valid
          rw [whole, String.toList_append] at chars
          have second := congrArg (fun l : List Char => l[1]?) chars
          simp [pointsPrefix] at second
      | some id =>
          rw [ends, Option.getD_some] at valid
          refine ⟨id, valid, ?_⟩
          rw [whole, stripSuffix_eq_some ends, recordKey, String.append_assoc]

def keyFront : List Char := "logweir/catalog/v1/points/lwp1-".toList
def keyFile : List Char := "/record".toList

def recordKeyRun (hex : List Char) : List Char := keyFront ++ (hex ++ keyFile)

section KeyText

variable {hex : List Char} (legal : ∀ c ∈ hex, (c.isLower || c.isDigit) = true)
include legal

theorem recordKeyRun_all {p : Char → Bool} (front : keyFront.all p = true)
    (file : keyFile.all p = true) (digits : ∀ c, (c.isLower || c.isDigit) = true → p c = true) :
    ∀ c ∈ recordKeyRun hex, p c = true := by
  intro c mem
  unfold recordKeyRun at mem
  rw [List.mem_append, List.mem_append] at mem
  rcases mem with inFront | inHex | inFile
  · exact List.all_eq_true.mp front c inFront
  · exact digits c (legal c inHex)
  · exact List.all_eq_true.mp file c inFile

theorem recordKeyRun_public (length : hex.length = 32) :
    Redaction.isPublicIdentifier (recordKeyRun hex) = true := by
  have slash : '/' ∉ "lwp1-".toList ++ hex := by
    rw [List.mem_append, not_or]
    exact ⟨by decide, fun mem => absurd (legal '/' mem) (by decide)⟩
  have named : Redaction.isPublicName ("lwp1-".toList ++ hex) = true := by
    unfold Redaction.isPublicName
    rw [Bool.and_eq_true, decide_eq_true_eq, List.all_eq_true]
    refine ⟨by rw [List.length_append, length]; decide, fun c mem => ?_⟩
    rcases List.mem_append.mp mem with front | digits
    · have fixed : ("lwp1-".toList.all fun b =>
          b.isLower || b.isDigit || ['.', '-', '_', '='].contains b) = true := by decide
      exact List.all_eq_true.mp fixed c front
    · rw [legal c digits, Bool.true_or]
  have parts : Text.splitChars '/' (recordKeyRun hex) =
      ["logweir".toList, "catalog".toList, "v1".toList, "points".toList,
        "lwp1-".toList ++ hex, "record".toList] := by
    have front : keyFront = "logweir".toList ++ '/' :: ("catalog".toList ++ '/' ::
        ("v1".toList ++ '/' :: ("points".toList ++ '/' :: "lwp1-".toList))) := by decide
    have file : keyFile = '/' :: "record".toList := by decide
    rw [recordKeyRun, front, file]
    simp only [List.append_assoc, List.cons_append]
    rw [Text.splitChars_append (by decide), Text.splitChars_append (by decide),
      Text.splitChars_append (by decide), Text.splitChars_append (by decide),
      ← List.append_assoc, Text.splitChars_append slash, Text.splitChars_plain (by decide)]
  have forms : ([ "logweir".toList, "catalog".toList, "v1".toList, "points".toList,
      "record".toList ].all Redaction.isPublicForm) = true := by decide
  have every : ([ "logweir".toList, "catalog".toList, "v1".toList, "points".toList,
      "lwp1-".toList ++ hex, "record".toList ].all Redaction.isPublicForm) = true := by
    rw [List.all_eq_true] at forms ⊢
    intro c mem
    by_cases own : c = "lwp1-".toList ++ hex
    · rw [own, Redaction.isPublicForm, named]
      simp only [Bool.or_true, Bool.true_or]
    · refine forms c ?_
      simp only [List.mem_cons, own, false_or] at mem ⊢
      exact mem
  rw [Redaction.isPublicIdentifier, parts, every, Bool.true_or]

end KeyText

theorem redactPath_recordKey {id : String} (valid : isPointId id = true) :
    Redaction.redactPath (recordKey id) = recordKey id := by
  obtain ⟨hex, chars, length, legal⟩ := isPointId_hex valid
  have shape : (recordKey id).toList = recordKeyRun hex ++ '.' :: "json".toList := by
    have front : pointsPrefix.toList ++ "lwp1-".toList = keyFront := by decide
    have file : recordFile.toList = keyFile ++ '.' :: "json".toList := by decide
    rw [recordKey, String.toList_append, String.toList_append, chars, file, recordKeyRun, ← front]
    simp only [List.append_assoc]
  have plain : Redaction.PlainKey (recordKey id).toList := by
    have file : ('.' :: "json".toList).all (fun c =>
        c.isLower || c.isDigit || ['/', '-', '.'].contains c) = true := by decide
    intro c mem
    rw [shape, List.mem_append] at mem
    rcases mem with inRun | inFile
    · exact recordKeyRun_all (p := fun c => c.isLower || c.isDigit || ['/', '-', '.'].contains c)
        legal (by decide) (by decide) (fun d digit => by rw [digit, Bool.true_or]) c inRun
    · exact List.all_eq_true.mp file c inFile
  have run : ∀ c ∈ recordKeyRun hex, Redaction.isRunChar c = true :=
    recordKeyRun_all legal (by decide) (by decide) fun c digit => by
      unfold Redaction.isRunChar Char.isAlphanum Char.isAlpha
      rcases Bool.or_eq_true _ _ ▸ digit with lower | number
      · simp [lower]
      · simp [number]
  have long : Redaction.redactLongRunsInKeys (recordKey id).toList = (recordKey id).toList := by
    have kept : ∀ start, Redaction.writtenRun (fun _ run => Redaction.isPublicIdentifier run ||
        Redaction.isObjectKeyShaped run) start (recordKeyRun hex) = recordKeyRun hex :=
      fun start => by simp [Redaction.writtenRun, recordKeyRun_public legal length]
    unfold Redaction.redactLongRunsInKeys Redaction.redactRunsAt
    rw [shape, Redaction.redactRunsFrom_run _ run, List.nil_append, Redaction.redactRunsFrom,
      if_neg (by decide), kept]
    congr 1
  unfold Redaction.redactPath
  rw [Redaction.redactShapes_plain plain, long, String.ofList_toList]

end Logweir.CatalogSync
