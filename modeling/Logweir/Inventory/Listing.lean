import Logweir.Inventory.Pages

/-!
# The listing the pages make

A stored inventory is read page by page.  Whatever chunks a page skips or leaves
for the next one, the pages that a client gets by following the cursors hold the
entries the filters keep, in order and once.
-/

set_option autoImplicit false

namespace Logweir.Inventory

open Std Logweir.Text Logweir.Api

/-- Entries in ascending name order, under names Kafka accepts, and where they
are stored. -/
structure Stored where
  entries : List TopicEntry
  jobName : String
  namespace_ : String
  owner : RunnerOwner
  legal : ∀ e ∈ entries, topicNameIsKafkaLegal e.name = true
  ascending : entries.Pairwise fun a b => ¬b.name < a.name
  /-- A vector's length is a `usize`. -/
  addressable : entries.length < 2 ^ 64

variable (state : AppState) (inv : Stored)

def Stored.chunks : List Chunk := split state.crates.sha256 inv.entries

def Stored.topicsSha256 : String := sha256Prefixed state.crates.sha256 (topicTsv inv.entries)

/-- The service finds the inventory under the workspace's discovery, with the
chunks its index names.  A namespace name has at most 63 bytes and a UID 36. -/
structure Serves (actor workspace id : String) : Prop where
  authorized : state.authorize actor workspace = .ok ()
  named : isDnsSubdomain id = true
  object : ∃ result : TopicInventoryResult, result.topicsSha256 = some (inv.topicsSha256 state) ∧
    result.chunks = some (chunkIndex inv.entries (inv.chunks state) inv.jobName) ∧
    state.discovery workspace id = .ok { uid := some inv.owner.uid, result := some result }
  documents : ∀ chunk ∈ inv.chunks state,
    state.configMap (chunkName inv.jobName chunk.index) =
      .ok (buildChunk inv.jobName inv.namespace_ inv.owner chunk (inv.chunks state).length)
  workspace_bytes : workspace.utf8ByteSize ≤ 63
  uid_bytes : inv.owner.uid.utf8ByteSize ≤ 36

/-- What `str::to_lowercase` does to a text's size and to its control characters. -/
structure Lowercases (toLowercase : String → String) : Prop where
  bytes : ∀ s, (toLowercase s).utf8ByteSize ≤ 2 * s.utf8ByteSize
  control : ∀ s, (∀ c ∈ s.toList, isControl c = false) →
    ∀ c ∈ (toLowercase s).toList, isControl c = false

def kept (filters : TopicFilters) (entries : List TopicEntry) : List TopicEntryView :=
  (entries.map TopicEntry.view).filter (filters.keeps state.toLowercase)

theorem controllerOwnerUid_buildChunk (owner : RunnerOwner) (jobName namespace_ : String)
    (chunk : Chunk) (total : Nat) :
    (buildChunk jobName namespace_ owner chunk total).resultDocument.controllerOwnerUid =
      some owner.uid := rfl

theorem annotation_buildChunk (owner : RunnerOwner) (jobName namespace_ : String)
    (chunk : Chunk) (total : Nat) :
    (buildChunk jobName namespace_ owner chunk total).resultDocument.annotation SHA256_ANNOTATION =
      some chunk.sha256 := by
  have other : compare CHUNK_ANNOTATION SHA256_ANNOTATION ≠ .eq := by decide
  have digest : (TreeMaps.ofEntries [(FORMAT_ANNOTATION, TOPIC_INVENTORY_FORMAT),
      (SHA256_ANNOTATION, chunk.sha256)] : ExtTreeMap String String compare)[SHA256_ANNOTATION]? =
        some chunk.sha256 := by
    rw [TreeMaps.ofEntries, List.foldl_cons, List.foldl_cons, List.foldl_nil,
      ExtTreeMap.getElem?_insert_self]
  exact (ExtTreeMap.getElem?_insert.trans (if_neg other)).trans digest

theorem chunkBody_stored {uid : String} {row : InventoryChunk} {index : Nat}
    {block : List TopicEntry} {owner : RunnerOwner} {jobName namespace_ : String} {total : Nat}
    (owned : owner.uid = uid) (digest : row.sha256 = (chunkOf state.crates.sha256 index block).sha256)
    (found : state.configMap row.name =
      .ok (buildChunk jobName namespace_ owner (chunkOf state.crates.sha256 index block) total)) :
    chunkBody state uid row = .ok (topicTsv block) := by
  let chunk := chunkOf state.crates.sha256 index block
  let document := (buildChunk jobName namespace_ owner chunk total).resultDocument
  have data : document.data.toList = [(CHUNK_KEY, topicTsv block)] := TreeMaps.toList_single _ _
  have text : document.data[CHUNK_KEY]? = some (topicTsv block) := by
    apply ExtTreeMap.mem_toList_iff_getElem?_eq_some.mp
    rw [data]
    exact List.mem_cons_self
  have served : getResultDocument state uid row.name = .ok document := by
    unfold getResultDocument
    rw [found]
    exact if_pos (.inl (owned ▸ controllerOwnerUid_buildChunk owner jobName namespace_ chunk total))
  have body : String.join (document.data.toList.map Prod.snd) = topicTsv block := by
    rw [data, List.map_singleton, String.join_cons, String.join_nil, String.append_empty]
  have verified : verifyDocument state document (some row.sha256) = .ok () := by
    have annotated : document.annotation SHA256_ANNOTATION = some row.sha256 :=
      digest ▸ annotation_buildChunk owner jobName namespace_ chunk total
    have hashed : sha256Prefixed state.crates.sha256
        (String.join (document.data.toList.map Prod.snd)) = row.sha256 := by
      rw [body, digest]
      rfl
    unfold verifyDocument
    rw [if_neg (fun unsealed => unsealed rfl)]
    simp only [annotated, ne_eq, not_true_eq_false, if_false, hashed]
  unfold chunkBody
  rw [served]
  simp only [verified, text, Option.getD_some]

theorem kept_append (filters : TopicFilters) (a b : List TopicEntry) :
    kept state filters (a ++ b) = kept state filters a ++ kept state filters b := by
  rw [kept, List.map_append, List.filter_append, kept, kept]

theorem kept_cons (filters : TopicFilters) (e : TopicEntry) (es : List TopicEntry) :
    kept state filters (e :: es) = kept state filters [e] ++ kept state filters es :=
  kept_append state filters [e] es

theorem scanLines_spec (filters : TopicFilters) {limit : Nat} (most : limit ≤ MAX_LIMIT) :
    ∀ (block : List TopicEntry) (items : List TopicEntryView) (consumed : Nat),
      (∀ e ∈ block, topicNameIsKafkaLegal e.name = true) → items.length < limit →
      ∃ taken left filled, block = taken ++ left ∧
        scanLines state filters limit (block.map TopicEntry.tsvBody) items consumed =
          (items ++ kept state filters taken, consumed + taken.length, filled) ∧
        if filled then (items ++ kept state filters taken).length = limit ∧ taken ≠ []
        else (items ++ kept state filters taken).length < limit ∧ left = [] := by
  intro block
  induction block with
  | nil =>
      intro items consumed _ room
      refine ⟨[], [], false, rfl, ?_, ?_⟩
      · exact Prod.ext (List.append_nil items).symm rfl
      · rw [kept, List.map_nil, List.filter_nil, List.append_nil]
        exact ⟨room, rfl⟩
  | cons e block ih =>
      intro items consumed legal room
      have rest : ∀ e' ∈ block, topicNameIsKafkaLegal e'.name = true :=
        fun e' member => legal e' (List.mem_cons_of_mem e member)
      have read := parseLine_tsvBody (legal e List.mem_cons_self)
      rw [List.map_cons, scanLines, read]
      simp only
      by_cases keeps : filters.keeps state.toLowercase e.view = true
      · have one : kept state filters [e] = [e.view] := by
          rw [kept, List.map_singleton, List.filter_singleton, keeps]
          rfl
        have count : (items ++ [e.view]).length = items.length + 1 := by
          rw [List.length_append, List.length_singleton]
        rw [keeps, if_neg (by decide)]
        have bound : MAX_LIMIT = 200 := rfl
        by_cases full : limit ≤ (items ++ [e.view]).length % 2 ^ 32
        · rw [if_pos full]
          refine ⟨[e], block, true, rfl, ?_, ?_⟩
          · rw [one]
            rfl
          · rw [one]
            exact ⟨by omega, List.cons_ne_nil _ _⟩
        · rw [if_neg full]
          obtain ⟨taken, left, filled, cut, scanned, stop⟩ :=
            ih (items ++ [e.view]) (consumed + 1) rest (by omega)
          refine ⟨e :: taken, left, filled, congrArg _ cut, ?_, ?_⟩
          · rw [scanned, kept_cons, one, List.append_assoc, List.length_cons]
            exact Prod.ext rfl (Prod.ext (by simp only; omega) rfl)
          · rw [kept_cons, one, ← List.append_assoc]
            cases filled with
            | true => exact ⟨stop.1, List.cons_ne_nil _ _⟩
            | false => exact stop
      · rw [Bool.not_eq_true] at keeps
        have none_ : kept state filters [e] = [] := by
          rw [kept, List.map_singleton, List.filter_singleton, keeps]
          rfl
        rw [keeps, if_pos (by decide)]
        obtain ⟨taken, left, filled, cut, scanned, stop⟩ := ih items (consumed + 1) rest room
        refine ⟨e :: taken, left, filled, congrArg _ cut, ?_, ?_⟩
        · rw [scanned, kept_cons, none_, List.nil_append, List.length_cons]
          exact Prod.ext rfl (Prod.ext (by simp only; omega) rfl)
        · rw [kept_cons, none_, List.nil_append]
          cases filled with
          | true => exact ⟨stop.1, List.cons_ne_nil _ _⟩
          | false => exact stop

theorem startsWith_iff {s start : String} :
    startsWith s start = true ↔ start.toList <+: s.toList := List.isPrefixOf_iff_prefix

theorem not_keeps_of_prefix {filters : TopicFilters} {entry : TopicEntryView}
    (some_ : filters.prefix_.isEmpty = false)
    (other : ¬filters.prefix_.toList <+: entry.name.toList) :
    filters.keeps state.toLowercase entry = false := by
  have not_ : startsWith entry.name filters.prefix_ = false := by
    rw [← Bool.not_eq_true, startsWith_iff]
    exact other
  rw [TopicFilters.keeps, some_, not_]
  rfl

theorem le_getLast {block : List TopicEntry} {last e : TopicEntry}
    (ascending : block.Pairwise fun a b => ¬b.name < a.name) (ends : block.getLast? = some last)
    (member : e ∈ block) : ¬last.name < e.name := by
  obtain ⟨front, rfl⟩ : ∃ front, block = front ++ [last] := List.getLast?_eq_some_iff.mp ends
  rcases List.mem_append.mp member with earlier | same
  · exact (List.pairwise_append.mp ascending).2.2 e earlier last List.mem_cons_self
  · rw [List.mem_singleton.mp same]
    exact List.lt_irrefl _

theorem head_le {block : List TopicEntry} {first e : TopicEntry}
    (ascending : block.Pairwise fun a b => ¬b.name < a.name) (starts : block.head? = some first)
    (member : e ∈ block) : ¬e.name < first.name := by
  obtain ⟨rest, rfl⟩ : ∃ rest, block = first :: rest := List.head?_eq_some_iff.mp starts
  rcases List.mem_cons.mp member with same | later
  · rw [same]
    exact List.lt_irrefl _
  · exact (List.pairwise_cons.mp ascending).1 e later

theorem kept_skipped {filters : TopicFilters} {jobName : String} {index : Nat}
    {block : List TopicEntry} (ascending : block.Pairwise fun a b => ¬b.name < a.name)
    (skips : skipsChunk filters (rowOf state.crates.sha256 jobName index block) = true) :
    ∀ e ∈ block, filters.keeps state.toLowercase e.view = false := by
  intro e member
  unfold skipsChunk rowOf at skips
  simp only [Bool.and_eq_true, Bool.not_eq_true', Bool.or_eq_true, Option.any_map,
    Option.any_eq_true] at skips
  obtain ⟨some_, ⟨last, ends, below⟩ | ⟨first, starts, above⟩⟩ := skips
  · apply not_keeps_of_prefix state some_
    intro starts
    have past := lt_of_lt_prefix starts (of_decide_eq_true below)
    exact le_getLast ascending ends member past
  · apply not_keeps_of_prefix state some_
    intro starts'
    have between := prefix_of_between starts' (of_decide_eq_true above.1)
      (head_le ascending starts member)
    have not_ := above.2
    rw [startsWith_iff.mpr between] at not_
    exact Bool.noConfusion not_

theorem kept_eq_nil {filters : TopicFilters} {entries : List TopicEntry}
    (none_ : ∀ e ∈ entries, filters.keeps state.toLowercase e.view = false) :
    kept state filters entries = [] := by
  apply List.filter_eq_nil_iff.mpr
  intro row member
  obtain ⟨e, here, rfl⟩ := List.mem_map.mp member
  rw [none_ e here]
  exact Bool.false_ne_true

def entriesFrom : List (List TopicEntry) → Nat → List TopicEntry
  | [], _ => []
  | block :: blocks, offset => block.drop offset ++ blocks.flatten

theorem entriesFrom_zero (blocks : List (List TopicEntry)) : entriesFrom blocks 0 = blocks.flatten := by
  cases blocks with
  | nil => rfl
  | cons block blocks => rfl

theorem entriesFrom_cons (block : List TopicEntry) (blocks : List (List TopicEntry))
    (offset : Nat) : entriesFrom (block :: blocks) offset =
      block.drop offset ++ entriesFrom blocks 0 := by
  rw [entriesFrom, entriesFrom_zero]

/-- What a page's scan did to the blocks from its position on: the blocks it left
behind, the ones still to come, and the entries in between. -/
structure Reached (filters : TopicFilters) (limit : Nat)
    (blocks gone rest : List (List TopicEntry)) (taken : List TopicEntry) (st st' : Scan) :
    Prop where
  cut : blocks = gone ++ rest
  index : st'.chunkIndex = st.chunkIndex + gone.length
  entries : entriesFrom blocks st.offset = taken ++ entriesFrom rest st'.offset
  items : st'.items = st.items ++ kept state filters taken
  budget : st.chunksScanned ≤ MAX_CHUNKS_PER_REQUEST → st'.chunksScanned ≤ MAX_CHUNKS_PER_REQUEST
  bound : ∀ n, st.offset ≤ n → (∀ block ∈ blocks, block.length ≤ n) → st'.offset ≤ n
  -- Why it stopped: at the end, with a full page, or with its budget spent.
  stop : (rest = [] ∧ st'.complete = st.complete ∧ st'.items.length < limit) ∨
    (rest ≠ [] ∧ st'.items.length = limit ∧ taken ≠ []) ∨
    (rest ≠ [] ∧ MAX_CHUNKS_PER_REQUEST ≤ st'.chunksScanned ∧
      (gone ≠ [] ∨ MAX_CHUNKS_PER_REQUEST ≤ st.chunksScanned))

theorem Reached.pass {filters : TopicFilters} {limit : Nat} {block : List TopicEntry}
    {blocks gone rest : List (List TopicEntry)} {taken : List TopicEntry} {st next st' : Scan}
    (later : Reached state filters limit blocks gone rest taken next st')
    (index : next.chunkIndex = st.chunkIndex + 1) (offset : next.offset = 0)
    (items : next.items = st.items ++ kept state filters (block.drop st.offset))
    (complete : next.complete = st.complete)
    (budget : st.chunksScanned ≤ MAX_CHUNKS_PER_REQUEST →
      next.chunksScanned ≤ MAX_CHUNKS_PER_REQUEST) :
    Reached state filters limit (block :: blocks) (block :: gone) rest
      (block.drop st.offset ++ taken) st st' where
  cut := congrArg (block :: ·) later.cut
  index := by rw [later.index, index, List.length_cons]; omega
  entries := by
    have entries := later.entries
    rw [offset] at entries
    rw [entriesFrom_cons, entries, List.append_assoc]
  items := by rw [later.items, items, kept_append, List.append_assoc]
  budget := fun within => later.budget (budget within)
  bound := fun n _ most => later.bound n (by rw [offset]; exact Nat.zero_le n)
    fun b member => most b (List.mem_cons_of_mem block member)
  stop := by
    rcases later.stop with ⟨done, whole, room⟩ | ⟨more, full, some_⟩ | ⟨more, spent, _⟩
    · exact .inl ⟨done, whole.trans complete, room⟩
    · exact .inr (.inl ⟨more, full, List.append_ne_nil_of_right_ne_nil _ some_⟩)
    · exact .inr (.inr ⟨more, spent, .inl (List.cons_ne_nil _ _)⟩)

/-- The chunks of some blocks, from a chunk number on, are where the scan looks. -/
structure Held (inv : Stored) (first : Nat) (blocks : List (List TopicEntry)) : Prop where
  found : ∀ i block, blocks[i]? = some block →
    state.configMap (chunkName inv.jobName (first + i)) =
      .ok (buildChunk inv.jobName inv.namespace_ inv.owner
        (chunkOf state.crates.sha256 (first + i) block) (inv.chunks state).length)
  legal : ∀ block ∈ blocks, ∀ e ∈ block, topicNameIsKafkaLegal e.name = true
  ascending : ∀ block ∈ blocks, block.Pairwise fun a b => ¬b.name < a.name

variable {state inv} in
theorem Held.tail {first : Nat} {block : List TopicEntry} {blocks : List (List TopicEntry)}
    (held : Held state inv first (block :: blocks)) : Held state inv (first + 1) blocks where
  found := by
    intro i b here
    have found := held.found (i + 1) b here
    rwa [← Nat.add_assoc, Nat.add_right_comm] at found
  legal := fun b member => held.legal b (List.mem_cons_of_mem block member)
  ascending := fun b member => held.ascending b (List.mem_cons_of_mem block member)

def rowsFrom (first : Nat) (blocks : List (List TopicEntry)) : List InventoryChunk :=
  blocks.mapIdx fun i block => rowOf state.crates.sha256 inv.jobName (first + i) block

theorem rowsFrom_cons (first : Nat) (block : List TopicEntry) (blocks : List (List TopicEntry)) :
    rowsFrom state inv first (block :: blocks) =
      rowOf state.crates.sha256 inv.jobName first block :: rowsFrom state inv (first + 1) blocks := by
  have shift (i : Nat) : first + (i + 1) = first + 1 + i := by omega
  rw [rowsFrom, List.mapIdx_cons, rowsFrom]
  simp only [← shift, Nat.add_zero]

theorem scanChunks_spec (filters : TopicFilters) {limit : Nat} (most : limit ≤ MAX_LIMIT) :
    ∀ (blocks : List (List TopicEntry)) (st : Scan), Held state inv st.chunkIndex blocks →
      st.items.length < limit → ∃ gone rest taken st',
        scanChunks state inv.owner.uid filters limit (rowsFrom state inv st.chunkIndex blocks) st =
          .ok st' ∧ Reached state filters limit blocks gone rest taken st st' := by
  intro blocks
  induction blocks with
  | nil =>
      intro st _ room
      refine ⟨[], [], [], st, rfl, rfl, rfl, rfl, ?_, id, fun n offset _ => offset, ?_⟩
      · exact (List.append_nil _).symm
      · exact .inl ⟨rfl, rfl, room⟩
  | cons block blocks ih =>
      intro st held room
      have legal := held.legal block List.mem_cons_self
      rw [rowsFrom_cons, scanChunks]
      by_cases spent : MAX_CHUNKS_PER_REQUEST ≤ st.chunksScanned
      · rw [if_pos spent]
        refine ⟨[], block :: blocks, [], _, rfl, rfl, rfl, rfl, ?_, id, fun n offset _ => offset, ?_⟩
        · exact (List.append_nil _).symm
        · exact .inr (.inr ⟨List.cons_ne_nil _ _, spent, .inr spent⟩)
      rw [if_neg spent]
      by_cases skips :
          skipsChunk filters (rowOf state.crates.sha256 inv.jobName st.chunkIndex block) = true
      · -- The index rules the whole block out, read or not.
        rw [if_pos skips]
        have none_ : kept state filters (block.drop st.offset) = [] := by
          apply kept_eq_nil
          intro e member
          exact kept_skipped state (held.ascending block List.mem_cons_self) skips e
            (List.mem_of_mem_drop member)
        obtain ⟨gone, rest, taken, st', scanned, reached⟩ :=
          ih { st with chunkIndex := st.chunkIndex + 1, offset := 0 } held.tail room
        refine ⟨block :: gone, rest, block.drop st.offset ++ taken, st', scanned, ?_⟩
        apply reached.pass state rfl rfl _ rfl id
        rw [none_, List.append_nil]
      rw [if_neg skips, chunkBody_stored state rfl rfl (held.found 0 block rfl)]
      simp only
      rw [lines_topicTsv block legal, ← List.map_drop]
      obtain ⟨seen, left, filled, cut, read, stop⟩ := scanLines_spec state filters most
        (block.drop st.offset) st.items st.offset
        (fun e member => legal e (List.mem_of_mem_drop member)) room
      rw [read]
      simp only
      cases filled with
      | true =>
          rw [if_pos rfl]
          have consumed : left = block.drop (st.offset + seen.length) := by
            rw [← List.drop_drop, cut, List.drop_left]
          refine ⟨[], block :: blocks, seen, _, rfl, rfl, rfl, ?_, rfl, ?_, ?_, ?_⟩
          · rw [entriesFrom_cons, entriesFrom_cons, cut, consumed, List.append_assoc]
          · intro within
            simp only
            omega
          · intro n offset bound
            have size := congrArg List.length cut
            have whole := bound block List.mem_cons_self
            rw [List.length_drop, List.length_append] at size
            simp only
            omega
          · exact .inr (.inl ⟨List.cons_ne_nil _ _, stop.1, stop.2⟩)
      | false =>
          rw [if_neg (by decide)]
          obtain ⟨room', rfl⟩ := stop
          rw [List.append_nil] at cut
          obtain ⟨gone, rest, taken, st', scanned, reached⟩ :=
            ih { chunkIndex := st.chunkIndex + 1, offset := 0,
                 items := st.items ++ kept state filters seen,
                 chunksScanned := st.chunksScanned + 1, complete := st.complete }
              held.tail room'
          refine ⟨block :: gone, rest, block.drop st.offset ++ taken, st', scanned, ?_⟩
          apply reached.pass state rfl rfl _ rfl
          · intro within
            simp only
            omega
          · rw [cut]

theorem openPosition_seal (documented : state.crates.Documented) {scope : CursorScope}
    {chunk offset : Nat} {issued now : DateTime} (chunkFits : chunk < 2 ^ 64)
    (offsetFits : offset < 2 ^ 64) (small : escaped scope.route + escaped scope.workspace +
      escaped scope.filters ≤ 2700)
    (fresh : now.timestamp < issued.timestamp + CURSOR_TTL_SECONDS) :
    openPosition state scope (seal_ state.crates state.cursorKey scope
      (positionToken chunk offset) issued) now = .ok (chunk, offset) := by
  have mark : ":".toList = [':'] := by decide
  have cut : splitOnce ':' (positionToken chunk offset) =
      some (toString chunk, toString offset) := by
    have plain : ':' ∉ (toString chunk).toList := not_mem_toString (by decide)
    rw [splitOnce, positionToken, String.toList_append, String.toList_append, mark,
      List.append_assoc, List.singleton_append, splitOnceChars_append plain]
    simp only [Option.map_some, String.ofList_toList]
  have token : positionToken chunk offset ≠ "" := by
    intro empty
    rw [empty] at cut
    cases cut
  have size : escaped (positionToken chunk offset) ≤ 82 := by
    have first := escaped_toString (n := chunk) (k := 20) (by decide) (by omega)
    have second := escaped_toString (n := offset) (k := 20) (by decide) (by omega)
    have between : escaped ":" = 2 := by decide
    rw [positionToken, escaped_append, escaped_append]
    omega
  have short := seal_short state.crates state.cursorKey documented scope
    (positionToken chunk offset) issued (by omega)
  rw [openPosition, open_seal state.crates state.cursorKey documented token short fresh]
  simp only [cut, parseUnsigned_toString chunkFits, parseUnsigned_toString offsetFits]

theorem bounded_ok {value : Option String} {field text : String}
    (accepted : bounded value field = (text, [])) :
    text.utf8ByteSize ≤ 249 ∧ ∀ c ∈ text.toList, isControl c = false := by
  unfold bounded at accepted
  split at accepted
  · obtain rfl := (Prod.mk.inj accepted).1
    exact ⟨by decide, fun c member => absurd member List.not_mem_nil⟩
  · split at accepted
    · exact nomatch (Prod.mk.inj accepted).2
    · rename_i fits
      obtain rfl := (Prod.mk.inj accepted).1
      rw [not_or, Nat.not_lt, Bool.not_eq_true, List.any_eq_false] at fits
      exact ⟨fits.1, fun c member => Bool.not_eq_true _ ▸ fits.2 c member⟩

theorem printable {c : Char} (plain : isControl c = false) : 32 ≤ c.toNat := by
  unfold isControl at plain
  rw [Bool.or_eq_false_iff] at plain
  exact Nat.not_lt.mp (of_decide_eq_false plain.1)

theorem parseFilters_small (lowercase : Lowercases state.toLowercase) {query : TopicsQuery}
    {filters : TopicFilters} (parsed : parseFilters state.toLowercase query = .ok filters) :
    escaped filters.q ≤ 996 ∧ escaped filters.prefix_ ≤ 498 := by
  unfold parseFilters at parsed
  simp only at parsed
  split at parsed
  · exact nomatch parsed
  · rename_i clean
    rw [Bool.not_eq_true, Bool.not_eq_false', List.isEmpty_iff, List.append_eq_nil_iff,
      List.append_eq_nil_iff, List.append_eq_nil_iff] at clean
    obtain ⟨⟨⟨q, prefix_⟩, _⟩, _⟩ := clean
    obtain rfl := Except.ok.inj parsed
    have low := bounded_ok (Prod.ext rfl q)
    have start := bounded_ok (Prod.ext rfl prefix_)
    have lowered := lowercase.bytes (bounded query.q "q").1
    constructor
    · refine Nat.le_trans (Nat.le_of_eq (escaped_plain fun c member =>
        printable (lowercase.control _ low.2 c member))) ?_
      exact Nat.mul_le_mul_left 2 (Nat.le_trans lowered (Nat.mul_le_mul_left 2 low.1))
    · refine Nat.le_trans (Nat.le_of_eq (escaped_plain fun c member => printable (start.2 c member))) ?_
      exact Nat.mul_le_mul_left 2 start.1

theorem topicsScope_small (documented : state.crates.Documented)
    (lowercase : Lowercases state.toLowercase) {actor workspace id : String}
    (serves : Serves state inv actor workspace id) {query : TopicsQuery} {filters : TopicFilters}
    (parsed : parseFilters state.toLowercase query = .ok filters) :
    let scope := topicsScope actor workspace filters inv.owner.uid (inv.topicsSha256 state)
    escaped scope.route + escaped scope.workspace + escaped scope.filters ≤ 2700 := by
  obtain ⟨q, prefix_⟩ := parseFilters_small state lowercase parsed
  have route : escaped ROUTE_TOPICS = 114 := by decide
  have space := Nat.le_trans (escaped_le workspace) (Nat.mul_le_mul_left 6 serves.workspace_bytes)
  have uid := Nat.le_trans (escaped_le inv.owner.uid) (Nat.mul_le_mul_left 6 serves.uid_bytes)
  have digest : escaped (inv.topicsSha256 state) = 142 := by
    have start : escaped "sha256:" = 14 := by decide
    rw [Stored.topicsSha256, sha256Prefixed, escaped_append, escaped_hexEncode,
      documented.sha256_length, start]
  have internal : escaped filters.internalWord ≤ 14 := by
    unfold TopicFilters.internalWord
    split <;> decide
  have errored : escaped filters.erroredWord ≤ 14 := by
    unfold TopicFilters.erroredWord
    split <;> decide
  have fixed : escaped "uid=" = 8 ∧ escaped "&topics=" = 16 ∧ escaped "&q=" = 6 ∧
      escaped "&prefix=" = 16 ∧ escaped "&internal=" = 20 ∧ escaped "&errored=" = 18 := by decide
  change escaped ROUTE_TOPICS + escaped workspace + escaped (filters.canonical inv.owner.uid
    (inv.topicsSha256 state)) ≤ 2700
  delta TopicFilters.canonical
  iterate 11 rw [escaped_append]
  omega

variable {actor workspace id : String} {query : TopicsQuery} {filters : TopicFilters}

theorem getObject_stored {discovery : TopicDiscovery} (named : isDnsSubdomain id = true)
    (found : state.discovery workspace id = .ok discovery) :
    getObject state workspace id = .ok discovery := by
  rw [getObject, named, found]
  rfl

/-- The blocks of a stored inventory, and the index and documents they are read by. -/
structure Blocks (gone rest : List (List TopicEntry)) : Prop where
  cut : inv.chunks state = (gone ++ rest).mapIdx (chunkOf state.crates.sha256)
  all : (gone ++ rest).flatten = inv.entries
  filled : ∀ block ∈ gone ++ rest, block ≠ []

variable {state inv} {gone rest : List (List TopicEntry)}

theorem Blocks.rows (blocks : Blocks state inv gone rest) :
    (chunkIndex inv.entries (inv.chunks state) inv.jobName).drop gone.length =
      rowsFrom state inv gone.length rest := by
  have index := chunkIndex_split state.crates.sha256 blocks.cut blocks.all inv.jobName
  have front : gone.length = (gone.mapIdx (rowOf state.crates.sha256 inv.jobName)).length :=
    List.length_mapIdx.symm
  rw [show inv.chunks state = split state.crates.sha256 inv.entries from rfl, index,
    List.mapIdx_append, front, List.drop_left, rowsFrom]
  simp only [List.length_mapIdx, Nat.add_comm]

theorem Blocks.rows_length (blocks : Blocks state inv gone rest) :
    (chunkIndex inv.entries (inv.chunks state) inv.jobName).length = gone.length + rest.length := by
  have index := chunkIndex_split state.crates.sha256 blocks.cut blocks.all inv.jobName
  rw [show inv.chunks state = split state.crates.sha256 inv.entries from rfl, index,
    List.length_mapIdx, List.length_append]

theorem Blocks.mem (blocks : Blocks state inv gone rest) {block : List TopicEntry}
    (member : block ∈ rest) {e : TopicEntry} (here : e ∈ block) : e ∈ inv.entries := by
  rw [← blocks.all, List.mem_flatten]
  exact ⟨block, List.mem_append_right gone member, here⟩

theorem Blocks.held (blocks : Blocks state inv gone rest)
    (serves : Serves state inv actor workspace id) : Held state inv gone.length rest where
  found := by
    intro i block here
    have chunk : chunkOf state.crates.sha256 (gone.length + i) block ∈ inv.chunks state := by
      rw [blocks.cut, List.mem_iff_getElem?]
      refine ⟨gone.length + i, ?_⟩
      rw [List.getElem?_mapIdx, List.getElem?_append_right (Nat.le_add_right _ _),
        Nat.add_sub_cancel_left, here]
      rfl
    have document := serves.documents _ chunk
    rw [show (chunkOf state.crates.sha256 (gone.length + i) block).index = gone.length + i from rfl]
      at document
    exact document
  legal := fun block member e here => inv.legal e (blocks.mem member here)
  ascending := by
    intro block member
    have all := inv.ascending
    rw [← blocks.all] at all
    exact (List.pairwise_flatten.mp all).1 block (List.mem_append_right gone member)

theorem topics_page (query : TopicsQuery) (now : DateTime)
    (serves : Serves state inv actor workspace id)
    (parsed : parseFilters state.toLowercase query = .ok filters) {limit : Nat}
    (limited : pageLimit query.limit = .ok limit) (positive : 0 < limit) (most : limit ≤ MAX_LIMIT)
    (blocks : Blocks state inv gone rest) {offset : Nat}
    (position : startPosition state (topicsScope actor workspace filters inv.owner.uid
      (inv.topicsSha256 state)) query.cursor now = .ok (gone.length, offset)) :
    ∃ gone' rest' taken st', Reached state filters limit rest gone' rest' taken
        { chunkIndex := gone.length, offset } st' ∧
      topics state actor workspace id query now = .ok
        { items := st'.items
          limit
          nextCursor := if rest' = [] then none else some (seal_ state.crates state.cursorKey
            (topicsScope actor workspace filters inv.owner.uid (inv.topicsSha256 state))
            (positionToken (gone.length + gone'.length) st'.offset) now)
          snapshot := some (inv.owner.uid ++ "@" ++ inv.topicsSha256 state)
          scan := { complete := decide (rest' = []), chunksScanned := st'.chunksScanned } } := by
  obtain ⟨gone', rest', taken, st', scanned, reached⟩ := scanChunks_spec state inv filters most rest
    { chunkIndex := gone.length, offset } (blocks.held serves) positive
  refine ⟨gone', rest', taken, st', reached, ?_⟩
  have index : st'.chunkIndex = gone.length + gone'.length := reached.index
  have length := blocks.rows_length
  have cut := congrArg List.length reached.cut
  rw [List.length_append] at cut
  have exhausted : decide ((chunkIndex inv.entries (inv.chunks state) inv.jobName).length ≤
      gone.length + gone'.length) = decide (rest' = []) := by
    rw [decide_eq_decide, length, cut]
    constructor
    · intro past
      exact List.eq_nil_of_length_eq_zero (by omega)
    · rintro rfl
      exact Nat.le_refl _
  have complete : (st'.complete && decide (rest' = [])) = decide (rest' = []) := by
    rcases reached.stop with ⟨_, whole, _⟩ | ⟨more, _⟩ | ⟨more, _⟩
    · rw [whole, Bool.true_and]
    · rw [decide_eq_false more, Bool.and_false]
    · rw [decide_eq_false more, Bool.and_false]
  obtain ⟨result, digest, index', found⟩ := serves.object
  unfold topics
  rw [serves.authorized, limited, parsed, getObject_stored state serves.named found]
  simp only [digest, index', Option.getD_some, position, blocks.rows, scanned, index, exhausted,
    complete, bind, Except.bind, pure, Except.pure, decide_eq_true_eq]

theorem length_le_flatten : ∀ {blocks : List (List TopicEntry)}, (∀ block ∈ blocks, block ≠ []) →
    blocks.length ≤ blocks.flatten.length
  | [], _ => Nat.le_refl 0
  | block :: blocks, filled => by
      have later := length_le_flatten fun b member => filled b (List.mem_cons_of_mem block member)
      have here := List.length_pos_iff.mpr (filled block List.mem_cons_self)
      rw [List.flatten_cons, List.length_append, List.length_cons]
      omega

theorem Blocks.gone_length (blocks : Blocks state inv gone rest) :
    gone.length ≤ inv.entries.length := by
  have filled := length_le_flatten blocks.filled
  rw [blocks.all, List.length_append] at filled
  omega

theorem Blocks.block_length (blocks : Blocks state inv gone rest) {block : List TopicEntry}
    (member : block ∈ rest) : block.length ≤ inv.entries.length := by
  rw [← blocks.all]
  exact (List.sublist_flatten_of_mem (List.mem_append_right gone member)).length_le

theorem Blocks.advance (blocks : Blocks state inv gone rest)
    {gone' rest' : List (List TopicEntry)} (cut : rest = gone' ++ rest') :
    Blocks state inv (gone ++ gone') rest' where
  cut := by rw [List.append_assoc, ← cut]; exact blocks.cut
  all := by rw [List.append_assoc, ← cut]; exact blocks.all
  filled := by rw [List.append_assoc, ← cut]; exact blocks.filled

theorem pageLimit_toString {n : Nat} (positive : 1 ≤ n) (most : n ≤ MAX_LIMIT) :
    pageLimit (some (toString n)) = .ok n := by
  have limit : MAX_LIMIT = 200 := rfl
  have read : parseUnsigned 32 (toString n) = some n := parseUnsigned_toString (by omega)
  rw [pageLimit]
  simp only [read]
  exact if_pos ⟨positive, most⟩

variable (state inv) (limits : Nat → Nat) (times : Nat → DateTime)

def pageRequest (actor workspace id : String) (query : TopicsQuery) (i : Nat)
    (cursor : Option String) : Except ApiError TopicPage :=
  topics state actor workspace id { query with limit := some (toString (limits i)), cursor }
    (times i)

def TopicPage.resume (page : TopicPage) : Option (Option String) := page.nextCursor.map some

/-- What a page says about the scan: that it is complete exactly when it is the
last, and otherwise that the page is full or the scan's budget spent. -/
structure Says (i : Nat) (page : TopicPage) : Prop where
  complete_iff : page.scan.complete = true ↔ page.nextCursor = none
  complete_room : page.scan.complete = true → page.items.length < limits i
  incomplete : page.scan.complete = false →
    page.items.length = limits i ∨ page.scan.chunksScanned = MAX_CHUNKS_PER_REQUEST

/-- The `i`-th request with this cursor starts where these rows are left, with
this many lines and chunks to read. -/
def Stands (actor workspace : String) (filters : TopicFilters) (i : Nat) (cursor : Option String)
    (left : List TopicEntryView) (work : Nat) : Prop :=
  ∃ gone rest offset, Blocks state inv gone rest ∧ offset ≤ inv.entries.length ∧
    left = kept state filters (entriesFrom rest offset) ∧
    work = (entriesFrom rest offset).length + rest.length ∧
    startPosition state (topicsScope actor workspace filters inv.owner.uid (inv.topicsSha256 state))
      cursor (times i) = .ok (gone.length, offset)

theorem stands_first (actor workspace : String) (filters : TopicFilters) : ∃ work,
    Stands state inv times actor workspace filters 0 none (kept state filters inv.entries) work := by
  obtain ⟨blocks, cut, all, filled⟩ := split_blocks state.crates.sha256 inv.entries
  refine ⟨_, [], blocks, 0, ⟨cut, all, filled⟩, Nat.zero_le _, ?_, rfl, rfl⟩
  rw [entriesFrom_zero, all]

variable {limits times}

theorem stands_page (documented : state.crates.Documented)
    (lowercase : Lowercases state.toLowercase) (serves : Serves state inv actor workspace id)
    (parsed : parseFilters state.toLowercase query = .ok filters)
    (inRange : ∀ i, 1 ≤ limits i ∧ limits i ≤ MAX_LIMIT)
    (fresh : ∀ i, (times (i + 1)).timestamp < (times i).timestamp + CURSOR_TTL_SECONDS)
    {i : Nat} {cursor : Option String} {left : List TopicEntryView} {work : Nat}
    (stands : Stands state inv times actor workspace filters i cursor left work) :
    ∃ page, pageRequest state limits times actor workspace id query i cursor = .ok page ∧
      Paging.Serves (Stands state inv times actor workspace filters) TopicPage.items
        TopicPage.resume (Says limits) i left work page := by
  obtain ⟨gone, rest, offset, blocks, within, rfl, rfl, position⟩ := stands
  obtain ⟨gone', rest', taken, st', reached, answered⟩ := topics_page
    { query with limit := some (toString (limits i)), cursor } (times i) serves parsed
    (pageLimit_toString (inRange i).1 (inRange i).2) (inRange i).1 (inRange i).2 blocks position
  have items : st'.items = kept state filters taken := reached.items
  have spent := reached.budget (Nat.zero_le _)
  have sizes := congrArg List.length reached.entries
  have chunks := congrArg List.length reached.cut
  rw [List.length_append] at sizes chunks
  simp only at sizes
  refine ⟨_, answered, ⟨?_, ?_, ?_⟩, kept state filters (entriesFrom rest' st'.offset), ?_, ?_, ?_⟩
  · simp only [decide_eq_true_eq]
    split <;> simp [*]
  · intro complete
    rcases reached.stop with ⟨_, _, room⟩ | ⟨more, _⟩ | ⟨more, _⟩
    · exact room
    · exact absurd (of_decide_eq_true complete) more
    · exact absurd (of_decide_eq_true complete) more
  · intro incomplete
    rcases reached.stop with ⟨done, _⟩ | ⟨_, full, _⟩ | ⟨_, budget, _⟩
    · exact absurd done (of_decide_eq_false incomplete)
    · exact .inl full
    · exact .inr (Nat.le_antisymm spent budget)
  · rw [reached.entries, kept_append]
    exact congrArg (· ++ _) items.symm
  · intro stops
    by_cases done : rest' = []
    · rw [done]
      rfl
    · rw [TopicPage.resume, if_neg done] at stops
      exact nomatch stops
  · intro next resumes
    by_cases done : rest' = []
    · rw [TopicPage.resume, if_pos done] at resumes
      exact nomatch resumes
    · rw [TopicPage.resume, if_neg done] at resumes
      obtain rfl := Option.some.inj resumes
      have offsetWithin := reached.bound inv.entries.length within fun block member =>
        blocks.block_length member
      have blocks' := blocks.advance reached.cut
      have fits := inv.addressable
      have front := blocks'.gone_length
      rw [List.length_append] at front
      refine ⟨(entriesFrom rest' st'.offset).length + rest'.length, ?_, gone ++ gone', rest',
        st'.offset, blocks', offsetWithin, rfl, rfl, ?_⟩
      · rcases reached.stop with ⟨none_, _⟩ | ⟨_, _, some_⟩ | ⟨_, _, some_ | over_⟩
        · exact absurd none_ done
        · have := List.length_pos_iff.mpr some_
          omega
        · have := List.length_pos_iff.mpr some_
          omega
        · have unspent : ¬MAX_CHUNKS_PER_REQUEST ≤ 0 := by decide
          exact absurd over_ unspent
      · have small := topicsScope_small state inv documented lowercase serves parsed
        have chunkFits : gone.length + gone'.length < 2 ^ 64 := by omega
        have offsetFits : st'.offset < 2 ^ 64 := by omega
        have opens := openPosition_seal state documented chunkFits offsetFits small (fresh i)
        rw [List.length_append]
        exact opens

/-- Following the cursors from the first page reads the inventory: in finitely
many pages, the rows of the entries the filters keep, in order and once. -/
theorem pages_read_inventory (documented : state.crates.Documented)
    (lowercase : Lowercases state.toLowercase) (serves : Serves state inv actor workspace id)
    (parsed : parseFilters state.toLowercase query = .ok filters)
    (inRange : ∀ i, 1 ≤ limits i ∧ limits i ≤ MAX_LIMIT)
    (fresh : ∀ i, (times (i + 1)).timestamp < (times i).timestamp + CURSOR_TTL_SECONDS) :
    ∃ n pages, Paging.follow (pageRequest state limits times actor workspace id query)
        TopicPage.resume n 0 none = .ok pages ∧
      pages.flatMap TopicPage.items =
        (inv.entries.map TopicEntry.view).filter (filters.keeps state.toLowercase) ∧
      ∀ k page, pages[k]? = some page →
        (page.nextCursor = none ↔ k + 1 = pages.length) ∧ Says limits k page := by
  obtain ⟨work, first⟩ := stands_first state inv times actor workspace filters
  obtain ⟨pages, read, _, whole⟩ := Paging.follow_whole
    (fun i cursor left work stands => stands_page state inv documented lowercase serves parsed
      inRange fresh stands) (work + 1) 0 none _ work first (Nat.lt_succ_self work)
  refine ⟨work + 1, pages, read, whole.items_eq, fun k page here => ⟨?_, ?_⟩⟩
  · have last := whole.last_iff k page here
    rwa [TopicPage.resume, Option.map_eq_none_iff] at last
  · have good := whole.good k page here
    rwa [Nat.zero_add] at good

def sampleInventory : Stored where
  entries := [{ name := "orders", partitions := 3 },
    { name := "payments", partitions := 6, expected := true, error := some .topicAuthorizationFailed }]
  jobName := "td-1-check"
  namespace_ := "logweir"
  owner := { apiVersion := "logweir.dev/v1alpha1", kind := "TopicDiscovery", name := "td-1",
             uid := "6f1d2c3b-0a4e-4b5c-8d6f-7e8091a2b3c4" }
  legal := by decide
  ascending := by decide
  addressable := by decide

def sampleSha256 (bytes : List UInt8) : List UInt8 :=
  if bytes = [97, 100, 97] then
    [253, 238, 67, 13, 64, 189, 87, 222, 234, 193, 134, 205, 151, 144, 3, 61, 15, 6, 249, 9, 168, 128,
      110, 124, 230, 231, 23, 171, 124, 125, 80, 41]
  else
    [70, 80, 189, 35, 253, 193, 49, 136, 112, 155, 6, 111, 50, 245, 145, 187, 108, 104, 46, 102, 135,
      192, 23, 14, 128, 115, 185, 64, 127, 219, 93, 238]

def sampleMac (_ bytes : List UInt8) : List UInt8 :=
  if bytes.reverse[2]? = some 49 then
    [36, 137, 58, 150, 194, 223, 159, 214, 62, 184, 174, 4, 217, 24, 158, 23, 80, 6, 199, 243, 192,
      136, 14, 17, 91, 255, 175, 202, 30, 161, 129, 9]
  else
    [75, 199, 242, 215, 48, 5, 215, 233, 71, 34, 96, 229, 26, 45, 14, 164, 235, 31, 91, 186, 245, 94,
      177, 26, 59, 232, 222, 122, 55, 32, 150, 155]

open Classical in
noncomputable def samplePayloadFromSlice (bytes : List UInt8) : Option Payload :=
  if written : ∃ p : Payload, Json.toVec p.json = bytes then some written.choose else none

noncomputable def sampleCrates : Crates where
  sha256 := sampleSha256
  mac := sampleMac
  payloadFromSlice := samplePayloadFromSlice

theorem sampleCrates_documented : sampleCrates.Documented where
  sha256_length := by
    intro bytes
    unfold sampleCrates sampleSha256
    simp only
    split <;> rfl
  mac_length := by
    intro key bytes
    unfold sampleCrates sampleMac
    simp only
    split <;> rfl
  read_back := by
    intro p _ _
    have written : ∃ p' : Payload, Json.toVec p'.json = Json.toVec p.json := ⟨p, rfl⟩
    have same := payload_json_injective (Json.toVec_injective written.choose_spec)
    exact (dif_pos written).trans (congrArg some same)

noncomputable def sampleState : AppState where
  crates := sampleCrates
  cursorKey := List.replicate 32 7
  toLowercase := fun s => s
  authorize := fun _ _ => .ok ()
  discovery := fun _ _ => .ok
    { uid := some sampleInventory.owner.uid
      result := some
        { format := TOPIC_INVENTORY_FORMAT
          clusterId := none
          brokerCount := some 3
          counts := { listed := 2, returned := 2, internalExcluded := 0, errored := 1 }
          truncated := false
          truncationReason := none
          visibility := { state := "unknown", basis := none, attestation := none }
          expected := none
          topicsSha256 := some (sha256Prefixed sampleSha256 (topicTsv sampleInventory.entries))
          chunks := some (chunkIndex sampleInventory.entries
            (split sampleSha256 sampleInventory.entries) sampleInventory.jobName) } }
  configMap := fun _ => .ok (buildChunk sampleInventory.jobName sampleInventory.namespace_
    sampleInventory.owner (chunkOf sampleSha256 0 sampleInventory.entries) 1)

theorem sampleInventory_chunks :
    split sampleSha256 sampleInventory.entries = [chunkOf sampleSha256 0 sampleInventory.entries] := by
  decide +kernel

theorem sampleState_lowercase : Lowercases sampleState.toLowercase where
  bytes := fun s => Nat.le_mul_of_pos_left s.utf8ByteSize (by decide)
  control := fun s plain => plain

theorem sampleState_serves : Serves sampleState sampleInventory "ada" "team-a" "td-1" where
  authorized := rfl
  named := by decide
  object := ⟨_, rfl, rfl, rfl⟩
  documents := by
    intro chunk member
    have chunks : sampleInventory.chunks sampleState = [chunkOf sampleSha256 0 sampleInventory.entries] :=
      sampleInventory_chunks
    rw [chunks] at member ⊢
    rw [List.mem_singleton.mp member]
    rfl
  workspace_bytes := by decide
  uid_bytes := by decide

def sampleFilters : TopicFilters where
  q := ""
  prefix_ := ""
  internal := .include_
  errored := .include_

def sampleNow : DateTime := ⟨1800000000, by decide⟩

/-- Two topics read one a page. -/
theorem two_topics_one_a_page : ∃ n pages,
    Paging.follow (pageRequest sampleState (fun _ => 1) (fun _ => sampleNow) "ada" "team-a" "td-1"
      { internal := some "include" }) TopicPage.resume n 0 none = .ok pages ∧
    pages.flatMap TopicPage.items =
      (sampleInventory.entries.map TopicEntry.view).filter (sampleFilters.keeps sampleState.toLowercase) ∧
    ∀ k page, pages[k]? = some page →
      (page.nextCursor = none ↔ k + 1 = pages.length) ∧ Says (fun _ => 1) k page :=
  pages_read_inventory sampleState sampleInventory sampleCrates_documented sampleState_lowercase
    sampleState_serves rfl (fun _ => ⟨by decide, by decide⟩) fun _ => by decide

/-- A page that its limit fills with the last entries does not say it is complete. -/
theorem full_last_page_not_complete :
    Serves sampleState sampleInventory "ada" "team-a" "td-1" ∧
    ((topics sampleState "ada" "team-a" "td-1" { limit := some (toString 2) } sampleNow).toOption.map
      fun page => (page.items, page.scan)) =
      some (sampleInventory.entries.map TopicEntry.view, { complete := false, chunksScanned := 1 }) := by
  refine ⟨sampleState_serves, ?_⟩
  decide +kernel

end Logweir.Inventory
