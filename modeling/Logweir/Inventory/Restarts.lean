import Logweir.Inventory.Commit

/-!
# Passes over one finished check

Every interleaving of passes over one relay: each starts from a version a cache may
hold and from the policy in force then, may stop between any two calls, and may be
refused or lose an answer at any of them.  While every pass that touches a chunk cuts
where the passes before it cut, what is committed is whole and no pass meets a chunk
it did not mean.
-/

set_option autoImplicit false

namespace Logweir.Inventory

open Std Logweir.Text Logweir.CheckContract Logweir.Programs

/-- What the API server holds of one discovery.  `writers` remembers the passes whose
chunks were created. -/
structure Server where
  current : Version
  past : List Version
  maps : ExtTreeMap String ConfigMap compare
  ttl : Bool
  writers : List Start

def Server.Knows (s : Server) (v : Version) : Prop := v = s.current ∨ v ∈ s.past

instance (s : Server) (v : Version) : Decidable (s.Knows v) :=
  inferInstanceAs (Decidable (v = s.current ∨ v ∈ s.past))

def Server.write (s : Server) (v : Version) : Server :=
  { s with current := { v with resourceVersion := s.current.resourceVersion + 1 }
           past := s.current :: s.past }

def Server.serve (s : Server) (st : Start) : (c : Call) → c.Answer × Server
  | .createMap map =>
      if s.maps.contains map.name then (.error (.api 409), s)
      else (.ok (), { s with maps := s.maps.insert map.name map, writers := st :: s.writers })
  | .getMap name => (.ok s.maps[name]?, s)
  | .patchStatus resourceVersion patch =>
      if resourceVersion = s.current.resourceVersion then
        (.ok (), s.write { s.current with status := some ((s.current.status.getD {}).merge patch) })
      else (.error (.api 409), s)
  | .setTtl => (.ok (), { s with ttl := true })

inductive Reply where
  | answered
  | lost (e : KubeError)
  | refused (e : KubeError)

def Reply.possible : Reply → Bool
  | .lost e => !e.isConflict
  | _ => true

def Call.failed (e : KubeError) : (c : Call) → c.Answer
  | .createMap _ => .error e
  | .getMap _ => .error e
  | .patchStatus _ _ => .error e
  | .setTtl => .error e

def Server.reply (s : Server) (st : Start) : Reply → (c : Call) → c.Answer
  | .answered, c => (s.serve st c).1
  | .lost e, c => c.failed e
  | .refused e, c => c.failed e

def Server.after (s : Server) (st : Start) : Reply → Call → Server
  | .refused _, _ => s
  | _, c => (s.serve st c).2

abbrev Running := Flight Start Call Call.Answer KubeError Outcome

structure State where
  server : Server
  flights : List Running

inductive Action where
  /-- A pass reads a version and loads a policy. -/
  | start (st : Start)
  | call (flight : Nat) (reply : Reply)
  /-- Someone else writes the object's metadata or asks to cancel. -/
  | edit (generation : Option Int) (cancelRequested : Bool)

variable (R : Rendering) (subject : Subject)

def State.step (s : State) : Action → Option State
  | .start st =>
      if s.server.Knows st.version then
        some { s with flights := s.flights ++ [⟨st, [], subject.reconcile R st⟩] }
      else none
  | .call i reply =>
      match s.flights[i]? with
      | none => none
      | some f =>
          match f.next? with
          | none => none
          | some c =>
              if reply.possible then
                some { server := s.server.after f.start reply c
                       flights := s.flights.set i (f.advance (s.server.reply f.start reply)) }
              else none
  | .edit generation cancelRequested =>
      some { s with server := s.server.write { s.server.current with generation, cancelRequested } }

def run (s : State) : List Action → Option State
  | [] => some s
  | a :: as =>
      match s.step R subject a with
      | none => none
      | some s' => run s' as

/-- The pass whose call goes next cuts the relay where every pass cut it that created
a chunk before: asked of calls that create or read back a chunk. -/
def State.cutsAgree (s : State) : Action → Bool
  | .call i _ =>
      match s.flights[i]? with
      | none => true
      | some f =>
          match f.next? with
          | some (.createMap _) | some (.getMap _) =>
              s.server.writers.all fun w => subject.cut w.policy = subject.cut f.start.policy
          | _ => true
  | _ => true

def allAgree (s : State) : List Action → Bool
  | [] => true
  | a :: as =>
      s.cutsAgree subject a &&
        match s.step R subject a with
        | none => true
        | some s' => allAgree s' as

/-- Before the first pass over the relay: the discovery is under way and none of its
chunks is there. -/
structure Fresh (s : State) : Prop where
  flights : s.flights = []
  writers : s.server.writers = []
  ttl : s.server.ttl = false
  maps : ∀ i, s.server.maps[chunkName subject.jobName i]? = none
  older : ∀ v ∈ s.server.past, v.resourceVersion < s.server.current.resourceVersion
  unfinished : ∀ v, s.server.Knows v → v.isTerminal = false

/-- A row of an index and the chunk it names. -/
def Server.StoredAs (s : Server) (row : InventoryChunk) (data : String) : Prop :=
  ∃ map, s.maps[row.name]? = some map ∧ map.Keeps subject.owner.uid row.sha256 ∧
    (map.data.bind fun data => data[CHUNK_KEY]?) = some data ∧
    sha256Prefixed R.sha256 data = row.sha256 ∧ row.count = (lines data).length

/-- The committed result indexes chunks that are all there and are the whole inventory. -/
def Server.Complete (s : Server) : Prop :=
  ∃ result rows, s.current.status.bind TopicDiscoveryStatus.result = some result ∧
    result.chunks = some rows ∧ ∃ texts, List.Forall₂ (s.StoredAs R subject) rows texts ∧
    result.counts.returned = (lines (String.join texts)).length ∧
    result.topicsSha256 = some (sha256Prefixed R.sha256 (String.join texts))

def Server.Commits (s : Server) (entries : List TopicEntry) : Prop :=
  s.current.phase = PHASE_SUCCEEDED ∧
    ∃ result, s.current.status.bind TopicDiscoveryStatus.result = some result ∧
      result.topicsSha256 = some (topicTsvSha256 R.sha256 entries) ∧
      result.chunks = some (chunkIndex entries (split R.sha256 entries) subject.jobName) ∧
      result.counts.returned = entries.length

section

variable {R} {subject} {p p' : Policy}

theorem stored_of_cut (same : subject.cut p = subject.cut p') :
    subject.stored R p = subject.stored R p' := by
  rw [Subject.stored, Subject.stored, kept_of_cut same]

theorem stored_mapIdx {blocks : List (List TopicEntry)}
    (cut : split R.sha256 (subject.kept p) = blocks.mapIdx (chunkOf R.sha256)) :
    subject.stored R p = blocks.mapIdx fun i block => buildChunk subject.jobName
      subject.namespace_ subject.owner (chunkOf R.sha256 i block) blocks.length := by
  unfold Subject.stored Subject.objects
  simp only [cut, List.length_mapIdx]
  apply List.ext_getElem?
  intro i
  rw [List.getElem?_map, List.getElem?_mapIdx, List.getElem?_mapIdx, Option.map_map]
  rfl

theorem mem_stored {object : ConfigMap} (own : object ∈ subject.stored R p) :
    ∃ i, object.name = chunkName subject.jobName i ∧ (subject.stored R p)[i]? = some object := by
  obtain ⟨blocks, cut, -, -⟩ := split_blocks R.sha256 (subject.kept p)
  obtain ⟨i, here⟩ := List.mem_iff_getElem?.mp own
  refine ⟨i, ?_, here⟩
  rw [stored_mapIdx cut, List.getElem?_mapIdx, Option.map_eq_some_iff] at here
  obtain ⟨block, -, rfl⟩ := here
  rfl

theorem stored_inj {object object' : ConfigMap} (own : object ∈ subject.stored R p)
    (own' : object' ∈ subject.stored R p) (name : object.name = object'.name) :
    object = object' := by
  obtain ⟨i, named, here⟩ := mem_stored own
  obtain ⟨j, named', here'⟩ := mem_stored own'
  rw [named, named'] at name
  rw [chunkName_inj subject.jobName name, here'] at here
  exact (Option.some.inj here).symm

theorem accepts_stored {object : ConfigMap} (own : object ∈ subject.stored R p) :
    acceptsExisting object subject.owner.uid (object.sha256.getD "") = .ok () := by
  unfold Subject.stored Subject.objects at own
  obtain ⟨chunk, -, rfl⟩ := List.mem_map.mp own
  rw [sha256_buildChunk]
  exact acceptsExisting_ok.mpr (keeps_buildChunk _ _ _ chunk _)

theorem stored_eq_nil (empty : subject.stored R p = []) : subject.relay.topics = [] := by
  obtain ⟨blocks, cut, all, -⟩ := split_blocks R.sha256 (subject.kept p)
  rw [stored_mapIdx cut, List.mapIdx_eq_nil_iff] at empty
  rw [empty, List.flatten_nil] at all
  have some_ := p.some_
  have positive : 0 < subject.ceiling p := by
    unfold Subject.ceiling storableEntryCeiling effectiveMaxTopics MAX_STATUS_CHUNKS MAX_CHUNK_LINES
    omega
  unfold Subject.kept at all
  rcases List.take_eq_nil_iff.mp all.symm with none_ | none_
  · omega
  · exact none_

end

structure Server.Later (s s' : Server) : Prop where
  maps : ∀ {name : String} {map}, s.maps[name]? = some map → s'.maps[name]? = some map
  writers : ∀ {w}, w ∈ s.writers → w ∈ s'.writers
  knows : ∀ {v}, s.Knows v → s'.Knows v
  succeeded : s.current.phase = PHASE_SUCCEEDED → s'.current.status = s.current.status

theorem Server.Later.refl (s : Server) : s.Later s := ⟨id, id, id, fun _ => rfl⟩

theorem Server.knows_write (s : Server) (v : Version) {v' : Version} (known : s.Knows v') :
    (s.write v).Knows v' := by
  refine .inr (List.mem_cons.mpr ?_)
  exact known

section

variable {s s' : Server} {st : Start}

/-- What the pass was told holds of what the server has. -/
def Server.Bears (s : Server) (st : Start) (e : Event Call Call.Answer) : Prop :=
  match e with
  | ⟨.createMap map, .ok _⟩ => s.maps[map.name]? = some map ∧
      ∃ w ∈ s.writers, subject.cut w.policy = subject.cut st.policy
  | ⟨.getMap name, .ok (some map)⟩ => s.maps[name]? = some map ∧
      (∀ object ∈ subject.stored R st.policy, object.name = name → map = object) ∧
      ∃ w ∈ s.writers, subject.cut w.policy = subject.cut st.policy
  | ⟨.patchStatus _ patch, .ok _⟩ =>
      patch.phase = some PHASE_SUCCEEDED → s.current.phase = PHASE_SUCCEEDED
  | _ => True

variable {R} {subject}

theorem Server.Bears.later {e : Event Call Call.Answer} (later : s.Later s')
    (bears : s.Bears R subject st e) : s'.Bears R subject st e := by
  unfold Server.Bears at bears ⊢
  split at bears
  · obtain ⟨held, w, writer, cut⟩ := bears
    exact ⟨later.maps held, w, later.writers writer, cut⟩
  · obtain ⟨held, own, w, writer, cut⟩ := bears
    exact ⟨later.maps held, own, w, later.writers writer, cut⟩
  · intro succeeded
    have before := bears succeeded
    unfold Version.phase at before ⊢
    rw [later.succeeded before]
    exact before
  · trivial

end

/-- The commit is of the entries `p` keeps, and their chunks are there. -/
structure Server.Holds (s : Server) (p : Policy) : Prop where
  commits : s.Commits R subject (subject.kept p)
  stored : ∀ object ∈ subject.stored R p, s.maps[object.name]? = some object
  cut : (∃ w ∈ s.writers, subject.cut w.policy = subject.cut p) ∨ subject.relay.topics = []

def Version.reason (v : Version) : String :=
  (v.status.bind TopicDiscoveryStatus.reason).getD ""

structure Server.Sound (s : Server) : Prop where
  older : ∀ v ∈ s.past, v.resourceVersion < s.current.resourceVersion
  stored : ∀ i map, s.maps[chunkName subject.jobName i]? = some map →
    map.name = chunkName subject.jobName i ∧ ∃ w ∈ s.writers, map ∈ subject.stored R w.policy
  oneCut : ∀ w ∈ s.writers, ∀ w' ∈ s.writers, subject.cut w.policy = subject.cut w'.policy
  readable : ∀ w ∈ s.writers, subject.Readable R
  committed : s.current.phase = PHASE_SUCCEEDED → ∃ p, s.Holds R subject p
  ttl : s.ttl = true → s.current.phase = PHASE_SUCCEEDED
  reasons : subject.Readable R → ∀ v, s.Knows v → v.isTerminal = true →
    v.reason ≠ CheckCode.resultStorageConflict.asStr

/-- A pass under way read a version there was, and was told what is so. -/
structure Server.Backs (s : Server) (f : Running) : Prop where
  knows : s.Knows f.start.version
  follows : f.Follows (subject.Asks R) (subject.Ends R)
  told : ∀ e ∈ f.log, s.Bears R subject f.start e

section

variable {R} {subject} {s s' : Server} {st : Start} {log : Told}

theorem Server.Backs.later {f : Running} (later : s.Later s') (backs : s.Backs R subject f) :
    s'.Backs R subject f :=
  ⟨later.knows backs.knows, backs.follows, fun e member => (backs.told e member).later later⟩

theorem Server.Holds.later {p : Policy} (later : s.Later s') (holds : s.Holds R subject p) :
    s'.Holds R subject p := by
  obtain ⟨phase, found⟩ := holds.commits
  have same := later.succeeded phase
  refine ⟨⟨?_, ?_⟩, fun object own => later.maps (holds.stored object own), ?_⟩
  · unfold Version.phase at phase ⊢
    rw [same]
    exact phase
  · rw [same]
    exact found
  · exact holds.cut.imp_left fun ⟨w, writer, cut⟩ => ⟨w, later.writers writer, cut⟩

theorem Server.Sound.current (sound : s.Sound R subject) {v : Version} (known : s.Knows v)
    (number : v.resourceVersion = s.current.resourceVersion) : v = s.current := by
  rcases known with current | past
  · exact current
  · have older := sound.older v past
    omega

theorem accounted_stored (told : ∀ e ∈ log, s.Bears R subject st e) {object : ConfigMap}
    (own : object ∈ subject.stored R st.policy) (accounted : subject.Accounted log object) :
    s.maps[object.name]? = some object ∧
      ∃ w ∈ s.writers, subject.cut w.policy = subject.cut st.policy := by
  rcases accounted with created | ⟨existing, read, -⟩
  · exact told _ created
  · obtain ⟨held, same, writer⟩ := told _ read
    rw [same object own rfl] at held
    exact ⟨held, writer⟩

theorem not_rejected (told : ∀ e ∈ log, s.Bears R subject st e) {object : ConfigMap}
    (own : object ∈ subject.stored R st.policy) : ¬ subject.Rejected log object := by
  rintro ⟨existing, read, refused⟩
  obtain ⟨-, same, -⟩ := told _ read
  rw [same object own rfl] at refused
  exact refused (accepts_stored own)

theorem merge_result (stored patch : TopicDiscoveryStatus) {result : TopicInventoryResult}
    (sent : patch.result = some result) : ∃ merged, (stored.merge patch).result = some merged ∧
      merged.counts = result.counts ∧
      merged.topicsSha256 = result.topicsSha256.or merged.topicsSha256 ∧
      merged.chunks = result.chunks.or merged.chunks := by
  unfold TopicDiscoveryStatus.merge
  cases stored.result with
  | none =>
      rw [sent]
      exact ⟨result, rfl, rfl, by cases result.topicsSha256 <;> rfl, by cases result.chunks <;> rfl⟩
  | some old =>
      rw [sent]
      refine ⟨old.merge result, rfl, rfl, ?_, ?_⟩
      · unfold TopicInventoryResult.merge
        cases result.topicsSha256 <;> cases old.topicsSha256 <;> rfl
      · unfold TopicInventoryResult.merge
        cases result.chunks <;> cases old.chunks <;> rfl

theorem commits_of_publishes {status : TopicDiscoveryStatus} {p : Policy}
    (publishes : subject.Publishes R p status) (v : Version) :
    (s.write { v with status := some ((v.status.getD {}).merge status) }).Commits R subject
      (subject.kept p) := by
  obtain ⟨phase, -, inventory, verdict, counted, sent⟩ := publishes
  obtain ⟨merged, held, counts, digest, chunks⟩ := merge_result (v.status.getD {}) status sent
  refine ⟨?_, merged, held, digest, chunks, ?_⟩
  · change ((status.phase.or _).getD _) = _
    rw [phase]
    rfl
  · rw [counts]
    exact congrArg (fun n : Nat => (n : Int)) counted

end

/-- The condition on a call of the pass. -/
def Server.Agrees (s : Server) (st : Start) (c : Call) : Prop :=
  match c with
  | .createMap _ | .getMap _ => ∀ w ∈ s.writers, subject.cut w.policy = subject.cut st.policy
  | _ => True

section

variable {R} {subject} {s : Server} {st : Start} {log : Told} {c : Call}

theorem terminal_of_phase {v : Version} {phase : String} (phase_eq : v.phase = phase)
    (member : phase ∈ TERMINAL_PHASES) : v.isTerminal = true := by
  unfold Version.isTerminal
  rw [phase_eq]
  exact List.contains_iff_mem.mpr member

theorem Server.get_insert (s : Server) (map : ConfigMap) (name : String) :
    (s.maps.insert map.name map)[name]? = if map.name = name then some map else s.maps[name]? := by
  rw [ExtTreeMap.getElem?_insert]
  simp only [Std.compare_eq_iff_eq]

theorem Server.fresh_name {map : ConfigMap} (free : ¬ s.maps.contains map.name = true) :
    s.maps[map.name]? = none := by
  rw [ExtTreeMap.contains_eq_isSome_getElem?, Bool.not_eq_true, Option.isSome_eq_false_iff,
    Option.isNone_iff_eq_none] at free
  exact free

theorem serve_later (sound : s.Sound R subject) (known : s.Knows st.version)
    (asks : subject.Asks R st log c) : s.Later (s.serve st c).2 := by
  cases c with
  | createMap map =>
      unfold Server.serve
      simp only
      split
      · exact .refl s
      · rename_i free
        refine ⟨fun {name} held have_ => ?_, List.mem_cons_of_mem st, id, fun _ => rfl⟩
        change (s.maps.insert map.name map)[name]? = _
        rw [s.get_insert, if_neg fun same => ?_]
        · exact have_
        · rw [← same, s.fresh_name free] at have_
          cases have_
  | getMap name => exact .refl s
  | patchStatus number patch =>
      obtain ⟨read, unfinished, -⟩ := asks
      unfold Server.serve
      simp only
      split
      · rename_i same
        refine ⟨id, id, s.knows_write _, fun succeeded => ?_⟩
        rw [sound.current known (read.symm.trans same),
          terminal_of_phase succeeded (mem_terminal.mpr (.inl rfl))] at unfinished
        cases unfinished
      · exact .refl s
  | setTtl => exact ⟨id, id, id, fun _ => rfl⟩

theorem serve_bears (sound : s.Sound R subject)
    (asks : subject.Asks R st log c) (agrees : s.Agrees subject st c) :
    (s.serve st c).2.Bears R subject st ⟨c, (s.serve st c).1⟩ := by
  cases c with
  | createMap map =>
      unfold Server.serve
      simp only
      split
      · trivial
      · refine ⟨?_, st, List.mem_cons_self, rfl⟩
        change (s.maps.insert map.name map)[map.name]? = _
        rw [s.get_insert, if_pos rfl]
  | getMap name =>
      obtain ⟨-, object, own, rfl⟩ := asks
      change s.Bears R subject st ⟨.getMap object.name, .ok s.maps[object.name]?⟩
      cases held : s.maps[object.name]? with
      | none => trivial
      | some map =>
          obtain ⟨i, named, -⟩ := mem_stored own
          rw [named] at held
          obtain ⟨name, w, writer, written⟩ := sound.stored i map held
          have cut := agrees w writer
          rw [stored_of_cut cut] at written
          refine ⟨named ▸ held, fun other own' same => ?_, w, writer, cut⟩
          exact stored_inj written own' (name.trans (named.symm.trans same.symm))
  | patchStatus number patch =>
      unfold Server.serve
      simp only
      split
      · intro succeeded
        change (patch.phase.or _).getD _ = _
        rw [succeeded]
        rfl
      · trivial
  | setTtl => trivial

theorem failed_bears (e : KubeError) : s.Bears R subject st ⟨c, c.failed e⟩ := by
  cases c <;> trivial

end

section

variable {R} {subject} {s : Server} {st : Start} {log : Told}

theorem Server.Sound.create (sound : s.Sound R subject) {map : ConfigMap}
    (asks : subject.Asks R st log (.createMap map))
    (agrees : s.Agrees subject st (.createMap map)) (later : s.Later (s.serve st (.createMap map)).2) :
    (s.serve st (.createMap map)).2.Sound R subject := by
  obtain ⟨readable, own⟩ := asks
  obtain ⟨j, named, -⟩ := mem_stored own
  revert later
  unfold Server.serve
  simp only
  split
  · exact fun _ => sound
  intro later
  refine ⟨sound.older, fun i held have_ => ?_, ?_, ?_, fun succeeded => ?_, sound.ttl, sound.reasons⟩
  · change (s.maps.insert map.name map)[_]? = _ at have_
    rw [s.get_insert] at have_
    split at have_
    · rename_i name
      cases have_
      exact ⟨name, st, List.mem_cons_self, own⟩
    · obtain ⟨name, w, writer, written⟩ := sound.stored i held have_
      exact ⟨name, w, List.mem_cons_of_mem st writer, written⟩
  · intro w member w' member'
    rcases List.mem_cons.mp member with rfl | writer <;>
      rcases List.mem_cons.mp member' with rfl | writer'
    · rfl
    · exact (agrees w' writer').symm
    · exact agrees w writer
    · exact sound.oneCut w writer w' writer'
  · intro w member
    rcases List.mem_cons.mp member with rfl | writer
    · exact readable
    · exact sound.readable w writer
  · obtain ⟨p, holds⟩ := sound.committed succeeded
    exact ⟨p, holds.later later⟩

theorem Server.Sound.commit (sound : s.Sound R subject) (known : s.Knows st.version)
    (told : ∀ e ∈ log, s.Bears R subject st e) {number : Nat} {patch : TopicDiscoveryStatus}
    (asks : subject.Asks R st log (.patchStatus number patch)) :
    (s.serve st (.patchStatus number patch)).2.Sound R subject := by
  obtain ⟨read, unfinished, may⟩ := asks
  unfold Server.serve
  simp only
  split
  case isFalse => exact sound
  case isTrue same =>
  have current := sound.current known (read.symm.trans same)
  rw [current] at unfinished
  have under : s.current.phase ≠ PHASE_SUCCEEDED := fun succeeded => by
    rw [terminal_of_phase succeeded (mem_terminal.mpr (.inl rfl))] at unfinished
    cases unfinished
  refine ⟨?_, sound.stored, sound.oneCut, sound.readable, fun succeeded => ?_, fun set => ?_, ?_⟩
  · intro v member
    rcases List.mem_cons.mp member with rfl | past
    · exact Nat.lt_succ_self _
    · exact Nat.lt_succ_of_lt (sound.older v past)
  · obtain ⟨phase, -, sent⟩ := may.terminal
    have patched : patch.phase = some PHASE_SUCCEEDED := by
      change (patch.phase.or _).getD _ = _ at succeeded
      rw [sent, Option.some_or, Option.getD_some] at succeeded
      rw [sent, succeeded]
    obtain ⟨-, publishes, accounted⟩ := may.stored patched
    refine ⟨st.policy, commits_of_publishes publishes s.current, fun object own =>
      (accounted_stored told own (accounted object own)).1, ?_⟩
    cases objects : subject.stored R st.policy with
    | nil => exact .inr (stored_eq_nil objects)
    | cons object rest =>
        have own : object ∈ subject.stored R st.policy := objects ▸ List.mem_cons_self
        exact .inl (accounted_stored told own (accounted object own)).2
  · exact absurd (sound.ttl set) under
  · intro readable v known finished
    rcases known with rfl | past
    · obtain ⟨reason, sent⟩ := may.reason
      intro conflict
      change (patch.reason.or _).getD _ = _ at conflict
      rw [sent, Option.some_or, Option.getD_some] at conflict
      rw [conflict] at sent
      obtain ⟨object, own, rejected⟩ := may.conflict readable sent
      exact not_rejected told own rejected
    · exact sound.reasons readable v (List.mem_cons.mp past) finished

theorem Server.Sound.finish (sound : s.Sound R subject) (told : ∀ e ∈ log, s.Bears R subject st e)
    (asks : subject.Asks R st log .setTtl) : (s.serve st .setTtl).2.Sound R subject := by
  obtain ⟨patch, sent, succeeded⟩ := asks
  exact ⟨sound.older, sound.stored, sound.oneCut, sound.readable,
    fun phase => (sound.committed phase).imp fun p holds => ⟨holds.commits, holds.stored, holds.cut⟩,
    fun _ => told _ sent succeeded, sound.reasons⟩

theorem serve_sound (sound : s.Sound R subject) (known : s.Knows st.version)
    (told : ∀ e ∈ log, s.Bears R subject st e) : ∀ {c : Call}, subject.Asks R st log c →
      s.Agrees subject st c → (s.serve st c).2.Sound R subject
  | .createMap _, asks, agrees => sound.create asks agrees (serve_later sound known asks)
  | .getMap _, _, _ => sound
  | .patchStatus _ _, asks, _ => sound.commit known told asks
  | .setTtl, asks, _ => sound.finish told asks

theorem Server.Sound.edit (sound : s.Sound R subject) {v : Version}
    (status : v.status = s.current.status) :
    (s.write v).Sound R subject ∧ s.Later (s.write v) := by
  have phase : (s.write v).current.phase = s.current.phase := by
    unfold Version.phase
    exact congrArg (fun st : Option TopicDiscoveryStatus =>
      (st.bind TopicDiscoveryStatus.phase).getD PHASE_PENDING) status
  have later : s.Later (s.write v) := ⟨id, id, s.knows_write v, fun _ => status⟩
  refine ⟨⟨?_, sound.stored, sound.oneCut, sound.readable, fun succeeded => ?_, fun set => ?_, ?_⟩,
    later⟩
  · intro old member
    rcases List.mem_cons.mp member with rfl | past
    · exact Nat.lt_succ_self _
    · exact Nat.lt_succ_of_lt (sound.older old past)
  · rw [phase] at succeeded
    exact (sound.committed succeeded).imp fun p holds => holds.later later
  · rw [phase]
    exact sound.ttl set
  · intro readable w known finished
    rcases known with rfl | past
    · have reason : (s.write v).current.reason = s.current.reason := by
        unfold Version.reason
        exact congrArg (fun st : Option TopicDiscoveryStatus =>
          (st.bind TopicDiscoveryStatus.reason).getD "") status
      rw [reason]
      refine sound.reasons readable s.current (.inl rfl) ?_
      unfold Version.isTerminal at finished ⊢
      rw [← phase]
      exact finished
    · exact sound.reasons readable w (List.mem_cons.mp past) finished

end

structure State.Inv (s : State) : Prop where
  sound : s.server.Sound R subject
  backs : ∀ f ∈ s.flights, s.server.Backs R subject f

section

variable {R} {subject} {s s' s₀ : State}

theorem Fresh.inv (fresh : Fresh subject s) : s.Inv R subject where
  sound :=
    { older := fresh.older
      stored := fun i map held => by
        rw [fresh.maps i] at held
        cases held
      oneCut := fun w writer => by
        rw [fresh.writers] at writer
        cases writer
      readable := fun w writer => by
        rw [fresh.writers] at writer
        cases writer
      committed := fun succeeded => by
        have under := fresh.unfinished s.server.current (.inl rfl)
        rw [terminal_of_phase succeeded (mem_terminal.mpr (.inl rfl))] at under
        cases under
      ttl := fun set => by
        rw [fresh.ttl] at set
        cases set
      reasons := fun _ v known finished => by
        rw [fresh.unfinished v known] at finished
        cases finished }
  backs := fun f member => by
    rw [fresh.flights] at member
    cases member

theorem Server.Backs.advance {sv : Server} {f : Running} {c : Call} (reply : Reply)
    (sound : sv.Sound R subject) (backs : sv.Backs R subject f) (asked : f.next? = some c)
    (agrees : sv.Agrees subject f.start c) :
    (sv.after f.start reply c).Sound R subject ∧ sv.Later (sv.after f.start reply c) ∧
      (sv.after f.start reply c).Backs R subject (f.advance (sv.reply f.start reply)) := by
  have asks := backs.follows.call asked
  have served := serve_sound sound backs.knows backs.told asks agrees
  have later := serve_later sound backs.knows asks
  have told {sv' : Server} (later : sv.Later sv')
      (new : sv'.Bears R subject f.start ⟨c, sv.reply f.start reply c⟩) :
      sv'.Backs R subject (f.advance (sv.reply f.start reply)) := by
    refine ⟨?_, backs.follows.advance, fun e member => ?_⟩
    · rw [Flight.advance_start]
      exact later.knows backs.knows
    · rw [Flight.advance_log asked] at member
      rw [Flight.advance_start]
      rcases List.mem_append.mp member with old | latest
      · exact (backs.told e old).later later
      · rw [List.mem_singleton.mp latest]
        exact new
  cases reply with
  | answered => exact ⟨served, later, told later (serve_bears sound asks agrees)⟩
  | lost e => exact ⟨served, later, told later (failed_bears e)⟩
  | refused e => exact ⟨sound, .refl sv, told (.refl sv) (failed_bears e)⟩

theorem State.Inv.step (inv : s.Inv R subject) {a : Action} (agree : s.cutsAgree subject a = true)
    (stepped : s.step R subject a = some s') : s'.Inv R subject := by
  cases a with
  | start st =>
      unfold State.step at stepped
      simp only at stepped
      split at stepped
      · rename_i known
        cases stepped
        refine ⟨inv.sound, fun f member => ?_⟩
        rcases List.mem_append.mp member with old | new
        · exact inv.backs f old
        · rw [List.mem_singleton.mp new]
          exact ⟨known, reconcile_meets, fun e member => absurd member List.not_mem_nil⟩
      · cases stepped
  | call i reply =>
      unfold State.step at stepped
      unfold State.cutsAgree at agree
      simp only at stepped agree
      split at stepped
      · cases stepped
      rename_i f here
      split at stepped
      · cases stepped
      rename_i c asked
      rw [here] at agree
      simp only [asked] at agree
      split at stepped
      · cases stepped
        have backs := inv.backs f (List.mem_of_getElem? here)
        have agrees : s.server.Agrees subject f.start c := by
          cases c with
          | createMap map => exact fun w writer => of_decide_eq_true (List.all_eq_true.mp agree w writer)
          | getMap name => exact fun w writer => of_decide_eq_true (List.all_eq_true.mp agree w writer)
          | patchStatus number patch => trivial
          | setTtl => trivial
        obtain ⟨sound, later, advanced⟩ := backs.advance reply inv.sound asked agrees
        refine ⟨sound, fun g member => ?_⟩
        rcases List.mem_or_eq_of_mem_set member with old | rfl
        · exact (inv.backs g old).later later
        · exact advanced
      · cases stepped
  | edit generation cancelRequested =>
      cases stepped
      obtain ⟨sound, later⟩ := inv.sound.edit (v := { s.server.current with
        generation, cancelRequested }) rfl
      exact ⟨sound, fun f member => (inv.backs f member).later later⟩

theorem inv_run : ∀ (actions : List Action) {s : State}, s.Inv R subject →
    allAgree R subject s actions = true → run R subject s actions = some s' → s'.Inv R subject
  | [], s, inv, _, ran => by
      cases ran
      exact inv
  | a :: actions, s, inv, agree, ran => by
      rw [allAgree, Bool.and_eq_true] at agree
      obtain ⟨here, later⟩ := agree
      unfold run at ran
      cases stepped : s.step R subject a with
      | none =>
          rw [stepped] at ran
          cases ran
      | some next =>
          rw [stepped] at ran later
          exact inv_run actions (inv.step here stepped) later ran

end

section

variable {R} {subject} {s : Server}

theorem join_topicTsv (blocks : List (List TopicEntry)) :
    String.join (blocks.map topicTsv) = topicTsv blocks.flatten := by
  rw [← String.toList_inj]
  induction blocks with
  | nil => rfl
  | cons block blocks ih =>
      rw [List.map_cons, String.join_cons, String.toList_append, ih, toList_topicTsv,
        toList_topicTsv, toList_topicTsv, List.flatten_cons, List.flatMap_append]

theorem Server.Holds.complete {p : Policy} (holds : s.Holds R subject p) :
    s.Complete R subject := by
  obtain ⟨-, result, found, digest, rows, returned⟩ := holds.commits
  obtain ⟨blocks, cut, all, -⟩ := split_blocks R.sha256 (subject.kept p)
  have legal := legal_kept subject p
  have joined : String.join (blocks.map topicTsv) = topicTsv (subject.kept p) := by
    rw [join_topicTsv, all]
  refine ⟨result, _, found, rows, blocks.map topicTsv, ?_, ?_, ?_⟩
  · rw [chunkIndex_split R.sha256 cut all]
    rw [List.forall₂_iff_get]
    refine ⟨by rw [List.length_mapIdx, List.length_map], fun i inside inside' => ?_⟩
    have place : i < blocks.length := by rwa [List.length_mapIdx] at inside
    have block_legal : ∀ e ∈ blocks[i], topicNameIsKafkaLegal e.name = true := fun e member =>
      legal e (all ▸ List.mem_flatten_of_mem (List.getElem_mem place) member)
    have short : blocks[i].length ≤ MAX_TOPICS_CEILING := by
      refine Nat.le_trans ?_ (length_kept subject p)
      rw [← all]
      exact (List.sublist_flatten_of_mem (List.getElem_mem place)).length_le
    have own : buildChunk subject.jobName subject.namespace_ subject.owner
        (chunkOf R.sha256 i blocks[i]) blocks.length ∈ subject.stored R p := by
      rw [stored_mapIdx cut, List.mem_mapIdx]
      exact ⟨i, place, rfl⟩
    simp only [List.get_eq_getElem, List.getElem_mapIdx, List.getElem_map]
    refine ⟨_, holds.stored _ own, keeps_buildChunk _ _ _ _ _, data_buildChunk _ _ _ _ _, rfl, ?_⟩
    rw [lines_topicTsv _ block_legal, List.length_map, rowOf]
    simp only
    rw [if_pos]
    unfold MAX_TOPICS_CEILING at short
    unfold I64_MAX
    omega
  · rw [joined, lines_topicTsv _ legal, List.length_map]
    exact returned
  · rw [joined]
    exact digest

end

/-- At the names of these objects there is nothing else. -/
def Server.Clear (s : Server) (objects : List ConfigMap) : Prop :=
  ∀ object ∈ objects, ∀ map, s.maps[object.name]? = some map → map = object

section

variable {R} {subject} {s : Server} {st : Start} {p : Policy}

theorem exec_create {map : ConfigMap} {answer : Except KubeError Unit} {s' : Server}
    (served : s.serve st (.createMap map) = (answer, s')) :
    (Pass.create map).exec (fun s => s.serve st) s = some (answer, s') := congrArg some served

theorem exec_getOpt {name : String} : (Pass.getOpt name).exec (fun s => s.serve st) s =
    some (.ok s.maps[name]?, s) := rfl

theorem exec_patchStatus {number : Nat} {patch : TopicDiscoveryStatus} {s' : Server}
    (served : s.serve st (.patchStatus number patch) = (.ok (), s')) :
    (Pass.patchStatus number patch).exec (fun s => s.serve st) s = some (.ok (), s') :=
  congrArg some served

theorem writeOne_exec (st : Start) (clear : s.Clear (subject.stored R p)) {object : ConfigMap}
    (own : object ∈ subject.stored R p) : ∃ s', (writeOne subject.owner.uid object).exec
      (fun s => s.serve st) s = some (.ok (), s') ∧ s'.current = s.current ∧
        s'.Clear (subject.stored R p) := by
  unfold writeOne
  by_cases held : s.maps.contains object.name = true
  · have stored : s.maps[object.name]? = some object := by
      rw [ExtTreeMap.contains_eq_isSome_getElem?, Option.isSome_iff_exists] at held
      obtain ⟨map, here⟩ := held
      rw [here, clear object own map here]
    have conflict : s.serve st (.createMap object) = (.error (.api 409), s) := if_pos held
    refine ⟨s, (Program.exec_seq (exec_create conflict)).trans ?_, rfl, clear⟩
    simp only
    rw [if_pos (by rfl)]
    refine (Program.exec_seq exec_getOpt).trans ?_
    rw [stored]
    simp only [accepts_stored own]
    rfl
  · have created : s.serve st (.createMap object) =
        (.ok (), { s with maps := s.maps.insert object.name object, writers := st :: s.writers }) :=
      if_neg held
    refine ⟨_, Program.exec_seq (exec_create created), rfl, fun other own' map here => ?_⟩
    change (s.maps.insert object.name object)[other.name]? = some map at here
    rw [s.get_insert] at here
    split at here
    · rename_i same
      cases here
      exact stored_inj own own' same
    · exact clear other own' map here

theorem writeAll_exec (st : Start) (objects : List ConfigMap)
    (own : ∀ object ∈ objects, object ∈ subject.stored R p) : ∀ {s : Server},
      s.Clear (subject.stored R p) → ∃ names s', (writeAll subject.owner.uid objects).exec
        (fun s => s.serve st) s = some (.ok names, s') ∧ s'.current = s.current := by
  induction objects with
  | nil => exact fun {s} _ => ⟨[], s, rfl, rfl⟩
  | cons object objects ih =>
      intro s clear
      obtain ⟨s₁, wrote, same, clear₁⟩ := writeOne_exec st clear (own object List.mem_cons_self)
      obtain ⟨names, s₂, rest, same₂⟩ := ih (fun o member => own o (List.mem_cons_of_mem _ member)) clear₁
      refine ⟨object.name :: names, s₂, ?_, same₂.trans same⟩
      rw [writeAll]
      exact (Program.exec_seq wrote).trans (Program.exec_seq rest)

theorem writeStatus_exec (st : Start) {v : Version} {status : TopicDiscoveryStatus}
    (number : v.resourceVersion = s.current.resourceVersion)
    (changed : statusUnchanged v.status status = false) :
    (writeStatus v status).exec (fun s => s.serve st) s = some (.written,
      s.write { s.current with status := some ((s.current.status.getD {}).merge status) }) := by
  have landed : s.serve st (.patchStatus v.resourceVersion status) = (.ok (), s.write
      { s.current with status := some ((s.current.status.getD {}).merge status) }) := if_pos number
  unfold writeStatus
  rw [changed, if_neg Bool.false_ne_true]
  exact Program.exec_seq (exec_patchStatus landed)

theorem reconcile_exec (readable : subject.Readable R) (current : st.version = s.current)
    (unfinished : s.current.isTerminal = false) (wanted : s.current.cancelRequested = false)
    (clear : s.Clear (subject.stored R st.policy)) : ∃ outcome s',
      (subject.reconcile R st).exec (fun s => s.serve st) s = some (outcome, s') ∧
        outcome.reason = CheckCode.succeeded.asStr ∧ s'.ttl = true ∧
        s'.Commits R subject (subject.kept st.policy) := by
  obtain ⟨inventory, read⟩ := readable
  obtain ⟨entries, counted⟩ := clamp_kept read st.policy
  obtain ⟨names, s₁, wrote, same⟩ := writeAll_exec st (subject.stored R st.policy)
    (fun _ own => own) clear
  have publishes := observed_publishes (R := R) counted
  rw [← current] at unfinished wanted
  have number : st.version.resourceVersion = s₁.current.resourceVersion := by rw [same, current]
  have sent := writeStatus_exec st number (changed_by_success unfinished publishes.phase)
  have landed := commits_of_publishes (s := s₁) publishes s₁.current
  unfold Subject.reconcile
  rw [unfinished, wanted, if_neg Bool.false_ne_true, if_neg Bool.false_ne_true]
  unfold Subject.commit
  simp only [read, entries]
  rw [if_neg (Nat.not_lt.mpr (chunks_fit st.policy))]
  exact ⟨_, _, (Program.exec_seq wrote).trans ((Program.exec_seq sent).trans rfl), rfl, rfl, landed⟩

end

section

variable {R} {subject} {s : State}

theorem run_alone {i : Nat} (st : Start) (outcome : Outcome) (last : Server) (p : Pass Outcome) :
    ∀ (s : State) (log : Told), s.flights[i]? = some ⟨st, log, p⟩ →
      p.exec (fun s => s.serve st) s.server = some (outcome, last) →
      ∃ n log', run R subject s (List.replicate n (.call i .answered)) =
        some ⟨last, s.flights.set i ⟨st, log', .done outcome⟩⟩ := by
  induction p with
  | done a =>
      intro s log here ended
      cases ended
      obtain ⟨inside, same⟩ := List.getElem?_eq_some_iff.mp here
      refine ⟨0, log, ?_⟩
      rw [← same, List.set_getElem_self]
      rfl
  | stop e =>
      intro s log here ended
      cases ended
  | ask c next ih =>
      intro s log here ended
      let s₁ : State := { server := (s.server.serve st c).2
                          flights := s.flights.set i ⟨st, log ++ [⟨c, (s.server.serve st c).1⟩],
                            next (s.server.serve st c).1⟩ }
      have stepped : s.step R subject (.call i .answered) = some s₁ := by
        unfold State.step
        simp only [here]
        rfl
      have inside : i < s.flights.length := (List.getElem?_eq_some_iff.mp here).choose
      obtain ⟨n, log', ran⟩ := ih (s.server.serve st c).1 s₁ _ (List.getElem?_set_self inside) ended
      refine ⟨n + 1, log', ?_⟩
      rw [List.replicate_succ, run, stepped]
      simp only
      rw [ran, List.set_set]

/-- What holds of a committed discovery and of the passes over it. -/
structure State.Whole (R : Rendering) (subject : Subject) (s : State) : Prop where
  /-- A discovery that succeeded is complete. -/
  complete : s.server.current.phase = PHASE_SUCCEEDED → s.server.Complete R subject
  /-- The TTL is set only after that. -/
  ttl : s.server.ttl = true → s.server.current.phase = PHASE_SUCCEEDED
  /-- Once a pass wrote chunks, no pass ends in a conflict over them. -/
  noConflict : s.server.writers ≠ [] →
    s.server.current.isTerminal = true →
      s.server.current.reason ≠ CheckCode.resultStorageConflict.asStr
  ended : s.server.writers ≠ [] → ∀ f ∈ s.flights, ∀ outcome, f.rest = .done outcome →
    outcome.reason ≠ CheckCode.resultStorageConflict.asStr
  /-- What is committed is what they were cut from. -/
  same : s.server.current.phase = PHASE_SUCCEEDED → ∀ w ∈ s.server.writers,
    s.server.Commits R subject (subject.kept w.policy)
  /-- A later pass commits it, unless the discovery is over or cancelled. -/
  later : ∀ w ∈ s.server.writers, ∀ st, st.version = s.server.current →
    s.server.current.isTerminal = false → s.server.current.cancelRequested = false →
    subject.cut st.policy = subject.cut w.policy →
    ∃ n s', run R subject s (.start st :: List.replicate n (.call s.flights.length .answered)) =
      some s' ∧ s'.server.ttl = true ∧ s'.server.Commits R subject (subject.kept w.policy)

theorem State.Inv.whole (inv : s.Inv R subject) : s.Whole R subject := by
  have sound := inv.sound
  refine ⟨fun succeeded => ?_, sound.ttl, fun wrote => ?_, fun wrote => ?_, fun succeeded w writer => ?_, ?_⟩
  · obtain ⟨p, holds⟩ := sound.committed succeeded
    exact holds.complete
  · obtain ⟨w, writer⟩ := List.exists_mem_of_ne_nil _ wrote
    exact sound.reasons (sound.readable w writer) s.server.current (.inl rfl)
  · obtain ⟨w, writer⟩ := List.exists_mem_of_ne_nil _ wrote
    have readable := sound.readable w writer
    intro f member outcome done conflict
    have backs := inv.backs f member
    rcases backs.follows.ends done readable conflict with ⟨object, own, rejected⟩ | ⟨finished, reason⟩
    · exact not_rejected backs.told own rejected
    · exact sound.reasons readable f.start.version backs.knows finished (reason.trans conflict)
  · obtain ⟨p, holds⟩ := sound.committed succeeded
    rcases holds.cut with ⟨w', writer', cut⟩ | empty
    · rw [kept_of_cut ((sound.oneCut w writer w' writer').trans cut)]
      exact holds.commits
    · have none_ (q : Policy) : subject.kept q = [] := by
        rw [Subject.kept, empty, List.take_nil]
      rw [none_, ← none_ p]
      exact holds.commits
  · intro w writer st version unfinished wanted cut
    have readable := sound.readable w writer
    have clear : s.server.Clear (subject.stored R st.policy) := by
      intro object own map held
      obtain ⟨i, named, -⟩ := mem_stored own
      rw [named] at held
      obtain ⟨name, w', writer', written⟩ := sound.stored i map held
      rw [stored_of_cut (sound.oneCut w' writer' w writer), ← stored_of_cut cut] at written
      exact stored_inj written own (name.trans named.symm)
    obtain ⟨outcome, last, ended, -, ttl, commits⟩ :=
      reconcile_exec readable version unfinished wanted clear
    let s₁ : State := { s with flights := s.flights ++ [⟨st, [], subject.reconcile R st⟩] }
    have started : s.step R subject (.start st) = some s₁ := if_pos (.inl version)
    have here : s₁.flights[s.flights.length]? = some ⟨st, [], subject.reconcile R st⟩ :=
      List.getElem?_concat_length
    obtain ⟨n, log, ran⟩ := run_alone (R := R) st outcome last _ s₁ [] here ended
    refine ⟨n, ⟨last, s₁.flights.set s.flights.length ⟨st, log, .done outcome⟩⟩, ?_, ttl, ?_⟩
    · rw [run, started]
      exact ran
    · rw [← kept_of_cut cut]
      exact commits

/-- While the passes that touch a chunk cut where the passes before them cut, every
state of every run is whole. -/
theorem passes_commit_whole {s₀ : State} (fresh : Fresh subject s₀) (actions : List Action)
    (agree : allAgree R subject s₀ actions = true) (ran : run R subject s₀ actions = some s) :
    s.Whole R subject :=
  (inv_run actions fresh.inv agree ran).whole

end

def twoSha256 (bytes : List UInt8) : List UInt8 :=
  if bytes.length = 11 then
    [212, 23, 245, 21, 130, 192, 114, 66, 209, 23, 60, 26, 58, 7, 193, 147, 136, 117, 26, 55, 207, 8, 31,
      189, 193, 194, 66, 17, 15, 172, 32, 91]
  else
    [65, 143, 70, 103, 169, 34, 22, 158, 26, 17, 78, 31, 10, 163, 114, 224, 203, 77, 67, 39, 138, 90, 191,
      165, 86, 218, 79, 161, 54, 121, 90, 32]

def twoRendering : Rendering where
  sha256 := twoSha256
  redact := id
  showTime _ := "2026-11-19 00:00:00 UTC"
  visibility _ _ _ _ := { state := "unknown", basis := none, attestation := none }

def twoTopics : List TopicEntry :=
  [{ name := "orders", partitions := 3 }, { name := "payments", partitions := 6 }]

def twoInventory : InventoryResult where
  clusterId := some "q1"
  brokerCount := some 3
  counts := { listed := 2, returned := 2, internalExcluded := 0, errored := 0 }
  truncated := false
  truncationReason := none
  topicAuthorizationErrorInListing := false
  expected := { requested := 0, visible := 0, notAuthorized := 0, notFound := 0, unknown := 0 }
  topicsSha256 := topicTsvSha256 twoSha256 twoTopics

def twoSubject : Subject where
  jobName := "td-1-check"
  namespace_ := "logweir"
  owner := { apiVersion := "logweir.dev/v1alpha1", kind := "TopicDiscovery", name := "td-1",
             uid := "6f1d2c3b-0a4e-4b5c-8d6f-7e8091a2b3c4" }
  maxTopics := 20000
  relay :=
    { topics := twoTopics
      result := some (.ok { checks := [], inventory := some twoInventory })
      legal := by decide }

def atMostTwo : Policy where
  hardMaxTopics := 2
  freshSeconds := 900
  digest := "sha256:0c52"
  some_ := by decide
  most := by decide

def atMostOne : Policy where
  hardMaxTopics := 1
  freshSeconds := 900
  digest := "sha256:d3f1"
  some_ := by decide
  most := by decide

def twoVersion : Version where
  resourceVersion := 7
  generation := some 1
  cancelRequested := false
  status := some { phase := some "Running" }

def twoState : State where
  server := { current := twoVersion, past := [], maps := ∅, ttl := false, writers := [] }
  flights := []

def startWith (policy : Policy) : Start where
  version := twoVersion
  policy := policy
  startedAt := none
  observedAt := 0
  now := 0

def twoPasses (policy : Policy) : List Action :=
  [.start (startWith atMostTwo), .call 0 .answered, .start (startWith policy),
    .call 1 .answered, .call 1 .answered, .call 1 .answered]

theorem twoState_fresh : Fresh twoSubject twoState where
  flights := rfl
  writers := rfl
  ttl := rfl
  maps _ := ExtTreeMap.getElem?_empty
  older _ member := absurd member List.not_mem_nil
  unfinished v known := by
    rcases known with rfl | past
    · decide
    · exact absurd past List.not_mem_nil

/-- Under one policy the second pass accepts the chunk and commits. -/
theorem two_passes_whole : ∃ s, run twoRendering twoSubject twoState
    (twoPasses atMostTwo ++ [.call 1 .answered]) = some s ∧ s.server.ttl = true ∧
      s.Whole twoRendering twoSubject := by
  have ended : (run twoRendering twoSubject twoState
      (twoPasses atMostTwo ++ [.call 1 .answered])).any (fun s => s.server.ttl) = true := by
    decide +kernel
  obtain ⟨s, ran, ttl⟩ := (Option.any_eq_true _ _).mp ended
  exact ⟨s, ran, ttl, passes_commit_whole twoState_fresh _ (by decide +kernel) ran⟩

/-- Under a policy that keeps one topic fewer it ends in a conflict. -/
theorem second_policy_conflicts : Fresh twoSubject twoState ∧ ∃ s,
    run twoRendering twoSubject twoState (twoPasses atMostOne) = some s ∧
      s.server.writers ≠ [] ∧ s.server.current.isTerminal = true ∧
      s.server.current.reason = CheckCode.resultStorageConflict.asStr ∧
      ¬ s.Whole twoRendering twoSubject := by
  have ended : (run twoRendering twoSubject twoState (twoPasses atMostOne)).any (fun s =>
      !s.server.writers.isEmpty && s.server.current.isTerminal &&
        s.server.current.reason == CheckCode.resultStorageConflict.asStr) = true := by
    decide +kernel
  obtain ⟨s, ran, last⟩ := (Option.any_eq_true _ _).mp ended
  simp only [Bool.and_eq_true, Bool.not_eq_true', List.isEmpty_eq_false_iff, beq_iff_eq] at last
  obtain ⟨⟨wrote, finished⟩, reason⟩ := last
  exact ⟨twoState_fresh, s, ran, wrote, finished, reason, fun whole =>
    whole.noConflict wrote finished reason⟩

end Logweir.Inventory
