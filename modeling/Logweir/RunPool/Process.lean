import Logweir.RunPool.Gate

/-!
# One process over the runs of a kind

The API server's objects, the changes its watch has still to deliver, the
registry of reservations and the passes between their decision and its record.
-/

set_option autoImplicit false

namespace Logweir.RunPool

open Std (ExtTreeMap)
open Resource PoolMember

structure Stored (K : Type) where
  version : Nat
  object : K

structure Change (K : Type) where
  at_ : Int
  uid : String
  stored : Option (Stored K)

structure Pass (K : Type) where
  uid : String
  read : Stored K
  admits : Bool

structure Peer where
  metadata : Meta
  standing : Standing

instance : Resource Peer := ⟨Peer.metadata⟩

structure State (K : Type) where
  now : Int
  runs : ExtTreeMap String (Stored K)
  /-- The snapshot: the runs up to the changes that are pending. -/
  seen : ExtTreeMap String (Stored K)
  pending : List (Change K)
  /-- The next version. -/
  version : Nat
  held : Reservations
  passes : List (Pass K)
  /-- The UIDs ever given. -/
  born : List String
  /-- The runs whose admission was recorded. -/
  admitted : List String
  /-- The runs that were ever held, or were never the pool's. -/
  paused : List String

inductive Action (K : Type) where
  | wait (elapsed : Int)
  | arrive (uid : String) (run : K)
  /-- Any other writer: a hold, a release, progress, an end. -/
  | change (uid : String) (run : K)
  | delete (uid : String)
  | deliver
  | decide (uid : String)
  /-- A decision on the other kind. -/
  | elsewhere (kind : PoolKind) (candidate : Peer) (peers : List Peer) (limit : UInt32)
  | write (i : Nat)
  /-- A pass that ends with nothing written. -/
  | fail (i : Nat)

variable {K : Type} [PoolMember K]

/-- What any other writer may make of a run: an end is final, and a run comes to hold a slot by
the gate alone. -/
def mayBecome (old new : Standing) : Bool :=
  (old != .finished || new == .finished) && (new != .occupying || old == .occupying)

theorem mayBecome_iff {old new : Standing} : mayBecome old new = true ↔
    (old = .finished → new = .finished) ∧ (new = .occupying → old = .occupying) := by
  cases old <;> cases new <;> decide

def State.put (s : State K) (uid : String) (run : K) : State K :=
  { s with
    runs := s.runs.insert uid ⟨s.version, run⟩
    pending := s.pending ++ [⟨s.now, uid, some ⟨s.version, run⟩⟩]
    version := s.version + 1
    born := uid :: s.born
    paused := if standing run = .outside then uid :: s.paused else s.paused }

def State.recorded (s : State K) (i : Nat) (pass : Pass K) : State K :=
  { State.put { s with passes := s.passes.eraseIdx i } pass.uid
      (PoolMember.admitted pass.read.object) with
    admitted := pass.uid :: s.admitted }

def State.deleted (s : State K) (uid : String) : State K :=
  { s with
    runs := s.runs.erase uid
    pending := s.pending ++ [⟨s.now, uid, none⟩] }

def State.delivered (s : State K) (c : Change K) (rest : List (Change K)) : State K :=
  { s with
    seen := match c.stored with
      | some stored => s.seen.insert c.uid stored
      | none => s.seen.erase c.uid
    pending := rest }

def State.fresh (s : State K) : Bool :=
  s.pending.all fun c => s.now - c.at_ ≤ RESERVATION_TTL_SECONDS * 1000000000

def State.snapshot (s : State K) : List K := s.seen.toList.map fun e => e.2.object

def State.decision (s : State K) (limit : UInt32) (run : K) : Decision × Reservations :=
  s.held.decide (kind K) run (some s.snapshot) limit standing s.now

def step (limit : UInt32) (s : State K) : Action K → Option (State K)
  | .wait elapsed => if 0 ≤ elapsed then some { s with now := s.now + elapsed } else none
  | .arrive uid run =>
    if uid ∉ s.born ∧ (objectMeta run).uid = some uid ∧ standing run ≠ .occupying then
      some (s.put uid run)
    else none
  | .change uid run => do
    let old ← s.runs[uid]?
    if objectMeta run = objectMeta old.object ∧ mayBecome (standing old.object) (standing run) then
      some (s.put uid run)
    else none
  | .delete uid =>
    if uid ∈ s.runs then some (s.deleted uid) else none
  | .deliver =>
    match s.pending with
    | [] => none
    | c :: rest => some (s.delivered c rest)
  | .decide uid => do
    let read ← s.seen[uid]?
    if gated read.object = true ∧ standing read.object ≠ .finished ∧ s.fresh = true then
      let (decision, held) := s.decision limit read.object
      some { s with held, passes := s.passes ++ [⟨uid, read, decision.isAdmitted⟩] }
    else none
  | .elsewhere other candidate peers limit =>
    if other ≠ kind K ∧ uidOf candidate ∉ s.born then
      some { s with
        held := (s.held.decide other candidate (some peers) limit Peer.standing s.now).2 }
    else none
  | .write i => do
    let pass ← s.passes[i]?
    let current ← s.runs[pass.uid]?
    -- The write is refused unless the run is at the version the pass read.
    if current.version ≠ pass.read.version then
      some { s with passes := s.passes.eraseIdx i }
    else if pass.admits then some (s.recorded i pass)
    else some (State.put { s with passes := s.passes.eraseIdx i } pass.uid
      (queued pass.read.object))
  | .fail i => if i < s.passes.length then some { s with passes := s.passes.eraseIdx i } else none

def run (limit : UInt32) (s : State K) (actions : List (Action K)) : Option (State K) :=
  actions.foldlM (step limit) s

def State.wasAdmitted (s : State K) (uid : String) : Bool :=
  s.admitted.contains uid || s.passes.any fun p =>
    p.admits && p.uid == uid && (s.runs[uid]?).map Stored.version == some p.read.version

def State.holding (s : State K) (workspace : String) : List String :=
  (s.runs.toList.filter fun e => workspaceOf e.2.object == workspace &&
    standing e.2.object != .finished && s.wasAdmitted e.1).map Prod.fst

/-- A process that has just started, over any runs. -/
structure Initial (s : State K) : Prop where
  pending : s.pending = []
  seen : s.seen = s.runs
  held : s.held = ∅
  passes : s.passes = []
  admitted : s.admitted = []
  runs : ∀ (uid : String) (stored : Stored K), s.runs[uid]? = some stored →
    (objectMeta stored.object).uid = some uid ∧ uid ∈ s.born ∧ stored.version < s.version ∧
      (standing stored.object = .outside → uid ∈ s.paused)

/-- One of the versions of a run that the server, the watch or a pending change has. -/
def State.Version (s : State K) (uid : String) (stored : Stored K) : Prop :=
  s.runs[uid]? = some stored ∨ s.seen[uid]? = some stored ∨
    ∃ c ∈ s.pending, c.uid = uid ∧ c.stored = some stored

/-- The snapshot lags the server, and by whole changes in their order. -/
structure History (s : State K) : Prop where
  named : ∀ {uid : String} {v : Stored K}, s.Version uid v →
    (objectMeta v.object).uid = some uid ∧ uid ∈ s.born ∧ v.version < s.version
  alike : ∀ {uid : String} {v w : Stored K}, s.Version uid v → s.Version uid w →
    objectMeta v.object = objectMeta w.object
  unique : ∀ {uid : String} {v w : Stored K}, s.Version uid v → s.Version uid w →
    v.version = w.version → v = w
  oldest : ∀ {uid : String} {v w : Stored K}, s.seen[uid]? = some v → s.Version uid w →
    v.version ≤ w.version
  newest : ∀ {uid : String} {v w : Stored K}, s.runs[uid]? = some v → s.Version uid w →
    w.version ≤ v.version
  ascending : s.pending.Pairwise fun c d => ∀ v w : Stored K, c.stored = some v →
    d.stored = some w → v.version < w.version
  gone : ∀ c ∈ s.pending, c.stored = none → s.runs[c.uid]? = none ∧ c.uid ∈ s.born
  ended : ∀ {uid : String} {v w : Stored K}, s.Version uid v → s.Version uid w →
    v.version ≤ w.version → standing v.object = .finished → standing w.object = .finished
  paused : ∀ {uid : String} {v : Stored K}, s.Version uid v → standing v.object = .outside →
    uid ∈ s.paused

variable {s s' : State K} {uid : String} {object : K}

theorem History.replace (h : History s) (held : Reservations) (passes : List (Pass K)) :
    History { s with held, passes } :=
  ⟨h.named, h.alike, h.unique, h.oldest, h.newest, h.ascending, h.gone, h.ended, h.paused⟩

theorem getElem?_put (s : State K) (uid : String) (object : K) (other : String) :
    (s.put uid object).runs[other]? =
    if other = uid then some ⟨s.version, object⟩ else s.runs[other]? := by
  unfold State.put
  rw [ExtTreeMap.getElem?_insert]
  by_cases same : other = uid
  · rw [same, if_pos rfl, if_pos Std.ReflCmp.compare_self]
  · have apart : compare uid other ≠ .eq := fun h => same (Std.LawfulEqCmp.eq_of_compare h).symm
    rw [if_neg same, if_neg apart]

theorem getElem?_recorded (i : Nat) (pass : Pass K) (other : String) :
    (s.recorded i pass).runs[other]? =
      if other = pass.uid then some ⟨s.version, admitted pass.read.object⟩ else s.runs[other]? := by
  exact getElem?_put { s with passes := s.passes.eraseIdx i } pass.uid _ other

theorem version_put {other : String} {v : Stored K} (h : (s.put uid object).Version other v) :
    s.Version other v ∨ (other = uid ∧ v = ⟨s.version, object⟩) := by
  rcases h with stored | seen | ⟨c, member, name, value⟩
  · rw [getElem?_put] at stored
    split at stored
    · next same => exact .inr ⟨same, (Option.some.inj stored).symm⟩
    · exact .inl (.inl stored)
  · exact .inl (.inr (.inl seen))
  · rcases List.mem_append.mp member with earlier | here
    · exact .inl (.inr (.inr ⟨c, earlier, name, value⟩))
    · rw [List.mem_singleton.mp here] at name value
      exact .inr ⟨name.symm, (Option.some.inj value).symm⟩

theorem History.put (h : History s) (named : (objectMeta object).uid = some uid)
    (alike : ∀ v, s.Version uid v → objectMeta v.object = objectMeta object)
    (ended : ∀ v, s.Version uid v → standing v.object = .finished → standing object = .finished)
    (kept : ∀ c ∈ s.pending, c.stored = none → c.uid ≠ uid) : History (s.put uid object) where
  named := by
    intro other v version
    rcases version_put version with old | ⟨rfl, rfl⟩
    · obtain ⟨name, known, less⟩ := h.named old
      exact ⟨name, List.mem_cons_of_mem _ known, Nat.lt_succ_of_lt less⟩
    · exact ⟨named, List.mem_cons_self, Nat.lt_succ_self _⟩
  alike := by
    intro other v w first second
    rcases version_put first with old | ⟨here, rfl⟩ <;>
      rcases version_put second with old' | ⟨there, rfl⟩
    · exact h.alike old old'
    · exact alike v (there ▸ old)
    · exact (alike w (here ▸ old')).symm
    · rfl
  unique := by
    intro other v w first second same
    rcases version_put first with old | ⟨-, rfl⟩ <;> rcases version_put second with old' | ⟨-, rfl⟩
    · exact h.unique old old' same
    · exact absurd same (Nat.ne_of_lt (h.named old).2.2)
    · exact absurd same.symm (Nat.ne_of_lt (h.named old').2.2)
    · rfl
  oldest := by
    intro other v w seen second
    rcases version_put second with old' | ⟨-, rfl⟩
    · exact h.oldest seen old'
    · exact Nat.le_of_lt (h.named (.inr (.inl seen))).2.2
  newest := by
    intro other v w stored second
    rw [getElem?_put] at stored
    split at stored
    · cases stored
      rcases version_put second with old' | ⟨-, rfl⟩
      · exact Nat.le_of_lt (h.named old').2.2
      · exact Nat.le_refl _
    · next apart =>
        rcases version_put second with old' | ⟨same, -⟩
        · exact h.newest stored old'
        · exact absurd same apart
  ascending := by
    refine List.pairwise_append.mpr ⟨h.ascending, List.pairwise_singleton _ _, ?_⟩
    intro c member d last v w first second
    rw [List.mem_singleton.mp last] at second
    cases second
    exact (h.named (.inr (.inr ⟨c, member, rfl, first⟩))).2.2
  gone := by
    intro c member deleted
    rcases List.mem_append.mp member with earlier | here
    · rw [getElem?_put, if_neg (kept c earlier deleted)]
      obtain ⟨none, born⟩ := h.gone c earlier deleted
      exact ⟨none, List.mem_cons_of_mem _ born⟩
    · rw [List.mem_singleton.mp here] at deleted
      cases deleted
  ended := by
    intro other v w first second order
    rcases version_put first with old | ⟨-, rfl⟩ <;>
      rcases version_put second with old' | ⟨there, rfl⟩
    · exact h.ended old old' order
    · exact ended v (there ▸ old)
    · exact absurd order (Nat.not_le_of_lt (h.named old').2.2)
    · exact id
  paused := by
    intro other v version outside
    change other ∈ if standing object = .outside then uid :: s.paused else s.paused
    rcases version_put version with old | ⟨rfl, rfl⟩
    · have earlier := h.paused old outside
      split
      · exact List.mem_cons_of_mem _ earlier
      · exact earlier
    · rw [if_pos outside]
      exact List.mem_cons_self

theorem History.overwrite (h : History s) {old : Stored K} (stored : s.runs[uid]? = some old)
    (alike : objectMeta object = objectMeta old.object)
    (ended : standing old.object = .finished → standing object = .finished) :
    History (s.put uid object) := by
  apply h.put
  · rw [alike]
    exact (h.named (.inl stored)).1
  · intro v version
    rw [alike]
    exact h.alike version (.inl stored)
  · intro v version over_
    exact ended (h.ended version (.inl stored) (h.newest stored version) over_)
  · intro c member none same
    have gone := (h.gone c member none).1
    rw [same, stored] at gone
    cases gone

omit [PoolMember K] in
theorem runs_of_deleted {other : String} {v : Stored K}
    (stored : (s.deleted uid).runs[other]? = some v) : s.runs[other]? = some v := by
  unfold State.deleted at stored
  rw [ExtTreeMap.getElem?_erase] at stored
  split at stored
  · cases stored
  · exact stored

omit [PoolMember K] in
theorem version_deleted {other : String} {v : Stored K} (h : (s.deleted uid).Version other v) :
    s.Version other v := by
  rcases h with stored | seen | ⟨c, member, name, value⟩
  · exact .inl (runs_of_deleted stored)
  · exact .inr (.inl seen)
  · rcases List.mem_append.mp member with earlier | here
    · exact .inr (.inr ⟨c, earlier, name, value⟩)
    · rw [List.mem_singleton.mp here] at value
      cases value

theorem History.delete (h : History s) (known : uid ∈ s.born) : History (s.deleted uid) where
  named := fun v => h.named (version_deleted v)
  alike := fun v w => h.alike (version_deleted v) (version_deleted w)
  unique := fun v w => h.unique (version_deleted v) (version_deleted w)
  oldest := fun v w => h.oldest v (version_deleted w)
  newest := fun v w => h.newest (runs_of_deleted v) (version_deleted w)
  ascending := by
    refine List.pairwise_append.mpr ⟨h.ascending, List.pairwise_singleton _ _, ?_⟩
    intro c _ d last v w _ second
    rw [List.mem_singleton.mp last] at second
    cases second
  gone := by
    intro c member deleted
    unfold State.deleted
    rw [ExtTreeMap.getElem?_erase]
    rcases List.mem_append.mp member with earlier | here
    · obtain ⟨none, born⟩ := h.gone c earlier deleted
      refine ⟨?_, born⟩
      split
      · rfl
      · exact none
    · rw [List.mem_singleton.mp here]
      exact ⟨if_pos Std.ReflCmp.compare_self, known⟩
  ended := fun v w => h.ended (version_deleted v) (version_deleted w)
  paused := fun v => h.paused (version_deleted v)

omit [PoolMember K] in
theorem getElem?_delivered (c : Change K) (rest : List (Change K)) (other : String) :
    (s.delivered c rest).seen[other]? = if other = c.uid then c.stored else s.seen[other]? := by
  unfold State.delivered
  have apart : other ≠ c.uid → compare c.uid other ≠ .eq := fun differ h =>
    differ (Std.LawfulEqCmp.eq_of_compare h).symm
  cases c.stored with
  | some stored =>
      rw [ExtTreeMap.getElem?_insert]
      by_cases same : other = c.uid
      · rw [same, if_pos rfl, if_pos Std.ReflCmp.compare_self]
      · rw [if_neg same, if_neg (apart same)]
  | none =>
      rw [ExtTreeMap.getElem?_erase]
      by_cases same : other = c.uid
      · rw [same, if_pos rfl, if_pos Std.ReflCmp.compare_self]
      · rw [if_neg same, if_neg (apart same)]

omit [PoolMember K] in
theorem version_delivered {c : Change K} {rest : List (Change K)} (first : s.pending = c :: rest)
    {other : String} {v : Stored K} (h : (s.delivered c rest).Version other v) :
    s.Version other v := by
  rcases h with stored | seen | ⟨d, member, name, value⟩
  · exact .inl stored
  · rw [getElem?_delivered] at seen
    split at seen
    · next here => exact .inr (.inr ⟨c, by rw [first]; exact List.mem_cons_self, here.symm, seen⟩)
    · exact .inr (.inl seen)
  · refine .inr (.inr ⟨d, ?_, name, value⟩)
    rw [first]
    exact List.mem_cons_of_mem c member

theorem History.deliver (h : History s) {c : Change K} {rest : List (Change K)}
    (first : s.pending = c :: rest) : History (s.delivered c rest) := by
  have old {other : String} {v : Stored K} (version : (s.delivered c rest).Version other v) :
      s.Version other v := version_delivered first version
  have order := h.ascending
  rw [first] at order
  obtain ⟨least, order⟩ := List.pairwise_cons.mp order
  refine ⟨fun v => h.named (old v), fun v w => h.alike (old v) (old w),
    fun v w => h.unique (old v) (old w), ?_, fun v w => h.newest v (old w), order, ?_,
    fun v w => h.ended (old v) (old w), fun v => h.paused (old v)⟩
  · intro other v w seen version
    rw [getElem?_delivered] at seen
    split at seen
    · next here =>
        have mine : s.Version other v :=
          .inr (.inr ⟨c, by rw [first]; exact List.mem_cons_self, here.symm, seen⟩)
        rcases version with stored | shown | ⟨d, member, -, value⟩
        · exact h.newest stored mine
        · rw [getElem?_delivered, if_pos here, seen] at shown
          exact Nat.le_of_eq (by rw [Option.some.inj shown])
        · exact Nat.le_of_lt (least d member v w seen value)
    · exact h.oldest seen (old version)
  · intro d member deleted
    refine h.gone d ?_ deleted
    rw [first]
    exact List.mem_cons_of_mem c member

end Logweir.RunPool
