import Logweir.RunPool.Process

/-!
# The pool's ceiling

When no workspace ever has more unfinished admitted runs than the ceiling, and no
admitted run is queued again.
-/

set_option autoImplicit false

namespace Logweir.RunPool

open Std (ExtTreeMap)
open Resource PoolMember

variable {K : Type} [PoolMember K] {s s' : State K} {uid : String} {object : K}

/-- No reservation of an unfinished admitted run is too old before its record is shown. -/
def State.NoneAges (s : State K) : Prop :=
  ∀ (uid : String) (r : Reservation) (current : Stored K), s.held[uid]? = some r →
    r.aged s.now = true → s.runs[uid]? = some current → standing current.object ≠ .finished →
    s.wasAdmitted uid = true →
    ∃ shown : Stored K, s.seen[uid]? = some shown ∧ standing shown.object = .occupying

def Meets (limit : UInt32) (s : State K) : Action K → Prop
  /- A run that was admitted and is decided again, its record not shown yet, still finds a slot:
  fewer older runs wait in the snapshot than the other runs leave slots. -/
  | .decide uid => s.NoneAges ∧ ∀ read : Stored K, s.seen[uid]? = some read →
      s.wasAdmitted uid = true →
      s.held.taken (kind K) read.object s.snapshot standing s.now +
        s.held.older (kind K) read.object s.snapshot standing s.now < limit.toNat
  | .elsewhere _ _ _ _ => s.NoneAges
  /- No run is held once its admission was recorded. -/
  | .change uid run => uid ∈ s.admitted → standing run = .occupying ∨ standing run = .finished
  | _ => True

/-- The states a fresh process reaches by steps that are all `allowed`. -/
inductive Reaches (limit : UInt32) (allowed : State K → Action K → Prop) : State K → Prop
  | start {s : State K} (initial : Initial s) : Reaches limit allowed s
  | step {s s' : State K} {a : Action K} (before : Reaches limit allowed s) (may : allowed s a)
      (after : step limit s a = some s') : Reaches limit allowed s'

/-- How runs come to hold slots, and what still covers one the snapshot does not show. -/
structure Admissions (s : State K) : Prop where
  before : ∀ {uid : String} {v w : Stored K}, uid ∉ s.admitted → s.Version uid v →
    s.Version uid w → v.version ≤ w.version → standing v.object ≠ .occupying →
    standing w.object ≠ .occupying
  after : ∀ {uid : String} {v w : Stored K}, uid ∈ s.admitted → s.Version uid v →
    s.Version uid w → v.version ≤ w.version → standing v.object = .occupying →
    standing w.object = .occupying ∨ standing w.object = .finished
  current : ∀ {uid : String} {v : Stored K}, uid ∈ s.admitted → s.runs[uid]? = some v →
    standing v.object = .occupying ∨ standing v.object = .finished
  known : ∀ uid ∈ s.admitted, uid ∈ s.born
  read : ∀ pass ∈ s.passes, pass.uid ∈ s.born ∧ gated pass.read.object = true ∧
    standing pass.read.object ≠ .finished ∧ pass.read.version < s.version
  same : ∀ pass ∈ s.passes, ∀ v : Stored K, s.runs[pass.uid]? = some v →
    v.version = pass.read.version → v = pass.read
  unshown : ∀ pass ∈ s.passes, pass.uid ∉ s.admitted → ∀ v : Stored K,
    s.Version pass.uid v → standing v.object ≠ .occupying
  seen : ∀ pass ∈ s.passes, ∀ v : Stored K, s.runs[pass.uid]? = some v →
    ∃ w : Stored K, s.seen[pass.uid]? = some w
  covered : ∀ {uid : String} {v : Stored K}, s.wasAdmitted uid = true → s.runs[uid]? = some v →
    standing v.object ≠ .finished → ∃ w : Stored K, s.seen[uid]? = some w ∧
      (standing w.object = .occupying ∨
        s.held.reserved (kind K) (workspaceOf v.object) uid = true)

omit [PoolMember K] in
theorem wasAdmitted_iff (s : State K) (uid : String) : s.wasAdmitted uid = true ↔
    uid ∈ s.admitted ∨ ∃ pass ∈ s.passes, pass.admits = true ∧ pass.uid = uid ∧
      ∃ v : Stored K, s.runs[uid]? = some v ∧ v.version = pass.read.version := by
  unfold State.wasAdmitted
  simp only [Bool.or_eq_true, List.contains_iff_mem, List.any_eq_true, Bool.and_eq_true,
    beq_iff_eq, Option.map_eq_some_iff, and_assoc]

/-- An unfinished admitted run was one before. -/
def Continues (s s' : State K) : Prop :=
  ∀ (uid : String) (v' : Stored K), s'.wasAdmitted uid = true → s'.runs[uid]? = some v' →
    standing v'.object ≠ .finished → ∃ v : Stored K, s.wasAdmitted uid = true ∧
      s.runs[uid]? = some v ∧ standing v.object ≠ .finished ∧
      objectMeta v'.object = objectMeta v.object

theorem workspaceOf_alike {run run' : K} (alike : objectMeta run = objectMeta run') :
    workspaceOf run = workspaceOf run' := by
  unfold workspaceOf
  rw [alike]

theorem Admissions.covered_of (a : Admissions s) (continues : Continues s s')
    (seen : s'.seen = s.seen) (held : s'.held = s.held) {v : Stored K}
    (was : s'.wasAdmitted uid = true) (stored : s'.runs[uid]? = some v)
    (unfinished : standing v.object ≠ .finished) : ∃ w : Stored K, s'.seen[uid]? = some w ∧
      (standing w.object = .occupying ∨
        s'.held.reserved (kind K) (workspaceOf v.object) uid = true) := by
  obtain ⟨old, earlier, there, open_, alike⟩ := continues uid v was stored unfinished
  rw [seen, held, workspaceOf_alike alike]
  exact a.covered earlier there open_

theorem Admissions.read_older (a : Admissions s) {pass : Pass K} (member : pass ∈ s.passes) :
    s.version ≠ pass.read.version := Nat.ne_of_gt (a.read pass member).2.2.2

theorem Admissions.continues_put (a : Admissions s)
    (kept : uid ∈ s.admitted → ∃ old : Stored K, s.runs[uid]? = some old ∧
      objectMeta object = objectMeta old.object ∧
      (standing old.object = .finished → standing object = .finished)) :
    Continues s (s.put uid object) := by
  intro other v was stored unfinished
  rw [getElem?_put] at stored
  rw [wasAdmitted_iff] at was
  split at stored
  · next same =>
      subst same
      cases stored
      have recorded : other ∈ s.admitted := by
        rcases was with recorded | ⟨pass, member, -, -, current, there, version⟩
        · exact recorded
        · rw [getElem?_put, if_pos rfl] at there
          cases there
          exact absurd version (a.read_older member)
      obtain ⟨old, there, alike, ended⟩ := kept recorded
      exact ⟨old, (wasAdmitted_iff s other).mpr (.inl recorded), there,
        fun finished => unfinished (ended finished), alike⟩
  · next apart =>
      refine ⟨v, (wasAdmitted_iff s other).mpr ?_, stored, unfinished, rfl⟩
      rcases was with recorded | ⟨pass, member, admits, name, current, there, version⟩
      · exact .inl recorded
      · rw [getElem?_put, if_neg apart] at there
        exact .inr ⟨pass, member, admits, name, current, there, version⟩

theorem continues_deleted (s : State K) (uid : String) : Continues s (s.deleted uid) := by
  intro other v was stored unfinished
  refine ⟨v, ?_, runs_of_deleted stored, unfinished, rfl⟩
  rw [wasAdmitted_iff] at was ⊢
  rcases was with recorded | ⟨pass, member, admits, name, current, there, version⟩
  · exact .inl recorded
  · exact .inr ⟨pass, member, admits, name, current, runs_of_deleted there, version⟩

theorem continues_replace (s : State K) (held : Reservations) {passes : List (Pass K)}
    (fewer : ∀ pass ∈ passes, pass ∈ s.passes) : Continues s { s with held, passes } := by
  intro other v was stored unfinished
  refine ⟨v, ?_, stored, unfinished, rfl⟩
  rw [wasAdmitted_iff] at was ⊢
  rcases was with recorded | ⟨pass, member, facts⟩
  · exact .inl recorded
  · exact .inr ⟨pass, fewer pass member, facts⟩

theorem Admissions.occupying_admitted (a : Admissions s) {v : Stored K}
    (was : s.wasAdmitted uid = true) (version : s.Version uid v)
    (occupying : standing v.object = .occupying) : uid ∈ s.admitted := by
  rcases (wasAdmitted_iff s uid).mp was with recorded | ⟨pass, member, -, rfl, -⟩
  · exact recorded
  · by_contra unrecorded
    exact a.unshown pass member unrecorded v version occupying

theorem Admissions.put (a : Admissions s) (h : History s)
    (rise : uid ∉ s.admitted → ∀ v, s.Version uid v → standing v.object ≠ .occupying →
      standing object ≠ .occupying)
    (stays : uid ∈ s.admitted → standing object = .occupying ∨ standing object = .finished)
    (kept : uid ∈ s.admitted → ∃ old : Stored K, s.runs[uid]? = some old ∧
      objectMeta object = objectMeta old.object ∧
      (standing old.object = .finished → standing object = .finished))
    (live : ∀ pass ∈ s.passes, pass.uid = uid → ∃ v : Stored K, s.runs[uid]? = some v) :
    Admissions (s.put uid object) where
  before := by
    intro other v w unrecorded first second order free
    rcases version_put first with old | ⟨-, rfl⟩ <;>
      rcases version_put second with old' | ⟨there, rfl⟩
    · exact a.before unrecorded old old' order free
    · exact rise (there ▸ unrecorded) v (there ▸ old) free
    · exact absurd order (Nat.not_le_of_lt (h.named old').2.2)
    · exact free
  after := by
    intro other v w recorded first second order occupying
    rcases version_put first with old | ⟨-, rfl⟩ <;>
      rcases version_put second with old' | ⟨there, rfl⟩
    · exact a.after recorded old old' order occupying
    · exact stays (there ▸ recorded)
    · exact absurd order (Nat.not_le_of_lt (h.named old').2.2)
    · exact .inl occupying
  current := by
    intro other v recorded stored
    rw [getElem?_put] at stored
    split at stored
    · next same =>
        cases stored
        exact stays (same ▸ recorded)
    · exact a.current recorded stored
  known := fun other recorded => List.mem_cons_of_mem _ (a.known other recorded)
  read := by
    intro pass member
    obtain ⟨born, facts, unfinished, less⟩ := a.read pass member
    exact ⟨List.mem_cons_of_mem _ born, facts, unfinished, Nat.lt_succ_of_lt less⟩
  same := by
    intro pass member v stored version
    rw [getElem?_put] at stored
    split at stored
    · cases stored
      exact absurd version (a.read_older member)
    · exact a.same pass member v stored version
  unshown := by
    intro pass member unrecorded v version
    rcases version_put version with old | ⟨same, rfl⟩
    · exact a.unshown pass member unrecorded v old
    · obtain ⟨v, stored⟩ := live pass member same
      rw [← same] at stored
      exact rise (same ▸ unrecorded) v (same ▸ .inl stored)
        (a.unshown pass member unrecorded v (.inl stored))
  seen := by
    intro pass member v stored
    rw [getElem?_put] at stored
    split at stored
    · next same =>
        obtain ⟨old, there⟩ := live pass member same
        exact a.seen pass member old (same ▸ there)
    · exact a.seen pass member v stored
  covered := a.covered_of (a.continues_put kept) rfl rfl

theorem Admissions.delete (a : Admissions s) : Admissions (s.deleted uid) where
  before := fun unrecorded v w => a.before unrecorded (version_deleted v) (version_deleted w)
  after := fun recorded v w => a.after recorded (version_deleted v) (version_deleted w)
  current := fun recorded v => a.current recorded (runs_of_deleted v)
  known := a.known
  read := a.read
  same := fun pass member v stored => a.same pass member v (runs_of_deleted stored)
  unshown := fun pass member unrecorded v version =>
    a.unshown pass member unrecorded v (version_deleted version)
  seen := fun pass member v stored => a.seen pass member v (runs_of_deleted stored)
  covered := a.covered_of (continues_deleted s uid) rfl rfl

theorem Admissions.deliver (a : Admissions s) (h : History s) {c : Change K}
    {rest : List (Change K)} (first : s.pending = c :: rest) : Admissions (s.delivered c rest) := by
  have old {other : String} {v : Stored K} (version : (s.delivered c rest).Version other v) :
      s.Version other v := version_delivered first version
  have here : c ∈ s.pending := by
    rw [first]
    exact List.mem_cons_self
  refine ⟨fun unrecorded v w => a.before unrecorded (old v) (old w),
    fun recorded v w => a.after recorded (old v) (old w), a.current, a.known, a.read, a.same,
    fun pass member unrecorded v version => a.unshown pass member unrecorded v (old version),
    ?_, ?_⟩
  · intro pass member v stored
    rw [getElem?_delivered]
    split
    · next same =>
        cases value : c.stored with
        | some w => exact ⟨w, rfl⟩
        | none =>
            have gone := (h.gone c here value).1
            rw [← same] at gone
            rw [show s.runs[pass.uid]? = some v from stored] at gone
            cases gone
    · exact a.seen pass member v stored
  · intro other v was stored unfinished
    obtain ⟨w, shown, cover⟩ := a.covered was stored unfinished
    rw [getElem?_delivered]
    split
    · next same =>
        subst same
        cases value : c.stored with
        | none =>
            have gone := (h.gone c here value).1
            rw [show s.runs[c.uid]? = some v from stored] at gone
            cases gone
        | some next =>
            refine ⟨next, rfl, ?_⟩
            rcases cover with occupying | reserved
            · have mine : s.Version c.uid next := .inr (.inr ⟨c, here, rfl, value⟩)
              have seen : s.Version c.uid w := .inr (.inl shown)
              have recorded := a.occupying_admitted was seen occupying
              rcases a.after recorded seen mine (h.oldest shown mine) occupying with still | over_
              · exact .inl still
              · exact absurd (h.ended mine (.inl stored) (h.newest stored mine) over_) unfinished
            · exact .inr reserved
    · exact ⟨w, shown, cover⟩

theorem Admissions.replace (a : Admissions s) (held : Reservations) (passes : List (Pass K))
    (fewer : ∀ pass ∈ passes, pass ∈ s.passes)
    (kept : ∀ {uid : String} {v w : Stored K}, s.wasAdmitted uid = true →
      s.runs[uid]? = some v → standing v.object ≠ .finished → s.seen[uid]? = some w →
      standing w.object ≠ .occupying →
      s.held.reserved (kind K) (workspaceOf v.object) uid = true →
      held.reserved (kind K) (workspaceOf v.object) uid = true) :
    Admissions { s with held, passes } where
  before := a.before
  after := a.after
  current := a.current
  known := a.known
  read := fun pass member => a.read pass (fewer pass member)
  same := fun pass member => a.same pass (fewer pass member)
  unshown := fun pass member => a.unshown pass (fewer pass member)
  seen := fun pass member => a.seen pass (fewer pass member)
  covered := by
    intro other v was stored unfinished
    obtain ⟨_, earlier, -⟩ := continues_replace s held fewer other v was stored unfinished
    obtain ⟨w, shown, cover⟩ := a.covered earlier stored unfinished
    refine ⟨w, shown, ?_⟩
    by_cases occupying : standing w.object = .occupying
    · exact .inl occupying
    · exact .inr (kept earlier stored unfinished shown occupying (cover.resolve_left occupying))

theorem Admissions.drop (a : Admissions s) (i : Nat) :
    Admissions { s with passes := s.passes.eraseIdx i } :=
  a.replace s.held _ (fun _ member => List.mem_of_mem_eraseIdx member)
    fun _ _ _ _ _ reserved => reserved

theorem getElem?_byUid (h : History s) (uid : String) :
    (byUid s.snapshot)[uid]? = (s.seen[uid]?).map Stored.object := by
  have entries : (s.snapshot.filterMap fun p => (objectMeta p).uid.map fun u => (u, p)) =
      s.seen.toList.map fun e => (e.1, e.2.object) := by
    unfold State.snapshot
    rw [List.filterMap_map, ← List.filterMap_eq_map]
    apply List.filterMap_congr
    intro e member
    have name := (h.named (.inr (.inl (ExtTreeMap.mem_toList_iff_getElem?_eq_some.mp member)))).1
    rw [Function.comp_apply, name]
    rfl
  have one : ∀ e ∈ s.seen.toList.map fun e => (e.1, e.2.object),
      ∀ e' ∈ s.seen.toList.map fun e => (e.1, e.2.object), e.1 = e'.1 → e.2 = e'.2 := by
    intro e member e' member' same
    obtain ⟨d, listed, rfl⟩ := List.mem_map.mp member
    obtain ⟨d', listed', rfl⟩ := List.mem_map.mp member'
    have first := ExtTreeMap.mem_toList_iff_getElem?_eq_some.mp listed
    have second := ExtTreeMap.mem_toList_iff_getElem?_eq_some.mp listed'
    rw [show d.1 = d'.1 from same, second] at first
    exact congrArg Stored.object (Option.some.inj first).symm
  unfold byUid
  rw [entries]
  apply Option.ext
  intro object
  rw [TreeMaps.getElem?_ofEntries _ one, List.mem_map, Option.map_eq_some_iff]
  constructor
  · intro ⟨e, member, same⟩
    obtain ⟨rfl, rfl⟩ := Prod.mk.inj same
    exact ⟨e.2, ExtTreeMap.mem_toList_iff_getElem?_eq_some.mp member, rfl⟩
  · intro ⟨stored, shown, same⟩
    exact ⟨(uid, stored), ExtTreeMap.mem_toList_iff_getElem?_eq_some.mpr shown, by rw [← same]⟩

theorem reserved_insert {held : Reservations} {kind : PoolKind} {workspace other : String}
    {r : Reservation} (apart : other ≠ uid) :
    Reservations.reserved (held.insert uid r) kind workspace other =
      held.reserved kind workspace other := by
  have different : compare uid other ≠ .eq := fun h =>
    apart (Std.LawfulEqCmp.eq_of_compare h).symm
  unfold Reservations.reserved
  rw [ExtTreeMap.getElem?_insert, if_neg different]

theorem reserved_erase {held : Reservations} {kind : PoolKind} {workspace other : String}
    (apart : other ≠ uid) :
    Reservations.reserved (held.erase uid) kind workspace other =
      held.reserved kind workspace other := by
  have different : compare uid other ≠ .eq := fun h =>
    apart (Std.LawfulEqCmp.eq_of_compare h).symm
  unfold Reservations.reserved
  rw [ExtTreeMap.getElem?_erase, if_neg different]

theorem kept_forget (h : History s) (young : s.NoneAges) {J : Type} [Resource J]
    (other : PoolKind) (here : String) (peers : List J) (rank : J → Standing)
    (mine : other = kind K → ∀ (uid : String) (w : Stored K), s.seen[uid]? = some w →
      ∃ object, (byUid peers)[uid]? = some object ∧ rank object = standing w.object)
    {v w : Stored K} (was : s.wasAdmitted uid = true) (stored : s.runs[uid]? = some v)
    (unfinished : standing v.object ≠ .finished) (shown : s.seen[uid]? = some w)
    (open_ : standing w.object ≠ .occupying)
    (reserved : s.held.reserved (kind K) (workspaceOf v.object) uid = true) :
    (s.held.forget other here peers rank s.now).reserved (kind K) (workspaceOf v.object) uid =
      true := by
  obtain ⟨r, there, facts⟩ := (reserved_iff _ _ _ _).mp reserved
  apply reserved_forget there facts
  · cases aged : r.aged s.now with
    | false => rfl
    | true =>
        obtain ⟨w', shown', occupying⟩ := young uid r v there aged stored unfinished was
        rw [shown] at shown'
        cases shown'
        exact absurd occupying open_
  · intro same _
    obtain ⟨object, found, rank⟩ := mine same uid w shown
    refine ⟨object, found, ?_, ?_⟩
    · rwa [rank]
    · rw [rank]
      intro over_
      exact unfinished (h.ended (.inr (.inl shown)) (.inl stored)
        (h.oldest shown (.inl stored)) over_)

theorem Admissions.elsewhere (a : Admissions s) (h : History s) (young : s.NoneAges)
    {other : PoolKind} {candidate : Peer} {peers : List Peer} {limit : UInt32}
    (apart : other ≠ kind K) (stranger : uidOf candidate ∉ s.born) :
    Admissions { s with
      held := (s.held.decide other candidate (some peers) limit Peer.standing s.now).2 } := by
  refine a.replace _ s.passes (fun _ member => member) ?_
  intro uid v w was stored unfinished shown open_ reserved
  have kept := kept_forget h young other (workspaceOf candidate) peers Peer.standing
    (fun same => absurd same apart) was stored unfinished shown open_ reserved
  have differs : uid ≠ uidOf candidate := by
    rintro rfl
    exact stranger (h.named (.inl stored)).2.1
  rcases decide_cases s.held other candidate peers limit Peer.standing s.now with
    ⟨-, -, table⟩ | ⟨-, -, table⟩
  · rw [table, reserved_insert differs]
    exact kept
  · rw [table, reserved_erase differs]
    exact kept

theorem Admissions.covered_decision (a : Admissions s) (h : History s) (young : s.NoneAges)
    (here : String) {v : Stored K} (was : s.wasAdmitted uid = true)
    (stored : s.runs[uid]? = some v) (unfinished : standing v.object ≠ .finished) :
    ∃ w : Stored K, s.seen[uid]? = some w ∧ (standing w.object = .occupying ∨
      (s.held.forget (kind K) here s.snapshot standing s.now).reserved (kind K)
        (workspaceOf v.object) uid = true) := by
  obtain ⟨w, shown, cover⟩ := a.covered was stored unfinished
  refine ⟨w, shown, ?_⟩
  by_cases occupying : standing w.object = .occupying
  · exact .inl occupying
  · refine .inr (kept_forget h young (kind K) here s.snapshot standing ?_ was stored unfinished
      shown occupying (cover.resolve_left occupying))
    intro _ other w' found
    exact ⟨w'.object, by rw [getElem?_byUid h, found]; rfl, rfl⟩

def State.decided (s : State K) (limit : UInt32) (uid : String) (read : Stored K) : State K :=
  { s with
    held := (s.decision limit read.object).2
    passes := s.passes ++ [⟨uid, read, (s.decision limit read.object).1.isAdmitted⟩] }

theorem uidOf_seen (h : History s) {v : Stored K} (version : s.Version uid v) :
    uidOf v.object = uid := by
  unfold uidOf
  rw [(h.named version).1]
  rfl

theorem wasAdmitted_decided {limit : UInt32} {read : Stored K} {other : String}
    (was : (s.decided limit uid read).wasAdmitted other = true) : s.wasAdmitted other = true ∨
      (other = uid ∧ (s.decision limit read.object).1.isAdmitted = true) := by
  rw [wasAdmitted_iff] at was
  rcases was with recorded | ⟨pass, member, admits, name, facts⟩
  · exact .inl ((wasAdmitted_iff s other).mpr (.inl recorded))
  · rcases List.mem_append.mp member with old | here
    · exact .inl ((wasAdmitted_iff s other).mpr (.inr ⟨pass, old, admits, name, facts⟩))
    · rw [List.mem_singleton.mp here] at admits name
      exact .inr ⟨name.symm, admits⟩

theorem Admissions.decide (a : Admissions s) (h : History s) (limit : UInt32) {read : Stored K}
    (shown : s.seen[uid]? = some read) (gate : gated read.object = true)
    (unfinished : standing read.object ≠ .finished) (meets : Meets limit s (.decide uid)) :
    Admissions (s.decided limit uid read) where
  before := a.before
  after := a.after
  current := a.current
  known := a.known
  read := by
    intro pass member
    rcases List.mem_append.mp member with earlier | here
    · exact a.read pass earlier
    · rw [List.mem_singleton.mp here]
      obtain ⟨-, born, less⟩ := h.named (.inr (.inl shown))
      exact ⟨born, gate, unfinished, less⟩
  same := by
    intro pass member v stored version
    rcases List.mem_append.mp member with earlier | here
    · exact a.same pass earlier v stored version
    · rw [List.mem_singleton.mp here] at stored version ⊢
      exact h.unique (.inl stored) (.inr (.inl shown)) version
  unshown := by
    intro pass member unrecorded v version
    rcases List.mem_append.mp member with earlier | here
    · exact a.unshown pass earlier unrecorded v version
    · rw [List.mem_singleton.mp here] at unrecorded version
      exact a.before unrecorded (.inr (.inl shown)) version (h.oldest shown version)
        (gated_standing _ gate)
  seen := by
    intro pass member v stored
    rcases List.mem_append.mp member with earlier | here
    · exact a.seen pass earlier v stored
    · rw [List.mem_singleton.mp here]
      exact ⟨read, shown⟩
  covered := by
    intro other v was stored open_
    have mine : uidOf read.object = uid := uidOf_seen h (.inr (.inl shown))
    have workspace (same : other = uid) : workspaceOf v.object = workspaceOf read.object := by
      subst same
      exact workspaceOf_alike (h.alike (.inl stored) (.inr (.inl shown)))
    have earlier := wasAdmitted_decided was
    change ∃ w : Stored K, s.seen[other]? = some w ∧ (standing w.object = .occupying ∨
      (s.decision limit read.object).2.reserved (kind K) (workspaceOf v.object) other = true)
    rcases decide_cases s.held (kind K) read.object s.snapshot limit standing s.now with
      ⟨-, -, table⟩ | ⟨full, queued, table⟩
    · rw [State.decision, table, mine]
      by_cases same : other = uid
      · refine ⟨read, same ▸ shown, .inr ((reserved_iff _ _ _ _).mpr ?_)⟩
        rw [workspace same, same]
        exact ⟨_, ExtTreeMap.getElem?_insert_self, rfl, rfl⟩
      · rw [reserved_insert same]
        exact a.covered_decision h meets.1 _ (earlier.resolve_right fun both => same both.1) stored
          open_
    · rw [State.decision, table, mine]
      have before_ := earlier.resolve_right fun both => by
        rw [State.decision, queued] at both
        exact Bool.false_ne_true both.2
      by_cases same : other = uid
      · subst same
        exact absurd (meets.2 read shown before_) (Nat.not_lt_of_le full)
      · rw [reserved_erase same]
        exact a.covered_decision h meets.1 _ before_ stored open_

theorem Admissions.unrecorded (a : Admissions s) {pass : Pass K} (member : pass ∈ s.passes)
    {current : Stored K} (stored : s.runs[pass.uid]? = some current)
    (version : current.version = pass.read.version) :
    current = pass.read ∧ pass.uid ∉ s.admitted := by
  have same := a.same pass member current stored version
  obtain ⟨-, gate, unfinished, -⟩ := a.read pass member
  refine ⟨same, fun recorded => ?_⟩
  rcases a.current recorded stored with occupying | finished
  · exact gated_standing _ gate (same ▸ occupying)
  · exact unfinished (same ▸ finished)

theorem Admissions.continues_recorded (a : Admissions s) {pass : Pass K} {i : Nat}
    (member : pass ∈ s.passes) (admits : pass.admits = true) {current : Stored K}
    (stored : s.runs[pass.uid]? = some current)
    (version : current.version = pass.read.version) : Continues s (s.recorded i pass) := by
  intro other v was there open_
  rw [getElem?_recorded] at there
  rw [wasAdmitted_iff] at was
  split at there
  · next here =>
      subst here
      cases there
      obtain ⟨same, -⟩ := a.unrecorded member stored version
      refine ⟨current, (wasAdmitted_iff s _).mpr (.inr ⟨pass, member, admits, rfl, current, stored,
        version⟩), stored, same ▸ (a.read pass member).2.2.1, ?_⟩
      rw [objectMeta_admitted, same]
  · next apart =>
      refine ⟨v, (wasAdmitted_iff s other).mpr ?_, there, open_, rfl⟩
      rcases was with recorded | ⟨pass', left, admits', name, current', there', version'⟩
      · exact .inl ((List.mem_cons.mp recorded).resolve_left apart)
      · rw [getElem?_recorded, if_neg apart] at there'
        exact .inr ⟨pass', List.mem_of_mem_eraseIdx left, admits', name, current', there', version'⟩

theorem Admissions.write_admitted (a : Admissions s) (h : History s) {pass : Pass K} (i : Nat)
    (member : pass ∈ s.passes) (admits : pass.admits = true) {current : Stored K}
    (stored : s.runs[pass.uid]? = some current)
    (version : current.version = pass.read.version) :
    Admissions (s.recorded i pass) := by
  obtain ⟨same, unrecorded⟩ := a.unrecorded member stored version
  obtain ⟨-, gate, unfinished, -⟩ := a.read pass member
  have occupying : standing (admitted pass.read.object) = .occupying :=
    standing_admitted _ gate unfinished
  have fewer (other : Pass K) (left : other ∈ s.passes.eraseIdx i) : other ∈ s.passes :=
    List.mem_of_mem_eraseIdx left
  have old {other : String} {v : Stored K} (apart : other ≠ pass.uid)
      (version : (s.recorded i pass).Version other v) : s.Version other v :=
    (version_put version).resolve_right fun both => apart both.1
  constructor
  · intro other v w unrecorded first second
    obtain ⟨apart, unrecorded⟩ := not_or.mp (List.mem_cons.not.mp unrecorded)
    exact a.before unrecorded (old apart first) (old apart second)
  · intro other v w recorded first second order holds
    rcases version_put first with earlier | ⟨here, rfl⟩
    · by_cases apart : other = pass.uid
      · subst apart
        exact absurd holds (a.unshown pass member unrecorded v earlier)
      · have recorded := (List.mem_cons.mp recorded).resolve_left apart
        exact a.after recorded earlier (old apart second) order holds
    · rcases version_put second with later | ⟨-, rfl⟩
      · exact absurd order (Nat.not_le_of_lt (h.named later).2.2)
      · exact .inl holds
  · intro other v recorded there
    rw [getElem?_recorded] at there
    split at there
    · cases there
      exact .inl occupying
    · next apart => exact a.current ((List.mem_cons.mp recorded).resolve_left apart) there
  · intro other recorded
    rcases List.mem_cons.mp recorded with rfl | earlier
    · exact List.mem_cons_self
    · exact List.mem_cons_of_mem _ (a.known other earlier)
  · intro other left
    obtain ⟨born, facts, open_, less⟩ := a.read other (fewer other left)
    exact ⟨List.mem_cons_of_mem _ born, facts, open_, Nat.lt_succ_of_lt less⟩
  · intro other left v there read
    rw [getElem?_recorded] at there
    split at there
    · cases there
      exact absurd read (a.read_older (fewer other left))
    · exact a.same other (fewer other left) v there read
  · intro other left unrecorded v shown
    obtain ⟨apart, unrecorded⟩ := not_or.mp (List.mem_cons.not.mp unrecorded)
    exact a.unshown other (fewer other left) unrecorded v (old apart shown)
  · intro other left v there
    rw [getElem?_recorded] at there
    split at there
    · next here => exact a.seen other (fewer other left) current (here ▸ stored)
    · exact a.seen other (fewer other left) v there
  · exact a.covered_of (a.continues_recorded member admits stored version) rfl rfl

theorem mem_holding (s : State K) (workspace uid : String) :
    uid ∈ s.holding workspace ↔ ∃ v : Stored K, s.runs[uid]? = some v ∧
      workspaceOf v.object = workspace ∧ standing v.object ≠ .finished ∧
      s.wasAdmitted uid = true := by
  unfold State.holding
  rw [List.mem_map]
  constructor
  · rintro ⟨e, member, name⟩
    obtain ⟨listed, facts⟩ := List.mem_filter.mp member
    simp only [Bool.and_eq_true, beq_iff_eq, bne_iff_ne] at facts
    subst name
    exact ⟨e.2, ExtTreeMap.mem_toList_iff_getElem?_eq_some.mp listed, facts.1.1, facts.1.2, facts.2⟩
  · rintro ⟨v, stored, workspace, unfinished, was⟩
    refine ⟨(uid, v), List.mem_filter.mpr
      ⟨ExtTreeMap.mem_toList_iff_getElem?_eq_some.mpr stored, ?_⟩, rfl⟩
    simp only [Bool.and_eq_true, beq_iff_eq, bne_iff_ne]
    exact ⟨⟨workspace, unfinished⟩, was⟩

theorem holding_nodup (s : State K) (workspace : String) : (s.holding workspace).Nodup := by
  have keys := TreeMaps.keys_nodup s.runs
  rw [← ExtTreeMap.map_fst_toList_eq_keys] at keys
  exact keys.sublist (List.filter_sublist.map _)

theorem holding_le (continues : Continues s s') (workspace : String) :
    (s'.holding workspace).length ≤ (s.holding workspace).length := by
  apply (List.subperm_of_subset (holding_nodup s' workspace) _).length_le
  intro uid member
  obtain ⟨v', stored, here, unfinished, was⟩ := (mem_holding s' workspace uid).mp member
  obtain ⟨v, earlier, there, open_, alike⟩ := continues uid v' was stored unfinished
  exact (mem_holding s workspace uid).mpr ⟨v, there, workspaceOf_alike alike ▸ here, open_, earlier⟩

theorem holding_le_taken (a : Admissions s) (h : History s) (young : s.NoneAges)
    {read : Stored K} (shown : s.seen[uid]? = some read) :
    ((s.holding (workspaceOf read.object)).erase uid).length ≤
      s.held.taken (kind K) read.object s.snapshot standing s.now := by
  have mine : uidOf read.object = uid := uidOf_seen h (.inr (.inl shown))
  have keys := TreeMaps.keys_nodup s.seen
  rw [← ExtTreeMap.map_fst_toList_eq_keys] at keys
  unfold Reservations.taken State.snapshot
  rw [List.countP_map, List.countP_eq_length_filter, ← List.length_map (f := Prod.fst)]
  apply (List.subperm_of_subset ((holding_nodup s _).erase uid) _).length_le
  intro other member
  obtain ⟨apart, holds⟩ := (holding_nodup s _).mem_erase_iff.mp member
  obtain ⟨v, stored, here, unfinished, was⟩ := (mem_holding s _ other).mp holds
  obtain ⟨w, found, cover⟩ := a.covered_decision h young (workspaceOf read.object) was stored
    unfinished
  have version : s.Version other w := .inr (.inl found)
  refine List.mem_map.mpr ⟨(other, w), List.mem_filter.mpr
    ⟨ExtTreeMap.mem_toList_iff_getElem?_eq_some.mpr found, ?_⟩, rfl⟩
  have open_ : standing w.object ≠ .finished := fun over_ =>
    unfinished (h.ended version (.inl stored) (h.oldest found (.inl stored)) over_)
  have same : workspaceOf w.object = workspaceOf read.object :=
    (workspaceOf_alike (h.alike version (.inl stored))).trans here
  rw [here] at cover
  unfold takesSlot
  simp only [Function.comp_apply, same, uidOf_seen h version, mine, beq_self_eq_true, Bool.true_and,
    Bool.and_eq_true, bne_iff_ne, Bool.or_eq_true, beq_iff_eq]
  refine ⟨apart, ?_⟩
  rcases cover with occupying | reserved
  · exact .inl occupying
  · exact .inr ⟨open_, reserved⟩

theorem holding_decided (a : Admissions s) (h : History s) (limit : UInt32) {read : Stored K}
    (shown : s.seen[uid]? = some read) (young : s.NoneAges) (workspace : String)
    (below : (s.holding workspace).length ≤ limit.toNat) :
    ((s.decided limit uid read).holding workspace).length ≤ limit.toNat := by
  have inside {other : String} (member : other ∈ (s.decided limit uid read).holding workspace) :
      other ∈ s.holding workspace ∨ (other = uid ∧ workspaceOf read.object = workspace ∧
        (s.decision limit read.object).1.isAdmitted = true) := by
    obtain ⟨v, stored, here, unfinished, was⟩ := (mem_holding _ _ other).mp member
    rcases wasAdmitted_decided was with earlier | ⟨rfl, admits⟩
    · exact .inl ((mem_holding s workspace other).mpr ⟨v, stored, here, unfinished, earlier⟩)
    · have alike := h.alike (.inl stored) (.inr (.inl shown))
      exact .inr ⟨rfl, (workspaceOf_alike alike).symm.trans here, admits⟩
  by_cases new : workspaceOf read.object = workspace ∧
      (s.decision limit read.object).1.isAdmitted = true
  · obtain ⟨rfl, admits⟩ := new
    have free : s.held.taken (kind K) read.object s.snapshot standing s.now < limit.toNat := by
      rcases decide_cases s.held (kind K) read.object s.snapshot limit standing s.now with
        ⟨free, -⟩ | ⟨-, queued, -⟩
      · omega
      · rw [State.decision, queued] at admits
        cases admits
    have others := holding_le_taken a h young shown
    have within : ((s.decided limit uid read).holding (workspaceOf read.object)).length ≤
        (uid :: (s.holding (workspaceOf read.object)).erase uid).length := by
      apply (List.subperm_of_subset (holding_nodup _ _) _).length_le
      intro other member
      by_cases same : other = uid
      · exact List.mem_cons.mpr (.inl same)
      · refine List.mem_cons_of_mem _ ((holding_nodup s _).mem_erase_iff.mpr ⟨same, ?_⟩)
        exact (inside member).resolve_right fun both => same both.1
    rw [List.length_cons] at within
    omega
  · apply Nat.le_trans _ below
    apply (List.subperm_of_subset (holding_nodup _ _) _).length_le
    intro other member
    exact (inside member).resolve_right fun both => new both.2

structure Safe (limit : UInt32) (s : State K) : Prop where
  history : History s
  admissions : Admissions s
  ceiling : ∀ workspace, (s.holding workspace).length ≤ limit.toNat

theorem Safe.start {limit : UInt32} (initial : Initial s) : Safe limit s := by
  have version {uid : String} {v : Stored K} (version : s.Version uid v) :
      s.runs[uid]? = some v := by
    rcases version with stored | shown | ⟨c, member, -⟩
    · exact stored
    · rwa [initial.seen] at shown
    · rw [initial.pending] at member
      cases member
  have one {uid : String} {v w : Stored K} (first : s.Version uid v) (second : s.Version uid w) :
      v = w := Option.some.inj ((version first).symm.trans (version second))
  have unrecorded (uid : String) : uid ∉ s.admitted := by
    rw [initial.admitted]
    exact List.not_mem_nil
  have idle (pass : Pass K) : pass ∉ s.passes := by
    rw [initial.passes]
    exact List.not_mem_nil
  have nobody (uid : String) : ¬ s.wasAdmitted uid = true := by
    rw [wasAdmitted_iff]
    intro was
    rcases was with recorded | ⟨pass, member, -⟩
    · exact unrecorded uid recorded
    · exact idle pass member
  refine ⟨?_, ?_, ?_⟩
  · refine ⟨?_, ?_, ?_, ?_, ?_, ?_, ?_, ?_, ?_⟩
    · intro uid v at_
      obtain ⟨name, born, less, -⟩ := initial.runs uid v (version at_)
      exact ⟨name, born, less⟩
    · intro uid v w first second
      rw [one first second]
    · exact fun first second _ => one first second
    · intro uid v w shown second
      exact Nat.le_of_eq (by rw [one (.inr (.inl shown)) second])
    · intro uid v w stored second
      exact Nat.le_of_eq (by rw [one (.inl stored) second])
    · rw [initial.pending]
      exact .nil
    · rw [initial.pending]
      exact fun _ none => nomatch none
    · intro uid v w first second _ over_
      rwa [← one first second]
    · intro uid v at_ outside
      exact (initial.runs uid v (version at_)).2.2.2 outside
  · refine ⟨?_, ?_, ?_, ?_, ?_, ?_, ?_, ?_, ?_⟩
    · intro uid v w _ first second _ free
      rwa [← one first second]
    · exact fun recorded => absurd recorded (unrecorded _)
    · exact fun recorded => absurd recorded (unrecorded _)
    · exact fun uid recorded => absurd recorded (unrecorded uid)
    · exact fun pass member => absurd member (idle pass)
    · exact fun pass member => absurd member (idle pass)
    · exact fun pass member => absurd member (idle pass)
    · exact fun pass member => absurd member (idle pass)
    · exact fun was => absurd was (nobody _)
  · intro workspace
    have none : s.holding workspace = [] := by
      apply List.eq_nil_iff_forall_not_mem.mpr
      intro uid member
      obtain ⟨_, -, -, -, was⟩ := (mem_holding s workspace uid).mp member
      exact nobody uid was
    rw [none]
    exact Nat.zero_le _

theorem Safe.overwrite {limit : UInt32} (safe : Safe limit s) {old : Stored K}
    (stored : s.runs[uid]? = some old) (alike : objectMeta object = objectMeta old.object)
    (ended : standing old.object = .finished → standing object = .finished)
    (rise : uid ∉ s.admitted → standing old.object ≠ .occupying → standing object ≠ .occupying)
    (stays : uid ∈ s.admitted → standing object = .occupying ∨ standing object = .finished) :
    Safe limit (s.put uid object) := by
  have kept : uid ∈ s.admitted → ∃ old : Stored K, s.runs[uid]? = some old ∧
      objectMeta object = objectMeta old.object ∧
      (standing old.object = .finished → standing object = .finished) :=
    fun _ => ⟨old, stored, alike, ended⟩
  refine ⟨safe.history.overwrite stored alike ended, ?_, fun workspace =>
    Nat.le_trans (holding_le (safe.admissions.continues_put kept) workspace)
      (safe.ceiling workspace)⟩
  apply safe.admissions.put safe.history _ stays kept fun _ _ _ => ⟨old, stored⟩
  intro unrecorded v version free
  exact rise unrecorded (safe.admissions.before unrecorded version (.inl stored)
    (safe.history.newest stored version) free)

theorem Safe.arrive {limit : UInt32} (safe : Safe limit s) (fresh : uid ∉ s.born)
    (named : (objectMeta object).uid = some uid) : Safe limit (s.put uid object) := by
  have unseen (v : Stored K) : ¬ s.Version uid v := fun version =>
    fresh (safe.history.named version).2.1
  have unrecorded : uid ∉ s.admitted := fun recorded => fresh (safe.admissions.known uid recorded)
  refine ⟨?_, ?_, fun workspace => Nat.le_trans (holding_le (safe.admissions.continues_put
    fun recorded => absurd recorded unrecorded) workspace) (safe.ceiling workspace)⟩
  · apply safe.history.put named
    · exact fun v version => absurd version (unseen v)
    · exact fun v version => absurd version (unseen v)
    · intro c member none same
      exact fresh (same ▸ (safe.history.gone c member none).2)
  · apply safe.admissions.put safe.history
    · exact fun _ v version => absurd version (unseen v)
    · exact fun recorded => absurd recorded unrecorded
    · exact fun recorded => absurd recorded unrecorded
    · exact fun pass member same => absurd (same ▸ (safe.admissions.read pass member).1) fresh

theorem Safe.drop {limit : UInt32} (safe : Safe limit s) (i : Nat) :
    Safe limit { s with passes := s.passes.eraseIdx i } where
  history := safe.history.replace _ _
  admissions := safe.admissions.drop i
  ceiling := fun workspace => Nat.le_trans (holding_le (continues_replace s s.held
    fun _ left => List.mem_of_mem_eraseIdx left) workspace) (safe.ceiling workspace)

theorem Safe.written {limit : UInt32} (safe : Safe limit s) {pass : Pass K} (i : Nat)
    (member : pass ∈ s.passes) {current : Stored K} (stored : s.runs[pass.uid]? = some current)
    (version : current.version = pass.read.version) :
    Safe limit (if pass.admits then s.recorded i pass
      else State.put { s with passes := s.passes.eraseIdx i } pass.uid
        (queued pass.read.object)) := by
  obtain ⟨h, a, ceiling⟩ := safe
  obtain ⟨same, unrecorded⟩ := a.unrecorded member stored version
  obtain ⟨-, gate, unfinished, -⟩ := a.read pass member
  have ended (object : K) : standing current.object = .finished →
      standing object = .finished := fun over_ => absurd (same ▸ over_) unfinished
  split
  · next admits =>
      have history := (h.replace s.held (s.passes.eraseIdx i)).overwrite stored
        (by rw [objectMeta_admitted, same]) (ended (admitted pass.read.object))
      exact ⟨⟨history.named, history.alike, history.unique, history.oldest, history.newest,
        history.ascending, history.gone, history.ended, history.paused⟩,
        a.write_admitted h i member admits stored version, fun workspace =>
        Nat.le_trans (holding_le (a.continues_recorded member admits stored version) workspace)
          (ceiling workspace)⟩
  · apply (Safe.drop ⟨h, a, ceiling⟩ i).overwrite stored
    · rw [objectMeta_queued, same]
    · exact ended _
    · intro _ _
      rw [standing_queued _ gate unfinished]
      exact Standing.noConfusion
    · exact fun recorded => absurd recorded unrecorded

theorem Safe.step {limit : UInt32} (safe : Safe limit s) {action : Action K}
    (meets : Meets limit s action) (after : RunPool.step limit s action = some s') :
    Safe limit s' := by
  obtain ⟨h, a, ceiling⟩ := safe
  cases action with
  | wait elapsed =>
      simp only [RunPool.step] at after
      split at after
      · cases after
        exact ⟨⟨h.named, h.alike, h.unique, h.oldest, h.newest, h.ascending, h.gone, h.ended,
          h.paused⟩, ⟨a.before, a.after, a.current, a.known, a.read, a.same, a.unshown, a.seen,
          a.covered⟩, ceiling⟩
      · cases after
  | arrive uid run =>
      simp only [RunPool.step] at after
      split at after
      · next may =>
          cases after
          exact Safe.arrive ⟨h, a, ceiling⟩ may.1 may.2.1
      · cases after
  | change uid run =>
      obtain ⟨old, stored, after⟩ := Option.bind_eq_some_iff.mp after
      split at after
      · next may =>
          cases after
          have become := mayBecome_iff.mp may.2
          apply Safe.overwrite ⟨h, a, ceiling⟩ stored may.1 become.1
          · exact fun _ free occupying => free (become.2 occupying)
          · exact meets
      · cases after
  | delete uid =>
      simp only [RunPool.step] at after
      split at after
      · next there =>
          cases after
          obtain ⟨old, stored⟩ := Option.isSome_iff_exists.mp
            (ExtTreeMap.mem_iff_isSome_getElem?.mp there)
          exact ⟨h.delete (h.named (.inl stored)).2.1, a.delete, fun workspace =>
            Nat.le_trans (holding_le (continues_deleted s uid) workspace) (ceiling workspace)⟩
      · cases after
  | deliver =>
      simp only [RunPool.step] at after
      split at after
      · cases after
      · next c rest first =>
          cases after
          exact ⟨h.deliver first, a.deliver h first, ceiling⟩
  | decide uid =>
      obtain ⟨read, shown, after⟩ := Option.bind_eq_some_iff.mp after
      split at after
      · next may =>
          cases after
          exact ⟨h.replace _ _, a.decide h limit shown may.1 may.2.1 meets, fun workspace =>
            holding_decided a h limit shown meets.1 workspace (ceiling workspace)⟩
      · cases after
  | elsewhere other candidate peers limit =>
      simp only [RunPool.step] at after
      split at after
      · next may =>
          cases after
          exact ⟨h.replace _ _, a.elsewhere h meets may.1 may.2, ceiling⟩
      · cases after
  | write i =>
      obtain ⟨pass, there, after⟩ := Option.bind_eq_some_iff.mp after
      obtain ⟨current, stored, after⟩ := Option.bind_eq_some_iff.mp after
      have member := List.mem_of_getElem? there
      split at after
      · cases after
        exact Safe.drop ⟨h, a, ceiling⟩ i
      · next version =>
          have version := Decidable.not_not.mp version
          have written := Safe.written ⟨h, a, ceiling⟩ i member stored version
          split at after
          · next admits =>
              cases after
              rwa [if_pos admits] at written
          · next queues =>
              cases after
              rwa [if_neg queues] at written
  | fail i =>
      simp only [RunPool.step] at after
      split at after
      · cases after
        exact Safe.drop ⟨h, a, ceiling⟩ i
      · cases after

theorem Reaches.safe {limit : UInt32} (reached : Reaches limit (Meets limit) s) : Safe limit s := by
  induction reached with
  | start initial => exact .start initial
  | step _ meets after ih => exact ih.step meets after

def State.aheadOf (s : State K) (run : K) : List K :=
  s.snapshot.filter fun p => workspaceOf p == workspaceOf run && uidOf p != uidOf run &&
    standing p != .finished && !s.paused.contains (uidOf p) &&
    (QueueKey.of p).before (QueueKey.of run)

theorem countP_le_add {α : Type} {p q r : α → Bool} (l : List α)
    (either : ∀ x ∈ l, p x = true → q x = true ∨ r x = true) :
    l.countP p ≤ l.countP q + l.countP r := by
  induction l with
  | nil => exact Nat.zero_le _
  | cons x l ih =>
      have rest := ih fun y member => either y (List.mem_cons_of_mem x member)
      have first : (if p x = true then 1 else 0) ≤
          (if q x = true then 1 else 0) + if r x = true then 1 else 0 := by
        split
        · next holds =>
            rcases either x List.mem_cons_self holds with one | one
            · rw [if_pos one]
              omega
            · rw [if_pos one]
              omega
        · exact Nat.zero_le _
      rw [List.countP_cons, List.countP_cons, List.countP_cons]
      omega

theorem aheadOf_le (h : History s) (run : K) :
    (s.aheadOf run).length ≤ s.held.taken (kind K) run s.snapshot standing s.now +
      s.held.older (kind K) run s.snapshot standing s.now := by
  unfold State.aheadOf Reservations.taken Reservations.older
  rw [← List.countP_eq_length_filter]
  apply countP_le_add
  intro p member older
  simp only [Bool.and_eq_true, beq_iff_eq, bne_iff_ne, Bool.not_eq_true'] at older
  obtain ⟨⟨⟨⟨here, apart⟩, unfinished⟩, never⟩, before⟩ := older
  have open_ : standing p ≠ .outside := by
    intro outside
    obtain ⟨e, listed, rfl⟩ := List.mem_map.mp member
    have version : s.Version e.1 e.2 :=
      .inr (.inl (ExtTreeMap.mem_toList_iff_getElem?_eq_some.mp listed))
    rw [uidOf_seen h version] at never
    have held := List.contains_iff_mem.mpr (h.paused version outside)
    rw [never] at held
    cases held
  have differs : (uidOf p != uidOf run) = true := bne_iff_ne.mpr apart
  unfold takesSlot waitsAhead
  simp only [here, differs, before, beq_self_eq_true, Bool.true_and, Bool.and_true]
  cases standing_ : standing p with
  | occupying => exact .inl rfl
  | outside => exact absurd standing_ open_
  | finished => exact absurd standing_ unfinished
  | waiting =>
      cases (s.held.forget (kind K) (workspaceOf run) s.snapshot standing s.now).reserved (kind K)
          (workspaceOf run) (uidOf p) with
      | true => exact .inl rfl
      | false => exact .inr rfl

/-- In a run that meets the condition no workspace has more unfinished admitted runs than the
ceiling, no admitted run is queued again, and none passes as many older runs as the ceiling. -/
theorem ceiling_holds {limit : UInt32} (reached : Reaches limit (Meets limit) s) :
    (∀ workspace, (s.holding workspace).length ≤ limit.toNat) ∧
      ∀ (uid : String) (s' : State K), Meets limit s (.decide uid) →
        step limit s (.decide uid) = some s' → ∃ read : Stored K, s.seen[uid]? = some read ∧
          (s.wasAdmitted uid = true → (s.decision limit read.object).1.isAdmitted = true) ∧
          ((s.decision limit read.object).1.isAdmitted = true →
            (s.aheadOf read.object).length < limit.toNat) := by
  have safe := reached.safe
  refine ⟨safe.ceiling, ?_⟩
  intro uid s' meets after
  obtain ⟨read, shown, -⟩ := Option.bind_eq_some_iff.mp after
  have counted := aheadOf_le safe.history read.object
  refine ⟨read, shown, ?_⟩
  rcases decide_cases s.held (kind K) read.object s.snapshot limit standing s.now with
    ⟨free, admits, -⟩ | ⟨full, queued, -⟩
  · exact ⟨fun _ => admits, fun _ => Nat.lt_of_le_of_lt counted free⟩
  · constructor
    · exact fun was => absurd (meets.2 read shown was) (Nat.not_lt_of_le full)
    · intro admits
      rw [State.decision, queued] at admits
      cases admits

theorem Reaches.run {limit : UInt32} {allowed : State K → Action K → Prop}
    (always : ∀ s a, allowed s a) : ∀ (actions : List (Action K)) (s s' : State K),
      Reaches limit allowed s → RunPool.run limit s actions = some s' →
      Reaches limit allowed s' := by
  intro actions
  induction actions with
  | nil =>
      intro s s' reached after
      cases after
      exact reached
  | cons a actions ih =>
      intro s s' reached after
      unfold RunPool.run at after
      rw [List.foldlM_cons] at after
      obtain ⟨next, first, rest⟩ := Option.bind_eq_some_iff.mp after
      exact ih next s' (reached.step (always s a) first) rest

def sampleBackup (uid : String) (created : Int) (phase : Option String) : Backup where
  metadata := { uid := some uid, creationTimestamp := some created, workspace := some "prd" }
  trigger := none
  triggeredBy := "console"
  status := phase.map fun p => { phase := some p }

def sampleRuns : ExtTreeMap String (Stored Backup) :=
  TreeMaps.ofEntries [("held", ⟨0, sampleBackup "held" 1 (some PHASE_PENDING)⟩),
    ("new", ⟨1, sampleBackup "new" 2 none⟩)]

def sampleState : State Backup where
  now := 0
  runs := sampleRuns
  seen := sampleRuns
  pending := []
  version := 2
  held := ∅
  passes := []
  born := ["held", "new"]
  admitted := []
  paused := ["held"]

theorem sampleState_initial : Initial sampleState where
  pending := rfl
  seen := rfl
  held := rfl
  passes := rfl
  admitted := rfl
  runs := by
    have each : ∀ e ∈ sampleState.runs.toList, (objectMeta e.2.object).uid = some e.1 ∧
        e.1 ∈ sampleState.born ∧ e.2.version < sampleState.version ∧
        (standing e.2.object = .outside → e.1 ∈ sampleState.paused) := by
      decide +kernel
    intro uid stored held
    exact each (uid, stored) (ExtTreeMap.mem_toList_iff_getElem?_eq_some.mpr held)

theorem one_admitted : ∃ s : State Backup, Reaches 1 (Meets 1) s ∧ s.holding "prd" = ["new"] ∧
    ∀ workspace, (s.holding workspace).length ≤ (1 : UInt32).toNat := by
  have meets : Meets 1 sampleState (.decide "new") := by
    constructor
    · intro uid r current there
      rw [show sampleState.held = ∅ from rfl, ExtTreeMap.getElem?_empty] at there
      cases there
    · intro read _ was
      exact absurd was (by decide +kernel)
  have ok : ((step 1 sampleState (.decide "new")).map fun s => s.holding "prd") =
      some ["new"] := by decide +kernel
  obtain ⟨s, after, held⟩ := Option.map_eq_some_iff.mp ok
  have reached := (Reaches.start sampleState_initial).step meets after
  exact ⟨s, reached, held, (ceiling_holds reached).1⟩

/-- The held run is released and queued behind the admitted one; decided once more before its
record is shown, the admitted one is queued behind the older run and loses its reservation, which
the older run then takes. -/
theorem two_runs_hold_one_slot : ∃ s : State Backup, Reaches 1 (fun _ _ => True) s ∧
    (1 : UInt32).toNat < (s.holding "prd").length := by
  have ok : ((run 1 sampleState [.decide "new", .decide "held", .write 1, .write 0, .deliver,
      .decide "new", .decide "held", .write 1]).map fun s => s.holding "prd") =
        some ["held", "new"] := by decide +kernel
  obtain ⟨s, after, held⟩ := Option.map_eq_some_iff.mp ok
  refine ⟨s, Reaches.run (fun _ _ => trivial) _ _ s (.start sampleState_initial) after, ?_⟩
  rw [held]
  decide

end Logweir.RunPool
