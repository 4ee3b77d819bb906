import Logweir.Retention.Warrant

/-!
# A run of the worker

What a line of a run adds to the log and reports, and from it, by the loop over the lines,
that every delete of a run is warranted and every point reported deleted is vouched for.
-/

set_option autoImplicit false

namespace Logweir.Retention

open Logweir.Text Logweir.Results Logweir.Programs Program

/-- The keys a line came to mean: the plan's own, or a listing that passed its checks. -/
def Resolved (log : Log) (line : PlanLine) (keys : List String) : Prop :=
  (line.enumerateSet = false ∧ keys = line.objectKeys) ∨
  (line.enumerateSet = true ∧ ∃ listed,
    (⟨Call.list line line.setPrefix, Except.ok listed⟩ : Event Call Answer) ∈ log ∧
      checkListed line listed = .ok keys)

/-- Every key the line came to mean was answered gone, and then its check came back without a
version id. -/
def Vouched (run : RunAttribution) (log : Log) (line : PlanLine) : Prop :=
  ∃ keys before after bytes version, Resolved log line keys ∧
    log = before ++ (⟨Call.put line (tombstoneKey run line.pointId "check") bytes,
      Except.ok version⟩ : Event Call Answer) :: after ∧
    isVersioned version = false ∧ ∀ key ∈ keys, Gone before line key

/-- Every point reported deleted is vouched for. -/
def Sound (plan : Plan) (run : RunAttribution) (log : Log) (out : Outcome) : Prop :=
  ∀ p ∈ out.points, p.state = PointState.deleted.asStr →
    ∃ line ∈ plan.lines, p.pointId ∈ linePoints line ∧ Vouched run log line

/-- Every call so far is for one of these lines, and every delete is of a key its line may
delete. -/
structure Past (lines : List PlanLine) (log : Log) : Prop where
  made : ∀ e ∈ log, e.call.line ∈ lines
  bound : ∀ e ∈ log, ∀ l k, e.call = Call.delete l k → Bound l k

/-- The log grew by calls for the line, none of which deletes. -/
def Idle (line : PlanLine) (log log' : Log) : Prop :=
  ∃ more, log' = log ++ more ∧ ∀ e ∈ more, e.call.line = line ∧ ∀ l k, e.call ≠ Call.delete l k

section

variable {plan : Plan} {run : RunAttribution} {limits : Limits} {line : PlanLine}
  {keys points : List String} {log log' : Log} {lines front : List PlanLine} {out : Outcome}

theorem Past.added (past : Past lines log) (member : line ∈ lines)
    (added : Added run line keys log log') : Past lines log' := by
  obtain ⟨more, rfl, own⟩ := added
  constructor
  · intro e found
    rcases List.mem_append.mp found with early | late
    · exact past.made e early
    · rw [(own e late).line_eq]
      exact member
  · intro e found l k deleted
    rcases List.mem_append.mp found with early | late
    · exact past.bound e early l k deleted
    · have ours := own e late
      rw [deleted] at ours
      exact ours.1 ▸ ours.2.1

theorem Past.idle (past : Past lines log) (member : line ∈ lines) (idle : Idle line log log') :
    Past lines log' := by
  obtain ⟨more, rfl, own⟩ := idle
  constructor
  · intro e found
    rcases List.mem_append.mp found with early | late
    · exact past.made e early
    · rw [(own e late).1]
      exact member
  · intro e found l k deleted
    rcases List.mem_append.mp found with early | late
    · exact past.bound e early l k deleted
    · exact absurd deleted ((own e late).2 l k)

theorem Past.more (past : Past front log) : Past (front ++ [line]) log where
  made := fun e found => List.mem_append_left _ (past.made e found)
  bound := past.bound

theorem Resolved.mono (resolved : Resolved log line keys) (sub : ∀ e ∈ log, e ∈ log') :
    Resolved log' line keys := by
  rcases resolved with named | ⟨listing, listed, member, passed⟩
  · exact .inl named
  · exact .inr ⟨listing, listed, sub _ member, passed⟩

theorem Vouched.grown (vouched : Vouched run log line) (grown : log <+: log') :
    Vouched run log' line := by
  obtain ⟨keys, before, after, bytes, version, resolved, rfl, plain, gone⟩ := vouched
  obtain ⟨more, rfl⟩ := grown
  refine ⟨keys, before, after ++ more, bytes, version, ?_, by simp, plain, gone⟩
  exact resolved.mono fun e member => List.mem_append_left more member

theorem Sound.grown (sound : Sound plan run log out) (grown : log <+: log') :
    Sound plan run log' out := by
  intro p member deleted
  obtain ⟨line, named, own, vouched⟩ := sound p member deleted
  exact ⟨line, named, own, vouched.grown grown⟩

theorem Added.grown (added : Added run line keys log log') : log <+: log' := by
  obtain ⟨more, rfl, -⟩ := added
  exact List.prefix_append log more

theorem orderKeys_nodup (listed : List String) : (orderKeys line listed).Nodup := by
  have rest := Ordered.ascending_dedup _ (List.pairwise_insertionSort (· ≤ ·)
    (listed.filter fun k => k ≠ line.manifestKey))
  refine List.nodup_cons.mpr ⟨fun again => ?_, rest.imp ne_of_lt⟩
  rw [Ordered.mem_dedup, List.mem_insertionSort, List.mem_filter] at again
  simp at again

theorem validateListedKey_ok {key : String} (passed : validateListedKey line key = .ok ()) :
    Fits line.setPrefix key := by
  unfold validateListedKey at passed
  unfold Fits
  split_ifs at passed with evidence outside
  exact ⟨by simpa using evidence, by simpa using outside⟩

theorem resolved_keys {scope : String} (fits : LineFits scope line) (once : line.objectKeys.Nodup)
    (resolved : Resolved log line keys) :
    keys.head? = some line.manifestKey ∧ keys.Nodup ∧ ∀ key ∈ keys, Bound line key := by
  rcases resolved with ⟨-, rfl⟩ | ⟨listing, listed, -, passed⟩
  · exact ⟨fits.first, once, fun key member => ⟨fits.keys key member, .inl member⟩⟩
  · unfold checkListed at passed
    split at passed
    · exact not_ok passed
    · next all =>
        cases passed
        refine ⟨rfl, orderKeys_nodup listed, fun key member => ⟨?_, .inr listing⟩⟩
        rcases List.mem_cons.mp member with rfl | member
        · exact fits.keys _ (List.mem_of_mem_head? fits.first)
        · rw [Ordered.mem_dedup, List.mem_insertionSort, List.mem_filter] at member
          exact validateListedKey_ok (ok_of_forM listed all key member.1)

theorem meets_resolveKeys (run : RunAttribution) : (resolveKeys line).Meets (Warrants plan run limits)
    (fun log' r => Added run line [] log log' ∧ ∀ keys, r = .ok keys → Resolved log' line keys) log := by
  unfold resolveKeys
  split
  · next listing =>
      refine meets_ask trivial fun answer => ?_
      have added : Added run line [] log (log ++ [⟨Call.list line line.setPrefix, answer⟩]) :=
        added_one rfl
      cases answer with
      | error e => exact meets_pure ⟨added, by simp⟩
      | ok listed =>
          exact meets_pure ⟨added, fun keys passed => .inr ⟨listing, listed, by simp, passed⟩⟩
  · next named =>
      refine meets_pure ⟨.refl, fun keys same => .inl ⟨by simpa using named, ?_⟩⟩
      exact (Except.ok.inj same).symm

theorem tombstoneKey_toList (run : RunAttribution) (point front stage : String) :
    ∃ before, (tombstoneKey run point (front ++ stage)).toList = before ++ (stage ++ ".json").toList := by
  refine ⟨(s!"{EVIDENCE_ROOT}retention/{run.policyUid}/{run.runId}/{point}." ++ front).toList, ?_⟩
  simp [tombstoneKey, String.toList_append, toString]

theorem intent_ne_check (point point' : String) :
    tombstoneKey run point "intent" ≠ tombstoneKey run point' "check" := by
  intro same
  obtain ⟨before, intent⟩ := tombstoneKey_toList run point "inten" "t"
  obtain ⟨before', check⟩ := tombstoneKey_toList run point' "chec" "k"
  have texts : (tombstoneKey run point ("inten" ++ "t")).toList =
      (tombstoneKey run point' ("chec" ++ "k")).toList := congrArg String.toList same
  rw [intent, check] at texts
  exact absurd (List.append_inj_right' texts rfl) (by decide)

theorem meets_writeIntents {versioned : Bool} :
    (writeIntents run line keys points versioned).Meets (Warrants plan run limits)
      (fun log' r => Added run line [] log log' ∧ (r = .ok false → versioned = false ∧
        ∀ point ∈ points, Written log' line (tombstoneKey run point "intent"))) log := by
  induction points generalizing log versioned with
  | nil => exact meets_pure ⟨.refl, fun same => ⟨Except.ok.inj same, by simp⟩⟩
  | cons point points ih =>
      refine meets_ask trivial fun answer => ?_
      have own : ∀ bytes, Own run line [] (Call.put line (tombstoneKey run point "intent") bytes) :=
        fun bytes => ⟨rfl, intent_ne_check point line.pointId⟩
      cases answer with
      | error e => exact meets_pure ⟨added_one (own _), by simp⟩
      | ok version =>
          refine meets_mono ih fun log' r held => ⟨(added_one (own _)).trans held.1, fun same => ?_⟩
          obtain ⟨plain, written⟩ := held.2 same
          rw [Bool.or_eq_false_iff] at plain
          refine ⟨plain.1, List.forall_mem_cons.mpr ⟨?_, written⟩⟩
          exact ⟨_, version, held.1.sub (List.mem_append_right _ (List.mem_singleton_self _)), plain.2⟩

theorem idle_put {key : String} {bytes : Bytes} {answer : Except String (Option String)} :
    Idle line log (log ++ [⟨Call.put line key bytes, answer⟩]) :=
  ⟨_, rfl, by simp [Call.line]⟩

theorem Idle.trans {log'' : Log} (first : Idle line log log') (second : Idle line log' log'') :
    Idle line log log'' := by
  obtain ⟨more, rfl, own⟩ := first
  obtain ⟨more', rfl, own'⟩ := second
  refine ⟨more ++ more', by simp, fun e member => ?_⟩
  rcases List.mem_append.mp member with early | late
  · exact own e early
  · exact own' e late

theorem meets_writeCompletions {removed : Int} {remaining : List String} {code text : Option String} :
    (writeCompletions run line removed remaining code points text).Meets (Warrants plan run limits)
      (fun log' _ => Idle line log log') log := by
  induction points generalizing log text with
  | nil => exact meets_pure ⟨[], by simp, by simp⟩
  | cons point points ih =>
      refine meets_ask trivial fun answer => ?_
      cases answer with
      | error e => exact meets_mono ih fun log' _ idle => idle_put.trans idle
      | ok version => exact meets_mono ih fun log' _ idle => idle_put.trans idle

theorem meets_deleteSegments {p : Progress}
    (ready : ∀ key ∈ keys, Ready plan run limits log line key) (once : keys.Nodup)
    (fresh : Apart plan → ∀ key ∈ keys, deletesOf key log = []) :
    (deleteSegments limits line keys p).Meets (Warrants plan run limits)
      (fun log' r => Added run line keys log log' ∧ r.out.points = p.out.points ∧
        (r.remaining = [] → p.remaining = [] ∧ ∀ key ∈ keys, Gone log' line key)) log := by
  induction keys generalizing log p with
  | nil => exact meets_pure ⟨.refl, rfl, fun none => ⟨none, by simp⟩⟩
  | cons key keys ih =>
      obtain ⟨here, later⟩ := List.forall_mem_cons.mp ready
      obtain ⟨apart, distinct⟩ := List.nodup_cons.mp once
      have wider : ∀ k ∈ keys, k ∈ key :: keys := fun k => List.mem_cons_of_mem key
      unfold deleteSegments
      split
      · refine meets_mono (ih later distinct fun a k member => fresh a k (wider k member))
          fun log' r held => ⟨held.1.mono wider, held.2.1, fun none => ?_⟩
        exact absurd (held.2.2 none).1 (by simp)
      · refine meets_seq (meets_attempt_key here fun a => fresh a key List.mem_cons_self)
          fun log₁ r _ tried => ?_
        have added : Added run line (key :: keys) log log₁ := tried.1.mono (by simp)
        have ready₁ : ∀ k ∈ keys, Ready plan run limits log₁ line k :=
          fun k member => (later k member).added tried.1
        have fresh₁ : Apart plan → ∀ k ∈ keys, deletesOf k log₁ = [] := fun a k member => by
          have other : k ∉ [key] := fun same => apart (List.mem_singleton.mp same ▸ member)
          rw [tried.1.deletesOf_eq other]
          exact fresh a k (wider k member)
        obtain ⟨gone, why, out⟩ := r
        cases gone with
        | true =>
            refine meets_mono (ih ready₁ distinct fresh₁) fun log' r held =>
              ⟨added.trans (held.1.mono wider), held.2.1.trans tried.2.2, fun none => ?_⟩
            obtain ⟨kept, all⟩ := held.2.2 none
            refine ⟨kept, List.forall_mem_cons.mpr ⟨?_, all⟩⟩
            exact (tried.2.1 rfl).mono fun _ => held.1.sub
        | false =>
            refine meets_mono (ih ready₁ distinct fresh₁) fun log' r held =>
              ⟨added.trans (held.1.mono wider), held.2.1.trans tried.2.2, fun none => ?_⟩
            exact absurd (held.2.2 none).1 (by simp)

theorem mem_pushLine {state : PointState} {n : Int} {remaining : List String} {code : Option String}
    {p : PointOutcome} (member : p ∈ (pushLine out line state n remaining code).points) :
    p ∈ out.points ∨ (p.pointId ∈ linePoints line ∧ p.state = state.asStr) := by
  rcases List.mem_append.mp member with early | late
  · exact .inl early
  · obtain ⟨⟨point, i⟩, listed, rfl⟩ := List.mem_map.mp late
    exact .inr ⟨(List.mem_zipIdx' listed).2 ▸ List.getElem_mem _, rfl⟩

theorem Sound.kept {n : Int} {remaining : List String} {code : Option String}
    (sound : Sound plan run log out) :
    Sound plan run log (pushLine out line .kept n remaining code) := by
  intro p member deleted
  rcases mem_pushLine member with early | ⟨-, kept⟩
  · exact sound p early deleted
  · rw [kept] at deleted
    exact absurd deleted (by decide)

theorem Sound.of_points {out' : Outcome} (sound : Sound plan run log out)
    (same : out'.points = out.points) : Sound plan run log out' := by
  unfold Sound
  rwa [same]

theorem unverified_eq_none {answer : Except String (Option String)} (plain : unverified answer = none) :
    ∃ version, answer = .ok version ∧ isVersioned version = false := by
  cases answer with
  | error e => simp [unverified] at plain
  | ok version =>
      refine ⟨version, rfl, ?_⟩
      cases answered : isVersioned version with
      | false => rfl
      | true => simp [unverified, answered] at plain

theorem meets_finishLine {p : Progress} (named : line ∈ plan.lines) (member : line ∈ lines)
    (past : Past lines log) (sound : Sound plan run log p.out) (resolved : Resolved log line keys)
    (some_ : keys ≠ []) (gone : p.remaining = [] → ∀ key ∈ keys, Gone log line key) :
    (finishLine run line keys p).Meets (Warrants plan run limits)
      (fun log' out => Past lines log' ∧ Sound plan run log' out) log := by
  refine meets_ask trivial fun answer => ?_
  refine meets_seq meets_writeCompletions fun log' text _ idle => ?_
  refine meets_pure ⟨past.idle member (idle_put.trans idle), ?_⟩
  obtain ⟨more, rfl, -⟩ := idle
  have sound' : Sound plan run _ p.out := sound.grown
    ((List.prefix_append log [⟨Call.put line _ _, answer⟩]).trans (List.prefix_append _ more))
  intro point pushed deleted
  rcases mem_pushLine pushed with early | ⟨own, state⟩
  · refine sound' point ?_ deleted
    split at early <;> exact early
  refine ⟨line, named, own, ?_⟩
  rw [deleted] at state
  cases plain : unverified answer with
  | some why =>
      rw [plain] at state
      cases keys with
      | nil => exact absurd rfl some_
      | cons key keys => simp [stateAfter, PointState.asStr] at state
  | none =>
      obtain ⟨version, rfl, unversioned⟩ := unverified_eq_none plain
      rw [plain] at state
      have all : p.remaining = [] := by
        cases left : p.remaining with
        | nil => rfl
        | cons key rest =>
            rw [left] at state
            simp [stateAfter, PointState.asStr] at state
      refine ⟨keys, log, more, checkBytes run line, version, ?_, by simp, unversioned, gone all⟩
      exact resolved.mono fun e found => List.mem_append_left _ (List.mem_append_left _ found)

theorem meets_deleteLine {scope : String} (named : line ∈ plan.lines) (member : line ∈ lines)
    (fits : LineFits scope line) (once : line.objectKeys.Nodup)
    (past : Past lines log) (sound : Sound plan run log out) (resolved : Resolved log line keys)
    (real : limits.dryRun = false) (intended : Intended run log line)
    (unchecked : Unchecked run log line)
    (fresh : Apart plan → ∀ key, Bound line key → deletesOf key log = []) :
    (deleteLine run limits line keys out).Meets (Warrants plan run limits)
      (fun log' out => Past lines log' ∧ Sound plan run log' out) log := by
  obtain ⟨head, distinct, bound⟩ := resolved_keys fits once resolved
  obtain ⟨rest, rfl⟩ : ∃ rest, keys = line.manifestKey :: rest := by
    obtain ⟨rest, shape⟩ := List.head?_eq_some_iff.mp head
    exact ⟨rest, shape⟩
  obtain ⟨first, others⟩ := List.forall_mem_cons.mp bound
  obtain ⟨apart, distinct⟩ := List.nodup_cons.mp distinct
  have ready : Ready plan run limits log line line.manifestKey :=
    ⟨named, real, first, intended, fun other => absurd rfl other, unchecked⟩
  refine meets_seq (meets_attempt_key ready fun a => fresh a _ first) fun log₁ r _ tried => ?_
  obtain ⟨gone, why, out₁⟩ := r
  have sound₁ : Sound plan run log₁ out₁ := (sound.grown tried.1.grown).of_points tried.2.2
  cases gone with
  | false => exact meets_pure ⟨past.added member tried.1, sound₁.kept⟩
  | true =>
      have manifest : Gone log₁ line line.manifestKey := tried.2.1 rfl
      have ready₁ : ∀ key ∈ rest, Ready plan run limits log₁ line key := fun key found =>
        ⟨named, real, others key found, intended.mono fun _ => tried.1.sub, fun _ => manifest,
          unchecked.added tried.1⟩
      have fresh₁ : Apart plan → ∀ key ∈ rest, deletesOf key log₁ = [] := fun a key found => by
        have other : key ∉ [line.manifestKey] :=
          fun same => apart (List.mem_singleton.mp same ▸ found)
        rw [tried.1.deletesOf_eq other]
        exact fresh a key (others key found)
      refine meets_seq (meets_deleteSegments ready₁ distinct fresh₁) fun log₂ p _ deleted => ?_
      refine meets_finishLine named member ((past.added member tried.1).added member deleted.1)
        ((sound₁.grown deleted.1.grown).of_points deleted.2.1)
        (resolved.mono fun e found => deleted.1.sub (tried.1.sub found)) (List.cons_ne_nil _ _)
        fun none => List.forall_mem_cons.mpr ⟨?_, (deleted.2.2 none).2⟩
      exact manifest.mono fun _ => deleted.1.sub

theorem bound_apart {l : PlanLine} {scope : String} (fits : LineFits scope line) (fits' : LineFits scope l)
    (disjoint : ∀ key ∈ l.objectKeys, key ∉ line.objectKeys) (apart : ¬ Reaches line l)
    (apart' : ¬ Reaches l line) {key : String} (bound : Bound line key) : ¬ Bound l key := by
  have manifest {m : PlanLine} (f : LineFits scope m) : m.manifestKey ∈ m.objectKeys :=
    List.mem_of_mem_head? f.first
  rintro ⟨under', named' | listing'⟩
  · rcases bound with ⟨under, named | listing⟩
    · exact disjoint key named' named
    · exact apart ⟨listing, key, named', under.2⟩
  · rcases bound with ⟨under, named | listing⟩
    · exact apart' ⟨listing', key, named, under'.2⟩
    · have starts := startsWith_iff.mp under.2
      have starts' := startsWith_iff.mp under'.2
      rcases List.prefix_or_prefix_of_prefix starts starts' with outer | inner
      · refine apart ⟨listing, _, manifest fits', startsWith_iff.mpr (outer.trans ?_)⟩
        exact startsWith_iff.mp (fits'.keys _ (manifest fits')).2
      · refine apart' ⟨listing', _, manifest fits, startsWith_iff.mpr (inner.trans ?_)⟩
        exact startsWith_iff.mp (fits.keys _ (manifest fits)).2

variable {back : List PlanLine} {binding : RunBinding}

theorem not_mem_front (accepted : Accepted plan binding) (split : front ++ line :: back = plan.lines) :
    line ∉ front := by
  intro again
  have points := accepted.points
  rw [Plan.points, ← split, List.flatMap_append, List.flatMap_cons, List.nodup_append'] at points
  have own : line.pointId ∈ linePoints line := List.mem_cons_self
  exact List.disjoint_left.mp points.2.2 (List.mem_flatMap.mpr ⟨line, again, own⟩)
    (List.mem_append_left _ own)

theorem Past.unchecked (past : Past front log) (new : line ∉ front) : Unchecked run log line := by
  intro e found bytes written
  have made := past.made e found
  rw [written] at made
  exact new made

theorem Past.fresh (past : Past front log) (accepted : Accepted plan binding)
    (split : front ++ line :: back = plan.lines) (apart : Apart plan) :
    ∀ key, Bound line key → deletesOf key log = [] := by
  intro key bound
  rw [deletesOf, List.filterMap_eq_nil_iff]
  rintro ⟨call, answer⟩ found
  cases call with
  | list l under => rfl
  | probe l k => rfl
  | put l k bytes => rfl
  | sleep l seconds => rfl
  | delete l k =>
      have earlier : l ∈ front := past.made _ found
      have other : k ≠ key := by
        rintro rfl
        have held : Bound l k := past.bound _ found l k rfl
        have named : l ∈ plan.lines := split ▸ List.mem_append_left _ earlier
        have named' : line ∈ plan.lines := split ▸ List.mem_append_right _ List.mem_cons_self
        have once := accepted.once
        rw [Plan.objectKeys, ← split, List.flatMap_append, List.flatMap_cons, List.nodup_append'] at once
        have disjoint : ∀ key ∈ l.objectKeys, key ∉ line.objectKeys := fun key mine others =>
          List.disjoint_left.mp once.2.2 (List.mem_flatMap.mpr ⟨l, earlier, mine⟩)
            (List.mem_append_left _ others)
        rw [Apart, ← split] at apart
        obtain ⟨near, far⟩ := (List.pairwise_append.mp apart).2.2 l earlier line List.mem_cons_self
        exact bound_apart (accepted.lines _ named') (accepted.lines _ named) disjoint far near bound held
      simp [Event.deleteOf, other]

theorem meets_runLine (accepted : Accepted plan binding) (split : front ++ line :: back = plan.lines)
    (past : Past front log) (sound : Sound plan run log out) (real : limits.dryRun = false) :
    (runLine run limits line out).Meets (Warrants plan run limits)
      (fun log' out => Past (front ++ [line]) log' ∧ Sound plan run log' out) log := by
  have named : line ∈ plan.lines := split ▸ List.mem_append_right _ List.mem_cons_self
  have member : line ∈ front ++ [line] := List.mem_append_right _ (List.mem_singleton_self line)
  have once : line.objectKeys.Nodup :=
    (List.nodup_flatMap.mp accepted.once).1 line named
  refine meets_seq (meets_resolveKeys run) fun log₁ r _ resolved => ?_
  have past₁ := past.more.added member resolved.1
  have sound₁ := sound.grown resolved.1.grown
  cases r with
  | error code => exact meets_pure ⟨past₁, sound₁.kept⟩
  | ok keys =>
      refine meets_seq meets_writeIntents fun log₂ r _ written => ?_
      have past₂ := past₁.added member written.1
      have sound₂ := sound₁.grown written.1.grown
      cases r with
      | error code => exact meets_pure ⟨past₂, sound₂.kept⟩
      | ok versioned =>
          cases versioned with
          | true => exact meets_pure ⟨past₂, sound₂.kept⟩
          | false =>
              have unchecked : Unchecked run log line := past.unchecked (not_mem_front accepted split)
              refine meets_deleteLine named member (accepted.lines line named) once past₂ sound₂
                ((resolved.2 keys rfl).mono fun _ => written.1.sub) real (written.2 rfl).2
                ((unchecked.added resolved.1).added written.1) fun apart key bound => ?_
              rw [written.1.deletesOf_eq List.not_mem_nil, resolved.1.deletesOf_eq List.not_mem_nil]
              exact past.fresh accepted split apart key bound

theorem meets_previewLine (past : Past front log) (sound : Sound plan run log out) :
    (previewLine line out).Meets (Warrants plan run limits)
      (fun log' out => Past (front ++ [line]) log' ∧ Sound plan run log' out) log := by
  have member : line ∈ front ++ [line] := List.mem_append_right _ (List.mem_singleton_self line)
  refine meets_seq (meets_resolveKeys run) fun log₁ r _ resolved => ?_
  refine meets_ask trivial fun answer => ?_
  have probed : Added run line [] log₁ (log₁ ++ [⟨Call.probe line line.manifestKey, answer⟩]) :=
    added_one rfl
  exact meets_pure ⟨(past.more.added member resolved.1).added member probed,
    ((sound.grown resolved.1.grown).grown probed.grown).kept⟩

theorem meets_executeLine (accepted : Accepted plan binding) (split : front ++ line :: back = plan.lines)
    (past : Past front log) (sound : Sound plan run log out) :
    (executeLine run limits out line).Meets (Warrants plan run limits)
      (fun log' out => Past (front ++ [line]) log' ∧ Sound plan run log' out) log := by
  unfold executeLine
  split_ifs with preview over_
  · exact meets_previewLine past sound
  · exact meets_pure ⟨past.more, sound.kept⟩
  · exact meets_runLine accepted split past sound (by simpa using preview)

theorem meets_execute (accepted : Accepted plan binding) :
    (execute plan run limits).Meets (Warrants plan run limits)
      (fun log out => Past plan.lines log ∧ Sound plan run log out) [] := by
  have none : Past [] [] ∧ Sound plan run [] { dryRun := limits.dryRun } :=
    ⟨⟨by simp, by simp⟩, by simp [Sound]⟩
  have each : ∀ front line back log out, front ++ line :: back = plan.lines →
      Past front log ∧ Sound plan run log out → (executeLine run limits out line).Meets
        (Warrants plan run limits)
        (fun log out => Past (front ++ [line]) log ∧ Sound plan run log out) log :=
    fun front line back log out split held => meets_executeLine accepted split held.1 held.2
  exact meets_foldlM each (List.nil_append plan.lines) none

end

end Logweir.Retention
