import Logweir.Retention.Agreement

/-!
# What warrants a delete

The facts that a run's log must hold before a key is deleted, and what the parts of a run
that work on one key add to the log: the probe, the delete with its retries, and both.
-/

set_option autoImplicit false

namespace Logweir.Retention

open Logweir.Text Logweir.Results Logweir.Programs Program

abbrev Log := List (Event Call Answer)

def Call.line : Call → PlanLine
  | .list line _ | .probe line _ | .delete line _ | .put line _ _ | .sleep line _ => line

def Event.deleteOf (key : String) : Event Call Answer → Option (Except DeleteError Unit)
  | ⟨.delete _ k, answer⟩ => if k = key then some answer else none
  | _ => none

def deletesOf (key : String) (log : Log) : List (Except DeleteError Unit) :=
  log.filterMap (Event.deleteOf key)

/-- An answer after which the key is tried again. -/
def Retryable (answer : Except DeleteError Unit) : Prop :=
  ∃ e, answer = .error e ∧ e.retryable = true

def Bound (line : PlanLine) (key : String) : Prop :=
  Fits line.setPrefix key ∧ (key ∈ line.objectKeys ∨ line.enumerateSet = true)

/-- The sink accepted this key for the line, without a version id. -/
def Written (log : Log) (line : PlanLine) (key : String) : Prop :=
  ∃ bytes version, (⟨Call.put line key bytes, Except.ok version⟩ : Event Call Answer) ∈ log ∧
    isVersioned version = false

/-- Every point of the line has its intent. -/
def Intended (run : RunAttribution) (log : Log) (line : PlanLine) : Prop :=
  ∀ point ∈ linePoints line, Written log line (tombstoneKey run point "intent")

/-- The store answered, for the line, that the key is gone. -/
def Gone (log : Log) (line : PlanLine) (key : String) : Prop :=
  (⟨Call.probe line key, Except.error .notFound⟩ : Event Call Answer) ∈ log ∨
  (⟨Call.delete line key, Except.ok ()⟩ : Event Call Answer) ∈ log ∨
  (⟨Call.delete line key, Except.error .notFound⟩ : Event Call Answer) ∈ log

/-- The versioning check of the line is not written. -/
def Unchecked (run : RunAttribution) (log : Log) (line : PlanLine) : Prop :=
  ∀ e ∈ log, ∀ bytes, e.call ≠ Call.put line (tombstoneKey run line.pointId "check") bytes

/-- One line's listing may return a key that the other names. -/
def Reaches (line other : PlanLine) : Prop :=
  line.enumerateSet = true ∧ ∃ key ∈ other.objectKeys, startsWith key line.setPrefix = true

/-- No line's listing may return a key that another line names. -/
def Apart (plan : Plan) : Prop :=
  plan.lines.Pairwise fun line other => ¬ Reaches line other ∧ ¬ Reaches other line

/-- A delete the log does not warrant has not happened: what is read off the line and the log,
apart from how often the key was tried. -/
structure Ready (plan : Plan) (run : RunAttribution) (limits : Limits) (log : Log) (line : PlanLine)
    (key : String) : Prop where
  named : line ∈ plan.lines
  real : limits.dryRun = false
  bound : Bound line key
  intended : Intended run log line
  manifest : key ≠ line.manifestKey → Gone log line line.manifestKey
  unchecked : Unchecked run log line

def MayTry (log : Log) (key : String) : Prop :=
  (deletesOf key log).length < MAX_ATTEMPTS ∧ ∀ answer ∈ deletesOf key log, Retryable answer

def Warrants (plan : Plan) (run : RunAttribution) (limits : Limits) (log : Log) : Call → Prop
  | .delete line key => Ready plan run limits log line key ∧ (Apart plan → MayTry log key)
  | _ => True

/-- A call for the line that deletes only these keys and does not write the check. -/
def Own (run : RunAttribution) (line : PlanLine) (keys : List String) : Call → Prop
  | .delete l key => l = line ∧ Bound line key ∧ key ∈ keys
  | .put l key _ => l = line ∧ key ≠ tombstoneKey run line.pointId "check"
  | .list l _ | .probe l _ | .sleep l _ => l = line

def Added (run : RunAttribution) (line : PlanLine) (keys : List String) (log log' : Log) : Prop :=
  ∃ more, log' = log ++ more ∧ ∀ e ∈ more, Own run line keys e.call

section

variable {plan : Plan} {run : RunAttribution} {limits : Limits} {line l : PlanLine}
  {key k : String} {keys keys' : List String} {log log' log'' : Log}

theorem Own.line_eq {c : Call} (own : Own run line keys c) : c.line = line := by
  cases c with
  | delete l key => exact own.1
  | put l key bytes => exact own.1
  | list l under => exact own
  | probe l key => exact own
  | sleep l seconds => exact own

theorem Own.mono {c : Call} (own : Own run line keys c) (more : ∀ k ∈ keys, k ∈ keys') :
    Own run line keys' c := by
  cases c with
  | delete l key => exact ⟨own.1, own.2.1, more _ own.2.2⟩
  | put l key bytes => exact own
  | list l under => exact own
  | probe l key => exact own
  | sleep l seconds => exact own

theorem Added.refl : Added run line keys log log := ⟨[], by simp, by simp⟩

theorem Added.trans (first : Added run line keys log log') (second : Added run line keys log' log'') :
    Added run line keys log log'' := by
  obtain ⟨more, rfl, own⟩ := first
  obtain ⟨more', rfl, own'⟩ := second
  refine ⟨more ++ more', by simp, fun e member => ?_⟩
  rcases List.mem_append.mp member with early | late
  · exact own e early
  · exact own' e late

theorem Added.mono (added : Added run line keys log log') (more : ∀ k ∈ keys, k ∈ keys') :
    Added run line keys' log log' := by
  obtain ⟨fresh, rfl, own⟩ := added
  exact ⟨fresh, rfl, fun e member => (own e member).mono more⟩

theorem Added.sub (added : Added run line keys log log') {e : Event Call Answer} (member : e ∈ log) :
    e ∈ log' := by
  obtain ⟨more, rfl, -⟩ := added
  exact List.mem_append_left more member

theorem added_one {c : Call} {answer : Answer c} (own : Own run line keys c) :
    Added run line keys log (log ++ [⟨c, answer⟩]) :=
  ⟨_, rfl, by simpa using own⟩

theorem Written.mono (written : Written log line key) (sub : ∀ e ∈ log, e ∈ log') :
    Written log' line key := by
  obtain ⟨bytes, version, member, plain⟩ := written
  exact ⟨bytes, version, sub _ member, plain⟩

theorem Intended.mono (intended : Intended run log line) (sub : ∀ e ∈ log, e ∈ log') :
    Intended run log' line := fun point member => (intended point member).mono sub

theorem Gone.mono (gone : Gone log line key) (sub : ∀ e ∈ log, e ∈ log') : Gone log' line key := by
  rcases gone with probed | deleted | absent
  · exact .inl (sub _ probed)
  · exact .inr (.inl (sub _ deleted))
  · exact .inr (.inr (sub _ absent))

theorem Unchecked.added (unchecked : Unchecked run log line) (added : Added run line keys log log') :
    Unchecked run log' line := by
  obtain ⟨more, rfl, own⟩ := added
  intro e member bytes written
  rcases List.mem_append.mp member with early | late
  · exact unchecked e early bytes written
  · have ours := own e late
    rw [written] at ours
    exact ours.2 rfl

theorem Ready.added (ready : Ready plan run limits log line key)
    (added : Added run line keys log log') : Ready plan run limits log' line key where
  named := ready.named
  real := ready.real
  bound := ready.bound
  intended := ready.intended.mono fun _ => added.sub
  manifest := fun other => (ready.manifest other).mono fun _ => added.sub
  unchecked := ready.unchecked.added added

theorem deletesOf_append : deletesOf key (log ++ log') = deletesOf key log ++ deletesOf key log' :=
  List.filterMap_append

theorem deletesOf_own {more : Log} (own : ∀ e ∈ more, Own run line keys e.call)
    (other : key ∉ keys) : deletesOf key more = [] := by
  rw [deletesOf, List.filterMap_eq_nil_iff]
  intro e member
  have ours := own e member
  obtain ⟨call, answer⟩ := e
  cases call with
  | delete l k =>
      have apart : k ≠ key := fun same => other (same ▸ ours.2.2)
      simp [Event.deleteOf, apart]
  | list l under => rfl
  | probe l k => rfl
  | put l k bytes => rfl
  | sleep l seconds => rfl

theorem Added.deletesOf_eq (added : Added run line keys log log') (other : key ∉ keys) :
    deletesOf key log' = deletesOf key log := by
  obtain ⟨more, rfl, own⟩ := added
  rw [deletesOf_append, deletesOf_own own other, List.append_nil]

theorem deletesOf_delete (answer : Except DeleteError Unit) :
    deletesOf key (log ++ [⟨Call.delete line key, answer⟩]) = deletesOf key log ++ [answer] := by
  rw [deletesOf_append]
  simp [deletesOf, Event.deleteOf]

theorem deletesOf_other {e : Event Call Answer} (other : Event.deleteOf key e = none) :
    deletesOf key (log ++ [e]) = deletesOf key log := by
  simp [deletesOf_append, deletesOf, other]

theorem length_tries : tries.length = MAX_ATTEMPTS := rfl

theorem meets_pause (wait : Option Nat) : (pause line wait).Meets (Warrants plan run limits)
    (fun log' _ => Added run line [] log log') log := by
  cases wait with
  | none => exact meets_pure .refl
  | some seconds => exact meets_call trivial fun _ => added_one rfl

theorem meets_probe (waits : List (Option Nat)) (last : DeleteError) :
    (probe line key waits last).Meets (Warrants plan run limits)
      (fun log' r => Added run line [] log log' ∧
        (r = .error .notFound → last ≠ .notFound → Gone log' line key)) log := by
  induction waits generalizing log last with
  | nil => exact meets_pure ⟨.refl, fun same other => absurd (Except.error.inj same) other⟩
  | cons wait waits ih =>
      refine meets_ask trivial fun answer => ?_
      have added : Added run line [] log (log ++ [⟨Call.probe line key, answer⟩]) := added_one rfl
      cases answer with
      | ok v => exact meets_pure ⟨added, by simp⟩
      | error e =>
          by_cases again : e.retryable = true
          · simp only [again, if_true]
            refine meets_seq (meets_pause wait) fun log₁ _ _ paused => ?_
            refine meets_mono (ih e) fun log₂ r held => ⟨(added.trans paused).trans held.1, ?_⟩
            intro absent _
            refine held.2 absent fun same => ?_
            rw [same] at again
            cases again
          · simp only [again]
            refine meets_pure ⟨added, fun same _ => .inl ?_⟩
            cases same
            simp

theorem meets_deleteKey {waits : List (Option Nat)} {last : Option DeleteError} {out : Outcome}
    (ready : Ready plan run limits log line key)
    (tried : Apart plan → (deletesOf key log).length + waits.length ≤ MAX_ATTEMPTS ∧
      ∀ answer ∈ deletesOf key log, Retryable answer) :
    (deleteKey line key waits last out).Meets (Warrants plan run limits)
      (fun log' r => Added run line [key] log log' ∧ (r.1 = true → Gone log' line key) ∧
        r.2.2.points = out.points) log := by
  induction waits generalizing log last out with
  | nil => exact meets_pure ⟨.refl, by simp, rfl⟩
  | cons wait waits ih =>
      have may : Apart plan → MayTry log key := fun apart => by
        obtain ⟨few, all⟩ := tried apart
        rw [List.length_cons] at few
        exact ⟨by omega, all⟩
      refine meets_ask ⟨ready, may⟩ fun answer => ?_
      have added : Added run line [key] log (log ++ [⟨Call.delete line key, answer⟩]) :=
        added_one ⟨rfl, ready.bound, List.mem_singleton_self key⟩
      cases answer with
      | ok done =>
          refine meets_pure ⟨added, fun _ => .inr (.inl ?_), rfl⟩
          cases done
          simp
      | error e =>
          by_cases absent : e = .notFound
          · simp only [absent, if_true]
            refine meets_pure ⟨absent ▸ added, fun _ => .inr (.inr ?_), rfl⟩
            simp
          by_cases again : e.retryable = true
          · simp only [absent, again, if_true, if_false]
            refine meets_seq (meets_pause wait) fun log₁ _ _ paused => ?_
            have paused' : Added run line [key] _ log₁ := paused.mono (by simp)
            have retried : Apart plan → (deletesOf key log₁).length + waits.length ≤ MAX_ATTEMPTS ∧
                ∀ answer ∈ deletesOf key log₁, Retryable answer := fun apart => by
              obtain ⟨few, all⟩ := tried apart
              rw [List.length_cons] at few
              rw [paused.deletesOf_eq List.not_mem_nil, deletesOf_delete]
              refine ⟨by simp only [List.length_append, List.length_singleton]; omega, ?_⟩
              intro answer member
              rcases List.mem_append.mp member with early | late
              · exact all answer early
              · exact ⟨e, List.mem_singleton.mp late, again⟩
            refine meets_mono (ih ((ready.added added).added paused') retried)
              fun log₂ r held => ⟨(added.trans paused').trans held.1, held.2⟩
          · simp only [absent, again, if_false]
            exact meets_pure ⟨added, by simp, rfl⟩

theorem meets_attempt_key {out : Outcome} (ready : Ready plan run limits log line key)
    (fresh : Apart plan → deletesOf key log = []) :
    (attempt line key out).Meets (Warrants plan run limits)
      (fun log' r => Added run line [key] log log' ∧ (r.1 = true → Gone log' line key) ∧
        r.2.2.points = out.points) log := by
  refine meets_seq (meets_probe tries .unclassified) fun log₁ r _ probed => ?_
  have added : Added run line [key] log log₁ := probed.1.mono (by simp)
  cases r with
  | ok v =>
      cases v with
      | unversioned =>
          have tried : Apart plan → (deletesOf key log₁).length + tries.length ≤ MAX_ATTEMPTS ∧
              ∀ answer ∈ deletesOf key log₁, Retryable answer := fun apart => by
            rw [probed.1.deletesOf_eq List.not_mem_nil, fresh apart, length_tries]
            simp
          exact meets_mono (meets_deleteKey (ready.added added) tried)
            fun log₂ r held => ⟨added.trans held.1, held.2⟩
      | versioned => exact meets_pure ⟨added, by simp, rfl⟩
  | error e =>
      by_cases absent : e = .notFound
      · simp only [absent, if_true]
        exact meets_pure ⟨added, fun _ => probed.2 (by rw [absent]) (by simp), rfl⟩
      · simp only [absent, if_false]
        split
        · exact meets_pure ⟨added, by simp, rfl⟩
        · exact meets_pure ⟨added, by simp, rfl⟩

end

end Logweir.Retention
