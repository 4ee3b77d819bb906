import Logweir.Retention.Run

/-!
# What a line of a run does

However its calls are answered, a line is either kept, with nothing deleted for it, or finished:
its manifest went, its segments were tried in order up to the ceiling, and its check was asked
for.  A delete is asked for only below the ceiling, counted as the worker counts.
-/

set_option autoImplicit false

namespace Logweir.Retention

open Logweir.Programs Program

def Event.delivered : Event Call Answer → Option String
  | ⟨.delete _ key, .ok ()⟩ => some key
  | _ => none

def delivered (log : Log) : List String := log.filterMap Event.delivered

/-- Every check so far came back, and without a version id. -/
def Verified (run : RunAttribution) (log : Log) : Prop :=
  ∀ line bytes answer,
    (⟨Call.put line (tombstoneKey run line.pointId "check") bytes, answer⟩ :
      Event Call Answer) ∈ log → unverified answer = none

/-- While the checks come back clean, a delete is asked for only below the ceiling. -/
def Ceiling (run : RunAttribution) (limits : Limits) (log : Log) : Call → Prop
  | .delete _ _ => Verified run log → ((delivered log).length : Int) < limits.maxObjects
  | _ => True

def About (line : PlanLine) (key : String) : Call → Prop
  | .probe l k | .delete l k => l = line ∧ k = key
  | .sleep l _ => l = line
  | _ => False

/-- A call of a line that is on none of its keys, and not its check. -/
def Plain (run : RunAttribution) (line : PlanLine) : Call → Prop
  | .list l _ => l = line
  | .put l key _ => l = line ∧ key ≠ tombstoneKey run line.pointId "check"
  | _ => False

/-- A tombstone of a line, and not its check. -/
def Noted (run : RunAttribution) (line : PlanLine) : Call → Prop
  | .put l key _ => l = line ∧ key ≠ tombstoneKey run line.pointId "check"
  | _ => False

/-- The keys the line came to mean, and no others. -/
def Means (log : Log) (line : PlanLine) (keys : List String) : Prop :=
  Resolved log line keys ∧ ∀ keys', Resolved log line keys' → keys' = keys

/-- One key was tried: whether it is gone is what the store answered. -/
structure Tried (line : PlanLine) (key : String) (more : Log) (gone : Bool) : Prop where
  about : ∀ e ∈ more, About line key e.call
  answered : gone = true ↔ Gone more line key
  delivered : (delivered more).length ≤ gone.toNat

/-- Keys were tried one after another, these being left. -/
structure Swept (line : PlanLine) (keys : List String) (more : Log) (rest : List String) :
    Prop where
  about : ∀ e ∈ more, ∃ key ∈ keys, About line key e.call
  left : rest.Sublist keys
  gone : keys.Nodup → ∀ key ∈ keys, (key ∈ rest ↔ ¬ Gone more line key)
  delivered : (delivered more).length + rest.length ≤ keys.length

/-- A line for which nothing was deleted. -/
structure KeptLine (run : RunAttribution) (line : PlanLine) (more : Log) (keys : List String) :
    Prop where
  made : ∀ e ∈ more, e.call.line = line
  means : keys = line.objectKeys ∨ Resolved more line keys
  delivered : delivered more = []
  unchecked : Unchecked run more line

/-- A line whose manifest went: the keys it came to mean, those left of them behind the first, and
what its check was answered. -/
structure FinishedLine (run : RunAttribution) (line : PlanLine) (more : Log)
    (keys rest : List String) (answer : Except String (Option String)) : Prop where
  made : ∀ e ∈ more, e.call.line = line
  resolved : Means more line keys
  left : rest.Sublist (keys.drop 1)
  manifest : Gone more line line.manifestKey
  gone : (line.manifestKey :: keys.drop 1).Nodup →
    ∀ key ∈ keys.drop 1, (key ∈ rest ↔ ¬ Gone more line key)
  delivered : (delivered more).length + rest.length ≤ 1 + (keys.drop 1).length
  checked : ∃ bytes, (⟨Call.put line (tombstoneKey run line.pointId "check") bytes, answer⟩ :
    Event Call Answer) ∈ more
  once : ∀ bytes answer',
    (⟨Call.put line (tombstoneKey run line.pointId "check") bytes, answer'⟩ :
      Event Call Answer) ∈ more → answer' = answer

inductive LineEnd (run : RunAttribution) (line : PlanLine) (more : Log) (out : Outcome) :
    Outcome → Prop
  | kept {out' : Outcome} (keys : List String) (code : Option String) :
      KeptLine run line more keys → out'.points = out.points →
      out'.objectsDeleted = out.objectsDeleted →
      LineEnd run line more out (pushLine out' line .kept 0 keys code)
  | verified {out' : Outcome} (keys rest : List String) (removed : Int)
      (answer : Except String (Option String)) (code : Option String) :
      FinishedLine run line more keys rest answer → unverified answer = none →
      removed = 1 + ((keys.drop 1).length : Int) - rest.length → out'.points = out.points →
      out'.objectsDeleted = out.objectsDeleted + removed →
      LineEnd run line more out (pushLine out' line (stateAfter rest) removed rest code)
  | unverified {out' : Outcome} (keys rest : List String)
      (answer : Except String (Option String)) (code : Option String) :
      FinishedLine run line more keys rest answer → unverified answer ≠ none →
      out'.points = out.points → out'.objectsDeleted = out.objectsDeleted →
      LineEnd run line more out (pushLine out' line (stateAfter keys) 0 keys code)

section

variable {run : RunAttribution} {limits : Limits} {line : PlanLine} {key : String}
  {keys rest points : List String} {log log' more more' : Log} {out : Outcome}

theorem delivered_append : delivered (log ++ log') = delivered log ++ delivered log' :=
  List.filterMap_append

theorem gone_append : Gone (log ++ log') line key ↔ Gone log line key ∨ Gone log' line key := by
  unfold Gone
  simp only [List.mem_append]
  tauto

theorem Verified.of_append (verified : Verified run (log ++ more)) : Verified run log :=
  fun line bytes answer member => verified line bytes answer (List.mem_append_left _ member)

theorem not_gone_of_about (about : ∀ e ∈ more, ∃ k ∈ keys, About line k e.call)
    (other : key ∉ keys) : ¬ Gone more line key := by
  rintro (probed | deleted | absent)
  · obtain ⟨k, here, -, rfl⟩ := about _ probed
    exact other here
  · obtain ⟨k, here, -, rfl⟩ := about _ deleted
    exact other here
  · obtain ⟨k, here, -, rfl⟩ := about _ absent
    exact other here

theorem About.line_eq {c : Call} (about : About line key c) : c.line = line := by
  cases c with
  | probe l k => exact about.1
  | delete l k => exact about.1
  | sleep l seconds => exact about
  | list l under => exact about.elim
  | put l k bytes => exact about.elim

theorem Plain.line_eq {c : Call} (plain : Plain run line c) : c.line = line := by
  cases c with
  | list l under => exact plain
  | put l k bytes => exact plain.1
  | probe l k => exact plain.elim
  | delete l k => exact plain.elim
  | sleep l seconds => exact plain.elim

theorem Noted.plain {c : Call} (noted : Noted run line c) : Plain run line c := by
  cases c with
  | put l k bytes => exact noted
  | list l under => exact noted.elim
  | probe l k => exact noted.elim
  | delete l k => exact noted.elim
  | sleep l seconds => exact noted.elim

theorem resolved_append (resolved : Resolved log line keys) : Resolved (log ++ more) line keys :=
  resolved.mono fun _ => List.mem_append_left more

theorem Means.append (means : Means log line keys)
    (unlisted : ∀ e ∈ more, ∀ under, e.call ≠ .list line under) : Means (log ++ more) line keys := by
  refine ⟨resolved_append means.1, fun keys' resolved => means.2 keys' ?_⟩
  rcases resolved with named | ⟨listing, listed, member, passed⟩
  · exact .inl named
  · refine .inr ⟨listing, listed, ?_, passed⟩
    exact (List.mem_append.mp member).resolve_right fun late => unlisted _ late _ rfl

theorem About.unlisted {c : Call} (about : About line key c) (under : String) :
    c ≠ .list line under := by
  rintro rfl
  exact about

theorem Noted.unlisted {c : Call} (noted : Noted run line c) (under : String) :
    c ≠ .list line under := by
  rintro rfl
  exact noted

theorem delivered_plain (plain : ∀ e ∈ more, Plain run line e.call) : delivered more = [] := by
  rw [delivered, List.filterMap_eq_nil_iff]
  intro e member
  have kind := plain e member
  obtain ⟨call, answer⟩ := e
  cases call with
  | delete l k => exact kind.elim
  | list l under => rfl
  | probe l k => rfl
  | put l k bytes => rfl
  | sleep l seconds => rfl

theorem not_gone_of_plain (plain : ∀ e ∈ more, Plain run line e.call) : ¬ Gone more line key := by
  rintro (probed | deleted | absent)
  · exact plain _ probed
  · exact plain _ deleted
  · exact plain _ absent

theorem unchecked_of_plain (plain : ∀ e ∈ more, Plain run line e.call) :
    Unchecked run more line := by
  intro e member bytes check
  have kind := plain e member
  rw [check] at kind
  exact kind.2 rfl

theorem unchecked_of_about (about : ∀ e ∈ more, ∃ k, About line k e.call) :
    Unchecked run more line := by
  intro e member bytes check
  obtain ⟨k, kind⟩ := about e member
  rw [check] at kind
  exact kind

theorem Unchecked.append (first : Unchecked run more line) (second : Unchecked run more' line) :
    Unchecked run (more ++ more') line := fun e member =>
  (List.mem_append.mp member).elim (first e) (second e)

theorem ceiling_append {l : PlanLine} {k : String}
    (below : Verified run log → ((delivered log).length : Int) < limits.maxObjects)
    (none_ : delivered more = []) : Ceiling run limits (log ++ more) (.delete l k) := by
  intro verified
  rw [delivered_append, none_, List.append_nil]
  exact below verified.of_append

theorem meets_wait (key : String) (wait : Option Nat) : (pause line wait).Meets (Ceiling run limits)
    (fun log' _ => ∃ more, log' = log ++ more ∧ (∀ e ∈ more, About line key e.call) ∧
      delivered more = [] ∧ ¬ Gone more line key) log := by
  cases wait with
  | none => exact meets_pure ⟨[], by simp, by simp, rfl, by simp [Gone]⟩
  | some seconds =>
      refine meets_call trivial fun answer => ⟨_, rfl, ?_, rfl, by simp [Gone]⟩
      exact List.forall_mem_singleton.mpr rfl

theorem meets_probing (waits : List (Option Nat)) (last : DeleteError) :
    (probe line key waits last).Meets (Ceiling run limits)
      (fun log' r => ∃ more, log' = log ++ more ∧ (∀ e ∈ more, About line key e.call) ∧
        delivered more = [] ∧
        (last ≠ .notFound → (r = .error .notFound ↔ Gone more line key))) log := by
  induction waits generalizing log last with
  | nil =>
      refine meets_pure ⟨[], by simp, by simp, rfl, fun other => iff_of_false ?_ (by simp [Gone])⟩
      exact fun same => other (Except.error.inj same)
  | cons wait waits ih =>
      refine meets_ask trivial fun answer => ?_
      have here : ∀ e ∈ [(⟨Call.probe line key, answer⟩ : Event Call Answer)],
          About line key e.call := List.forall_mem_singleton.mpr ⟨rfl, rfl⟩
      cases answer with
      | ok v => exact meets_pure ⟨_, rfl, here, rfl, fun _ => by simp [Gone]⟩
      | error e =>
          by_cases again : e.retryable = true
          · simp only [again, if_true]
            have found : e ≠ .notFound := by
              rintro rfl
              cases again
            refine meets_bind (meets_wait key wait) fun log₁ _ ⟨m, grown, about, none_, absent⟩ => ?_
            subst grown
            refine meets_mono (ih e) fun log₂ r ⟨m', grown', about', none', answered⟩ => ?_
            refine ⟨[⟨Call.probe line key, .error e⟩] ++ m ++ m',
              by rw [grown']; simp only [List.append_assoc], ?_, ?_, fun _ => ?_⟩
            · intro e' member
              rcases List.mem_append.mp member with early | late
              · exact (List.mem_append.mp early).elim (here e') (about e')
              · exact about' e' late
            · rw [delivered_append, delivered_append, none_, none']
              rfl
            · rw [gone_append, gone_append, answered found, or_iff_right]
              rintro (first | waited)
              · have same : e = .notFound := by simpa [Gone, eq_comm] using first
                exact found same
              · exact absent waited
          · simp only [again]
            refine meets_pure ⟨_, rfl, here, rfl, fun _ => ?_⟩
            simp [Gone, eq_comm]

theorem meets_deleting {waits : List (Option Nat)} {last : Option DeleteError} {out : Outcome}
    (below : Verified run log → ((delivered log).length : Int) < limits.maxObjects) :
    (deleteKey line key waits last out).Meets (Ceiling run limits)
      (fun log' r => ∃ more, log' = log ++ more ∧ Tried line key more r.1 ∧
        r.2.2.points = out.points ∧ r.2.2.objectsDeleted = out.objectsDeleted) log := by
  induction waits generalizing log last out with
  | nil =>
      exact meets_pure ⟨[], by simp, ⟨by simp, by simp [Gone], by simp [delivered]⟩, rfl, rfl⟩
  | cons wait waits ih =>
      refine meets_ask below fun answer => ?_
      have here : ∀ e ∈ [(⟨Call.delete line key, answer⟩ : Event Call Answer)],
          About line key e.call := List.forall_mem_singleton.mpr ⟨rfl, rfl⟩
      cases answer with
      | ok done_ =>
          cases done_
          refine meets_pure ⟨_, rfl, ⟨here, ?_, Nat.le_refl 1⟩, rfl, rfl⟩
          simp [Gone]
      | error e =>
          by_cases absent : e = .notFound
          · simp only [absent, if_true]
            refine meets_pure ⟨_, rfl, ⟨absent ▸ here, ?_, Nat.zero_le _⟩, rfl, rfl⟩
            simp [Gone]
          have kept : ¬ Gone [(⟨Call.delete line key, .error e⟩ : Event Call Answer)] line key := by
            simp [Gone, Ne.symm absent]
          by_cases again : e.retryable = true
          · simp only [absent, again, if_true, if_false]
            refine meets_bind (meets_wait key wait) fun log₁ _ ⟨m, grown, about, none_, waited⟩ => ?_
            subst grown
            have below' : Verified run (log ++ [⟨Call.delete line key, .error e⟩] ++ m) →
                ((delivered (log ++ [⟨Call.delete line key, .error e⟩] ++ m)).length : Int) <
                  limits.maxObjects := by
              rw [List.append_assoc]
              refine ceiling_append (l := line) (k := key) below ?_
              rw [delivered_append, none_]
              rfl
            refine meets_mono (ih below') fun log₂ r ⟨m', grown', tried, same⟩ => ?_
            refine ⟨[⟨Call.delete line key, .error e⟩] ++ m ++ m',
              by rw [grown']; simp only [List.append_assoc], ⟨?_, ?_, ?_⟩, same⟩
            · intro e' member
              rcases List.mem_append.mp member with early | late
              · exact (List.mem_append.mp early).elim (here e') (about e')
              · exact tried.about e' late
            · rw [gone_append, gone_append, tried.answered, or_iff_right]
              exact fun early => early.elim kept waited
            · rw [delivered_append, delivered_append, none_]
              exact tried.delivered
          · simp only [absent, again, if_false]
            exact meets_pure ⟨_, rfl, ⟨here, by simpa using kept, Nat.zero_le _⟩, rfl, rfl⟩

/-- One key, below the ceiling: it counts as gone exactly when the store said so, and at most one
delete of it was answered `Ok`. -/
theorem meets_trying {out : Outcome}
    (below : Verified run log → ((delivered log).length : Int) < limits.maxObjects) :
    (attempt line key out).Meets (Ceiling run limits)
      (fun log' r => ∃ more, log' = log ++ more ∧ Tried line key more r.1 ∧
        r.2.2.points = out.points ∧ r.2.2.objectsDeleted = out.objectsDeleted) log := by
  refine meets_bind (meets_probing tries .unclassified)
    fun log₁ r ⟨m, grown, about, none_, answered⟩ => ?_
  subst grown
  have absent := answered (by decide)
  have quiet (kept : ¬ Gone m line key) : Tried line key m false :=
    ⟨about, by simpa using kept, by rw [none_]; exact Nat.zero_le _⟩
  cases r with
  | ok v =>
      have kept : ¬ Gone m line key := by simpa using absent.symm
      cases v with
      | unversioned =>
          refine meets_mono (meets_deleting (ceiling_append (l := line) (k := key) below none_))
            fun log₂ r ⟨m', grown', tried, same⟩ => ?_
          refine ⟨m ++ m', by rw [grown', List.append_assoc], ⟨?_, ?_, ?_⟩, same⟩
          · exact fun e member => (List.mem_append.mp member).elim (about e) (tried.about e)
          · rw [gone_append, tried.answered, or_iff_right kept]
          · rw [delivered_append, none_]
            exact tried.delivered
      | versioned => exact meets_pure ⟨m, rfl, quiet kept, rfl, rfl⟩
  | error e =>
      by_cases missing : e = .notFound
      · simp only [missing, if_true]
        refine meets_pure ⟨m, rfl, ⟨about, ?_, by rw [none_]; exact Nat.zero_le _⟩, rfl, rfl⟩
        exact iff_of_true rfl (absent.mp (by rw [missing]))
      · have kept : ¬ Gone m line key := fun gone => missing (Except.error.inj (absent.mpr gone))
        simp only [missing, if_false]
        split
        · exact meets_pure ⟨m, rfl, quiet kept, rfl, rfl⟩
        · exact meets_pure ⟨m, rfl, quiet kept, rfl, rfl⟩

theorem Swept.cons {gone : Bool} (tried : Tried line key more gone)
    (swept : Swept line keys more' rest) :
    Swept line (key :: keys) (more ++ more') (if gone then rest else key :: rest) where
  about := by
    intro e member
    rcases List.mem_append.mp member with early | late
    · exact ⟨key, List.mem_cons_self, tried.about e early⟩
    · obtain ⟨k, here, about⟩ := swept.about e late
      exact ⟨k, List.mem_cons_of_mem _ here, about⟩
  left := by
    cases gone with
    | true => exact swept.left.cons key
    | false => exact swept.left.cons_cons key
  gone := by
    intro nodup k member
    obtain ⟨fresh, nodup'⟩ := List.nodup_cons.mp nodup
    have apart : ¬ Gone more' line key := not_gone_of_about swept.about fresh
    rw [gone_append]
    rcases List.mem_cons.mp member with rfl | later
    · rw [or_iff_left apart, ← tried.answered]
      cases gone with
      | true => simpa using fun left => fresh (swept.left.mem left)
      | false => simp
    · have other : k ≠ key := fun same => fresh (same ▸ later)
      have alone : ∀ e ∈ more, ∃ k ∈ [key], About line k e.call := fun e here =>
        ⟨key, List.mem_singleton_self key, tried.about e here⟩
      have early : ¬ Gone more line k := not_gone_of_about alone (by simpa using other)
      rw [or_iff_right early, ← swept.gone nodup' k later]
      cases gone with
      | true => exact Iff.rfl
      | false => simp [other]
  delivered := by
    have one := tried.delivered
    have rest_ := swept.delivered
    rw [delivered_append, List.length_append, List.length_cons]
    cases gone with
    | true => simp only [Bool.toNat_true, if_true] at one ⊢; omega
    | false =>
        simp only [Bool.toNat_false, Bool.false_eq_true, if_false, List.length_cons] at one ⊢
        omega

theorem Swept.skip (swept : Swept line keys more rest) :
    Swept line (key :: keys) more (key :: rest) := by
  have untried : Tried line key [] false := ⟨by simp, by simp [Gone], Nat.le_refl 0⟩
  simpa using swept.cons untried

theorem meets_sweeping {p : Progress} (fits : limits.maxObjects ≤ I64_MAX)
    (charged : Verified run log → ((delivered log).length : Int) ≤ p.out.objectsDeleted) :
    (deleteSegments limits line keys p).Meets (Ceiling run limits)
      (fun log' r => ∃ more rest, log' = log ++ more ∧ Swept line keys more rest ∧
        r.remaining = p.remaining ++ rest ∧
        r.removed = p.removed + ((keys.length : Int) - rest.length) ∧
        r.out.objectsDeleted = p.out.objectsDeleted + ((keys.length : Int) - rest.length) ∧
        r.out.points = p.out.points) log := by
  induction keys generalizing log p with
  | nil =>
      refine meets_pure ⟨[], [], by simp, ⟨by simp, List.Sublist.refl _, by simp, Nat.le_refl 0⟩, ?_⟩
      simp
  | cons key keys ih =>
      unfold deleteSegments
      split
      · refine meets_mono (ih charged) fun log' r held => ?_
        obtain ⟨m, rest, grown, swept, left, removed, count, points⟩ := held
        refine ⟨m, key :: rest, grown, swept.skip, ?_, ?_, ?_, points⟩
        · rw [left, List.append_assoc]
          rfl
        · rw [removed, List.length_cons, List.length_cons]
          simp only
          omega
        · rw [count, List.length_cons, List.length_cons]
          simp only
          omega
      · rename_i under
        have below : Verified run log → ((delivered log).length : Int) < limits.maxObjects :=
          fun verified => by have := charged verified; omega
        refine meets_bind (meets_trying below) fun log₁ r held => ?_
        obtain ⟨m, grown, tried, points, count⟩ := held
        subst grown
        obtain ⟨gone, why, out⟩ := r
        simp only at points count tried ⊢
        have one := tried.delivered
        have early (verified : Verified run (log ++ m)) :
            ((delivered (log ++ m)).length : Int) ≤ p.out.objectsDeleted + gone.toNat := by
          have := charged verified.of_append
          rw [delivered_append, List.length_append]
          omega
        cases gone with
        | true =>
            have sum : saturatingAdd out.objectsDeleted 1 = p.out.objectsDeleted + 1 := by
              unfold saturatingAdd
              omega
            simp only [if_true]
            refine meets_mono (ih (fun verified => ?_)) fun log' r held => ?_
            · rw [sum]
              exact early verified
            · obtain ⟨m', rest, grown', swept, left, removed, count', points'⟩ := held
              refine ⟨m ++ m', rest, by rw [grown', List.append_assoc], swept.cons tried, left,
                ?_, ?_, points'.trans points⟩
              · rw [removed, List.length_cons]
                simp only
                omega
              · rw [count', List.length_cons]
                simp only
                omega
        | false =>
            simp only [Bool.false_eq_true, if_false]
            refine meets_mono (ih (fun verified => ?_)) fun log' r held => ?_
            · have := early verified
              simp only [Bool.toNat_false] at this
              rw [count]
              omega
            · obtain ⟨m', rest, grown', swept, left, removed, count', points'⟩ := held
              refine ⟨m ++ m', key :: rest, by rw [grown', List.append_assoc], swept.cons tried, ?_,
                ?_, ?_, points'.trans points⟩
              · rw [left, List.append_assoc]
                rfl
              · rw [removed, List.length_cons, List.length_cons]
                simp only
                omega
              · rw [count', List.length_cons, List.length_cons]
                simp only
                omega

theorem completion_ne_check (point point' : String) :
    tombstoneKey run point "completion" ≠ tombstoneKey run point' "check" := by
  intro same
  obtain ⟨before, completion⟩ := tombstoneKey_toList run point "completio" "n"
  obtain ⟨before', check⟩ := tombstoneKey_toList run point' "chec" "k"
  have texts : (tombstoneKey run point ("completio" ++ "n")).toList =
      (tombstoneKey run point' ("chec" ++ "k")).toList := congrArg String.toList same
  rw [completion, check] at texts
  exact absurd (List.append_inj_right' texts rfl) (by decide)

theorem meets_intending {versioned : Bool} :
    (writeIntents run line keys points versioned).Meets (Ceiling run limits)
      (fun log' _ => ∃ more, log' = log ++ more ∧ ∀ e ∈ more, Noted run line e.call) log := by
  induction points generalizing log versioned with
  | nil => exact meets_pure ⟨[], by simp, by simp⟩
  | cons point points ih =>
      refine meets_ask trivial fun answer => ?_
      cases answer with
      | error e =>
          refine meets_pure ⟨_, rfl, List.forall_mem_singleton.mpr ⟨rfl, ?_⟩⟩
          exact intent_ne_check point line.pointId
      | ok version =>
          refine meets_mono ih fun log' r ⟨m, grown, noted⟩ => ?_
          refine ⟨[_] ++ m, by rw [grown, List.append_assoc], ?_⟩
          exact List.forall_mem_cons.mpr ⟨⟨rfl, intent_ne_check point line.pointId⟩, noted⟩

theorem meets_completing {removed : Int} {remaining : List String} {code text : Option String} :
    (writeCompletions run line removed remaining code points text).Meets (Ceiling run limits)
      (fun log' _ => ∃ more, log' = log ++ more ∧ ∀ e ∈ more, Noted run line e.call) log := by
  induction points generalizing log text with
  | nil => exact meets_pure ⟨[], by simp, by simp⟩
  | cons point points ih =>
      refine meets_ask trivial fun answer => ?_
      have own : tombstoneKey run point "completion" ≠ tombstoneKey run line.pointId "check" :=
        completion_ne_check point line.pointId
      cases answer with
      | error e =>
          refine meets_mono ih fun log' r ⟨m, grown, noted⟩ => ?_
          refine ⟨[_] ++ m, by rw [grown, List.append_assoc], ?_⟩
          exact List.forall_mem_cons.mpr ⟨⟨rfl, own⟩, noted⟩
      | ok version =>
          refine meets_mono ih fun log' r ⟨m, grown, noted⟩ => ?_
          refine ⟨[_] ++ m, by rw [grown, List.append_assoc], ?_⟩
          exact List.forall_mem_cons.mpr ⟨⟨rfl, own⟩, noted⟩

theorem meets_resolving : (resolveKeys line).Meets (Ceiling run limits)
    (fun log' r => ∃ more, log' = log ++ more ∧ (∀ e ∈ more, Plain run line e.call) ∧
      ∀ keys, r = .ok keys → Means more line keys) log := by
  unfold resolveKeys
  split
  · rename_i listing
    refine meets_ask trivial fun answer => ?_
    have plain : ∀ e ∈ [(⟨Call.list line line.setPrefix, answer⟩ : Event Call Answer)],
        Plain run line e.call := List.forall_mem_singleton.mpr rfl
    cases answer with
    | error e => exact meets_pure ⟨_, rfl, plain, by simp⟩
    | ok listed =>
        refine meets_pure ⟨_, rfl, plain, fun keys passed => ⟨?_, fun keys' resolved => ?_⟩⟩
        · exact .inr ⟨listing, listed, List.mem_singleton_self _, passed⟩
        · rcases resolved with ⟨named, -⟩ | ⟨-, listed', member, passed'⟩
          · rw [listing] at named
            cases named
          · have event := List.mem_singleton.mp member
            cases event
            exact Except.ok.inj (passed'.symm.trans passed)
  · rename_i named
    have plan : line.enumerateSet = false := by simpa using named
    refine meets_pure ⟨[], by simp, by simp, fun keys same => ?_⟩
    obtain rfl := Except.ok.inj same
    refine ⟨.inl ⟨plan, rfl⟩, fun keys' resolved => ?_⟩
    rcases resolved with ⟨-, rfl⟩ | ⟨listing, -⟩
    · rfl
    · rw [plan] at listing
      cases listing

theorem meets_ending {p : Progress} {started : Log} {out : Outcome}
    (nonneg : 0 ≤ out.objectsDeleted) (grown : log = started ++ more) (made : ∀ e ∈ more, e.call.line = line)
    (means : Means more line keys) (left : p.remaining.Sublist (keys.drop 1))
    (manifest : Gone more line line.manifestKey)
    (gone : (line.manifestKey :: keys.drop 1).Nodup →
      ∀ key ∈ keys.drop 1, (key ∈ p.remaining ↔ ¬ Gone more line key))
    (few : (delivered more).length + p.remaining.length ≤ 1 + (keys.drop 1).length)
    (unchecked : Unchecked run more line)
    (removed : p.removed = 1 + ((keys.drop 1).length : Int) - p.remaining.length)
    (count : p.out.objectsDeleted = out.objectsDeleted + p.removed)
    (points : p.out.points = out.points) :
    (finishLine run line keys p).Meets (Ceiling run limits)
      (fun log' out' => ∃ more, log' = started ++ more ∧ LineEnd run line more out out') log := by
  refine meets_ask trivial fun answer => ?_
  refine meets_bind meets_completing fun log₁ text ⟨m, later, noted⟩ => ?_
  subst later grown
  have plain : ∀ e ∈ m, Plain run line e.call := fun e member => (noted e member).plain
  let check : Event Call Answer :=
    ⟨Call.put line (tombstoneKey run line.pointId "check") (checkBytes run line), answer⟩
  have finished : FinishedLine run line (more ++ [check] ++ m) keys p.remaining answer := by
    have none_ : delivered (more ++ [check] ++ m) = delivered more := by
      rw [delivered_append, delivered_append, delivered_plain plain, List.append_nil]
      exact List.append_nil _
    have same (key : String) : Gone (more ++ [check] ++ m) line key ↔ Gone more line key := by
      rw [gone_append, gone_append, or_iff_left (not_gone_of_plain plain), or_iff_left]
      simp [Gone, check]
    have unlisted : ∀ e ∈ [check], ∀ under, e.call ≠ .list line under :=
      List.forall_mem_singleton.mpr fun under => Call.noConfusion
    refine ⟨?_, (means.append unlisted).append fun e member => (noted e member).unlisted, left,
      (same _).mpr manifest, ?_, ?_,
      ⟨_, List.mem_append_left _ (List.mem_append_right _ (List.mem_singleton_self check))⟩, ?_⟩
    · intro e member
      rcases List.mem_append.mp member with early | late
      · rcases List.mem_append.mp early with first | now
        · exact made e first
        · rw [List.mem_singleton.mp now]
          rfl
      · exact (plain e late).line_eq
    · intro nodup key member
      rw [same]
      exact gone nodup key member
    · rw [none_]
      exact few
    · intro bytes answer' member
      rcases List.mem_append.mp member with early | late
      · rcases List.mem_append.mp early with first | now
        · exact absurd rfl (unchecked _ first bytes)
        · have event := List.mem_singleton.mp now
          change (⟨Call.put line _ bytes, answer'⟩ : Event Call Answer) = ⟨Call.put line _ _, answer⟩
            at event
          cases event
          rfl
      · exact absurd rfl ((plain _ late).2)
  have split : started ++ more ++ [check] ++ m = started ++ (more ++ [check] ++ m) := by
    simp only [List.append_assoc]
  cases clean : unverified answer with
  | none =>
      refine meets_pure ⟨_, split, ?_⟩
      exact .verified keys p.remaining p.removed answer text finished clean removed points count
  | some why =>
      refine meets_pure ⟨_, split, ?_⟩
      refine .unverified keys p.remaining answer text finished (by rw [clean]; simp) points ?_
      have back : p.out.objectsDeleted - p.removed = out.objectsDeleted := by omega
      have low : -I64_MAX - 1 ≤ out.objectsDeleted := by unfold I64_MAX; omega
      simp only [Option.isSome_some, if_true, back]
      exact max_eq_left low

theorem meets_removing {started : Log} {out : Outcome} (fits : limits.maxObjects ≤ I64_MAX)
    (nonneg : 0 ≤ out.objectsDeleted) (under : out.objectsDeleted < limits.maxObjects)
    (charged : Verified run log → ((delivered log).length : Int) ≤ out.objectsDeleted)
    (grown : log = started ++ more) (plain : ∀ e ∈ more, Plain run line e.call)
    (means : Means more line keys) :
    (deleteLine run limits line keys out).Meets (Ceiling run limits)
      (fun log' out' => ∃ more, log' = started ++ more ∧ LineEnd run line more out out') log := by
  have below : Verified run log → ((delivered log).length : Int) < limits.maxObjects :=
    fun verified => by have := charged verified; omega
  refine meets_bind (meets_trying below) fun log₁ r ⟨m, grown₁, tried, points, count⟩ => ?_
  subst grown grown₁
  obtain ⟨gone, why, out₁⟩ := r
  simp only at points count tried ⊢
  have aboutManifest : ∀ e ∈ m, ∃ k, About line k e.call := fun e member =>
    ⟨_, tried.about e member⟩
  have split : started ++ more ++ m = started ++ (more ++ m) := List.append_assoc _ _ _
  have made : ∀ e ∈ more ++ m, e.call.line = line := fun e member =>
    (List.mem_append.mp member).elim (fun early => (plain e early).line_eq)
      fun late => (tried.about e late).line_eq
  have none_ : delivered (more ++ m) = delivered m := by
    rw [delivered_append, delivered_plain plain, List.nil_append]
  have unchecked : Unchecked run (more ++ m) line :=
    (unchecked_of_plain plain).append (unchecked_of_about aboutManifest)
  have one := tried.delivered
  cases gone with
  | false =>
      refine meets_pure ⟨_, split, .kept keys _ ⟨made, ?_, ?_, unchecked⟩ points count⟩
      · exact .inr (resolved_append means.1)
      · rw [none_, ← List.length_eq_zero_iff]
        exact Nat.le_zero.mp one
  | true =>
      simp only [if_true]
      have sum : saturatingAdd out₁.objectsDeleted 1 = out.objectsDeleted + 1 := by
        unfold saturatingAdd
        omega
      have charged₁ : Verified run (started ++ more ++ m) →
          ((delivered (started ++ more ++ m)).length : Int) ≤
            saturatingAdd out₁.objectsDeleted 1 := fun verified => by
        have := charged verified.of_append
        rw [sum, delivered_append, List.length_append]
        simp only [Bool.toNat_true] at one
        omega
      refine meets_bind (meets_sweeping fits charged₁) fun log₂ p held => ?_
      obtain ⟨m', rest, grown₂, swept, left, removed, count', points'⟩ := held
      rw [List.nil_append] at left
      have manifest : Gone m line line.manifestKey := tried.answered.mp rfl
      have some_ : ∀ e ∈ m', ∃ k, About line k e.call := fun e member =>
        let ⟨k, _, about⟩ := swept.about e member
        ⟨k, about⟩
      have whole : log₂ = started ++ (more ++ m ++ m') := by
        rw [grown₂]
        simp only [List.append_assoc]
      have sublist : p.remaining.Sublist (keys.drop 1) := by
        rw [left]
        exact swept.left
      refine meets_ending nonneg whole ?_ ?_ sublist ?_ ?_ ?_ ?_ ?_ ?_ (points'.trans points)
      · intro e member
        rcases List.mem_append.mp member with early | late
        · exact made e early
        · obtain ⟨k, -, about⟩ := swept.about e late
          exact about.line_eq
      · refine (means.append fun e member => (tried.about e member).unlisted).append ?_
        intro e member
        obtain ⟨k, -, about⟩ := swept.about e member
        exact about.unlisted
      · exact gone_append.mpr (.inl (gone_append.mpr (.inr manifest)))
      · intro nodup key member
        obtain ⟨fresh, nodup'⟩ := List.nodup_cons.mp nodup
        have early : ¬ Gone (more ++ m) line key := by
          rw [gone_append]
          rintro (listed | first)
          · exact not_gone_of_plain plain listed
          · have alone : ∀ e ∈ m, ∃ k ∈ [line.manifestKey], About line k e.call := fun e here =>
              ⟨_, List.mem_singleton_self _, tried.about e here⟩
            refine not_gone_of_about alone ?_ first
            rw [List.mem_singleton]
            rintro rfl
            exact fresh member
        rw [left, gone_append, or_iff_right early]
        exact swept.gone nodup' key member
      · rw [delivered_append, none_, List.length_append, left]
        have := swept.delivered
        simp only [Bool.toNat_true] at one
        omega
      · exact unchecked.append (unchecked_of_about some_)
      · rw [removed, left]
        simp only
        omega
      · rw [count', removed, sum]
        simp only
        omega

theorem meets_line (fits : limits.maxObjects ≤ I64_MAX) {out : Outcome}
    (nonneg : 0 ≤ out.objectsDeleted)
    (charged : Verified run log → ((delivered log).length : Int) ≤ out.objectsDeleted) :
    (executeLine run limits out line).Meets (Ceiling run limits)
      (fun log' out' => ∃ more, log' = log ++ more ∧ LineEnd run line more out out') log := by
  have plainly {m : Log} {k : List String} (plain : ∀ e ∈ m, Plain run line e.call)
      (means : k = line.objectKeys ∨ Resolved m line k) : KeptLine run line m k :=
    ⟨fun e member => (plain e member).line_eq, means, delivered_plain plain,
      unchecked_of_plain plain⟩
  unfold executeLine
  split_ifs with preview full
  · refine meets_bind meets_resolving fun log₁ r ⟨m, grown, plain, resolved⟩ => ?_
    refine meets_ask trivial fun answer => ?_
    refine meets_pure ⟨m ++ [⟨Call.probe line line.manifestKey, answer⟩], ?_, ?_⟩
    · rw [grown, List.append_assoc]
    · have probed : Unchecked run [(⟨Call.probe line line.manifestKey, answer⟩ :
          Event Call Answer)] line :=
        unchecked_of_about (List.forall_mem_singleton.mpr ⟨_, rfl, rfl⟩)
      refine .kept _ _ ⟨?_, ?_, ?_, (unchecked_of_plain plain).append probed⟩ rfl rfl
      · intro e member
        rcases List.mem_append.mp member with early | late
        · exact (plain e early).line_eq
        · rw [List.mem_singleton.mp late]
          rfl
      · cases r with
        | error code => exact .inl rfl
        | ok keys => exact .inr (resolved_append (resolved keys rfl).1)
      · rw [delivered_append, delivered_plain plain]
        rfl
  · have none_ : ∀ e ∈ ([] : Log), Plain run line e.call := fun e member =>
      (List.not_mem_nil member).elim
    exact meets_pure ⟨[], (List.append_nil log).symm, .kept _ _ (plainly none_ (.inl rfl)) rfl rfl⟩
  · refine meets_bind meets_resolving fun log₁ r ⟨m, grown, plain, resolved⟩ => ?_
    subst grown
    cases r with
    | error code => exact meets_pure ⟨m, rfl, .kept _ _ (plainly plain (.inl rfl)) rfl rfl⟩
    | ok keys =>
        refine meets_bind meets_intending fun log₂ r ⟨m', grown, noted⟩ => ?_
        subst grown
        have both : ∀ e ∈ m ++ m', Plain run line e.call := fun e member =>
          (List.mem_append.mp member).elim (plain e) fun late => (noted e late).plain
        have means : Means (m ++ m') line keys :=
          (resolved keys rfl).append fun e member => (noted e member).unlisted
        have split : log ++ m ++ m' = log ++ (m ++ m') := List.append_assoc _ _ _
        cases r with
        | error code =>
            exact meets_pure ⟨_, split, .kept _ _ (plainly both (.inr means.1)) rfl rfl⟩
        | ok versioned =>
            cases versioned with
            | true => exact meets_pure ⟨_, split, .kept _ _ (plainly both (.inr means.1)) rfl rfl⟩
            | false =>
                refine meets_removing fits nonneg (by omega) (fun verified => ?_) split both means
                rw [split] at verified ⊢
                rw [delivered_append, delivered_plain both, List.append_nil]
                exact charged verified.of_append

end

end Logweir.Retention
