import Logweir.Drill.Reconcile
import Logweir.Library.Programs

/-!
# Phase 9: what a teardown deletes

`logweir::drill::phase9_teardown`.  A scratch drill hands its mapped targets to the deleter, never one
under its original name, and sorts what the deleter answers into what was deleted and what was not.
The two lists are made of the answers: a target no answer names is in neither.
-/

set_option autoImplicit false

namespace Logweir.Phase9

open Std (ExtTreeMap)
open Logweir.Programs Program
open Logweir.Drill (TargetMode)

inductive ConfigSourceKind where
  | dynamicTopicConfig
  | dynamicBrokerConfig
  | dynamicDefaultBrokerConfig
  | staticBrokerConfig
  | defaultConfig
  | unknown
deriving DecidableEq, Repr

structure ConfigEntryObservation where
  name : String
  value : Option String
  source : ConfigSourceKind
deriving DecidableEq, Repr

inductive Call where
  | deleteTopics (names : List String)
  | describeTopicConfigs (topics : List String)
  | alterTopicConfigs (topic : String) (configs : ExtTreeMap String String)

abbrev DeleteAnswer := Except String (List (String × Except String Unit))

abbrev DescribeAnswer := Except String (List (String × Except String (List ConfigEntryObservation)))

abbrev Answer : Call → Type
  | .deleteTopics _ => DeleteAnswer
  | .describeTopicConfigs _ => DescribeAnswer
  | .alterTopicConfigs _ _ => Except String Unit

abbrev Phase := Program Call Answer Empty

abbrev Removed := List String × List (String × String)

def NEVER_DELETED : String :=
  "never deleted: a mapped target equal to its source is a topic under its original name"

def sortAnswer (out : Removed) (result : String × Except String Unit) : Removed :=
  match result.2 with
  | .ok () => (out.1 ++ [result.1], out.2)
  | .error e => (out.1, out.2 ++ [(result.1, e)])

def originalNames (mapping : ExtTreeMap String String) : List String :=
  (mapping.toList.partition fun e => e.1 == e.2).1.map Prod.snd

def handedNames (mapping : ExtTreeMap String String) : List String :=
  (mapping.toList.partition fun e => e.1 == e.2).2.map Prod.snd

def sorted (mapping : ExtTreeMap String String) (answer : DeleteAnswer) : Removed :=
  let failed := (originalNames mapping).map fun target => (target, NEVER_DELETED)
  match answer with
  | .ok results => results.foldl sortAnswer ([], failed)
  -- The whole call failed: nothing is known to have been deleted.
  | .error e => ([], failed ++ (handedNames mapping).map fun n => (n, e))

def remove (mapping : ExtTreeMap String String) (policy : String) (mode : TargetMode) :
    Phase Removed :=
  if mode = .scratch ∧ policy = "delete" then do
    let answer ← call (.deleteTopics (handedNames mapping))
    return sorted mapping answer
  else return ([], [])

def afterFailure (mapping : ExtTreeMap String String) (created : List String) (policy : String)
    (mode : TargetMode) : Phase Removed :=
  let ours := mapping.filter fun _ target => created.contains target
  if ours.isEmpty then return ([], []) else remove ours policy mode

section

variable {mapping : ExtTreeMap String String} {policy : String} {mode : TargetMode}
  {out : Removed} {results : List (String × Except String Unit)}

theorem mem_deleted {n : String} : n ∈ (results.foldl sortAnswer out).1 ↔
    n ∈ out.1 ∨ (n, .ok ()) ∈ results := by
  induction results generalizing out with
  | nil => simp
  | cons result results ih =>
      obtain ⟨name, result⟩ := result
      rw [List.foldl_cons, ih]
      cases result with
      | ok u => simp [sortAnswer, or_assoc]
      | error e => simp [sortAnswer]

theorem mem_failed {p : String × String} : p ∈ (results.foldl sortAnswer out).2 ↔
    p ∈ out.2 ∨ (p.1, .error p.2) ∈ results := by
  induction results generalizing out with
  | nil => simp
  | cons result results ih =>
      obtain ⟨name, result⟩ := result
      obtain ⟨n, why⟩ := p
      rw [List.foldl_cons, ih]
      cases result with
      | ok u => simp [sortAnswer]
      | error e => simp [sortAnswer, or_assoc]

theorem mem_originalNames {n : String} : n ∈ originalNames mapping ↔ mapping[n]? = some n := by
  unfold originalNames
  rw [List.partition_eq_filter_filter]
  simp only [List.mem_map, List.mem_filter, Prod.exists, beq_iff_eq,
    ExtTreeMap.mem_toList_iff_getElem?_eq_some]
  constructor
  · rintro ⟨s, t, ⟨held, rfl⟩, rfl⟩
    exact held
  · exact fun held => ⟨n, n, ⟨held, rfl⟩, rfl⟩

theorem mem_handedNames {n : String} :
    n ∈ handedNames mapping ↔ ∃ source, mapping[source]? = some n ∧ source ≠ n := by
  unfold handedNames
  rw [List.partition_eq_filter_filter]
  simp only [List.mem_map, List.mem_filter, Prod.exists, Function.comp_apply, Bool.not_eq_true',
    beq_eq_false_iff_ne, ExtTreeMap.mem_toList_iff_getElem?_eq_some]
  constructor
  · rintro ⟨s, t, ⟨held, apart⟩, rfl⟩
    exact ⟨s, held, apart⟩
  · rintro ⟨s, held, apart⟩
    exact ⟨s, n, ⟨held, apart⟩, rfl⟩

def Injective (mapping : ExtTreeMap String String) : Prop :=
  ∀ s s' target : String, mapping[s]? = some target → mapping[s']? = some target → s = s'

theorem not_handed_of_original (injective : Injective mapping) {n : String}
    (original : mapping[n]? = some n) : n ∉ handedNames mapping := by
  intro handed
  obtain ⟨s, held, apart⟩ := mem_handedNames.mp handed
  exact apart (injective s n n held original)

def Deletes (policy : String) (mode : TargetMode) : Prop := mode = .scratch ∧ policy = "delete"

/-- A target is in exactly one of the two lists. -/
def InOne (removed : Removed) (target : String) : Prop :=
  (target ∈ removed.1 ∧ target ∉ removed.2.map Prod.fst) ∨
    (target ∉ removed.1 ∧ target ∈ removed.2.map Prod.fst)

/-- The deleter's answers, read against the names it was handed: each is answered, none both ways, and no
success is claimed for a topic under its original name. -/
structure Answered (mapping : ExtTreeMap String String)
    (results : List (String × Except String Unit)) : Prop where
  complete : ∀ n ∈ handedNames mapping, ∃ r, (n, r) ∈ results
  consistent : ∀ n ∈ handedNames mapping, (n, .ok ()) ∈ results → ∀ e, (n, .error e) ∉ results
  own : ∀ n, mapping[n]? = some n → (n, .ok ()) ∉ results

theorem target_cases {source target : String} (held : mapping[source]? = some target) :
    mapping[target]? = some target ∨ target ∈ handedNames mapping := by
  by_cases same : source = target
  · subst same
    exact .inl held
  · exact .inr (mem_handedNames.mpr ⟨source, held, same⟩)

theorem inOne_of_failed {e : String} {source target : String} (held : mapping[source]? = some target) :
    InOne (sorted mapping (.error e)) target := by
  refine .inr ⟨List.not_mem_nil, ?_⟩
  simp only [sorted, List.map_append, List.map_map, List.mem_append, List.mem_map, Function.comp_apply]
  rcases target_cases held with original | handed
  · exact .inl ⟨target, mem_originalNames.mpr original, rfl⟩
  · exact .inr ⟨target, handed, rfl⟩

theorem mem_sorted_deleted {n : String} :
    n ∈ (sorted mapping (.ok results)).1 ↔ (n, .ok ()) ∈ results := by
  simp [sorted, mem_deleted]

theorem mem_sorted_failed {n : String} : n ∈ (sorted mapping (.ok results)).2.map Prod.fst ↔
    mapping[n]? = some n ∨ ∃ e, (n, .error e) ∈ results := by
  simp only [sorted, List.mem_map, Prod.exists, mem_failed, mem_originalNames]
  constructor
  · rintro ⟨n, why, ⟨target, original, same⟩ | answered, rfl⟩
    · cases same
      exact .inl original
    · exact .inr ⟨why, answered⟩
  · rintro (original | ⟨e, answered⟩)
    · exact ⟨n, NEVER_DELETED, .inl ⟨n, original, rfl⟩, rfl⟩
    · exact ⟨n, e, .inr answered, rfl⟩

theorem inOne_iff (injective : Injective mapping) :
    (∀ source target : String, mapping[source]? = some target →
      InOne (sorted mapping (.ok results)) target) ↔ Answered mapping results := by
  simp only [InOne, mem_sorted_deleted, mem_sorted_failed]
  constructor
  · intro each
    refine ⟨?_, ?_, ?_⟩
    · intro n handed
      obtain ⟨source, held, -⟩ := mem_handedNames.mp handed
      rcases each source n held with ⟨deleted, -⟩ | ⟨-, original | ⟨e, failed⟩⟩
      · exact ⟨_, deleted⟩
      · exact absurd handed (not_handed_of_original injective original)
      · exact ⟨_, failed⟩
    · intro n handed deleted e failed
      obtain ⟨source, held, -⟩ := mem_handedNames.mp handed
      rcases each source n held with ⟨-, apart⟩ | ⟨apart, -⟩
      · exact apart (.inr ⟨e, failed⟩)
      · exact apart deleted
    · intro n original deleted
      rcases each n n original with ⟨-, apart⟩ | ⟨apart, -⟩
      · exact apart (.inl original)
      · exact apart deleted
  · intro answered source target held
    rcases target_cases held with original | handed
    · exact .inr ⟨answered.own target original, .inl original⟩
    · obtain ⟨r, told⟩ := answered.complete target handed
      cases r with
      | ok u =>
          refine .inl ⟨told, ?_⟩
          rintro (original | ⟨e, failed⟩)
          · exact not_handed_of_original injective original handed
          · exact answered.consistent target handed told e failed
      | error e =>
          exact .inr ⟨fun deleted => answered.consistent target handed deleted e told, .inr ⟨e, told⟩⟩

end

/-- What a teardown's run may show: its calls and its two lists. -/
structure Accounted (mapping : ExtTreeMap String String) (policy : String) (mode : TargetMode)
    (log : List (Event Call Answer)) (removed : Removed) : Prop where
  one : Deletes policy mode →
    ∀ source target : String, mapping[source]? = some target → InOne removed target
  told : ∀ n ∈ removed.1, ∃ names results, ⟨.deleteTopics names, .ok results⟩ ∈ log ∧
    (n, .ok ()) ∈ results
  spared : ∀ e ∈ log, ∀ names, e.call = .deleteTopics names →
    ∀ n, mapping[n]? = some n → n ∉ names
  kept : ¬ Deletes policy mode → log = [] ∧ removed = ([], [])

section

variable {mapping : ExtTreeMap String String} {policy : String} {mode : TargetMode}
  {log : List (Event Call Answer)} {removed : Removed} {q : Phase Removed}

theorem traced_remove (run : Traced (remove mapping policy mode) log (.done removed)) :
    (Deletes policy mode ∧ ∃ answer, log = [⟨.deleteTopics (handedNames mapping), answer⟩] ∧
        removed = sorted mapping answer) ∨
      (¬ Deletes policy mode ∧ log = [] ∧ removed = ([], [])) := by
  unfold remove at run
  split_ifs at run with deletes
  · obtain ⟨answer, rest, rfl, ended⟩ := traced_ask run
    obtain ⟨rfl, rfl⟩ := traced_pure ended
    exact .inl ⟨deletes, answer, rfl, rfl⟩
  · obtain ⟨rfl, rfl⟩ := traced_pure run
    exact .inr ⟨deletes, rfl, rfl⟩

theorem calls_remove (run : Traced (remove mapping policy mode) log q) :
    ∀ e ∈ log, e.call = .deleteTopics (handedNames mapping) := by
  have meets : (remove mapping policy mode).Meets
      (fun _ c => c = .deleteTopics (handedNames mapping)) (fun _ _ => True) [] := by
    unfold remove
    split_ifs
    · exact meets_ask rfl fun _ => meets_pure trivial
    · exact meets_pure trivial
  intro e member
  obtain ⟨before, after, rfl⟩ := List.append_of_mem member
  exact meets.justified run

theorem told_of_sorted {answer : DeleteAnswer} {n : String}
    (listed : n ∈ (sorted mapping answer).1) : ∃ results, answer = .ok results ∧ (n, .ok ()) ∈ results := by
  cases answer with
  | ok results => exact ⟨results, rfl, mem_sorted_deleted.mp listed⟩
  | error e => exact absurd listed List.not_mem_nil

theorem accounted_iff (injective : Injective mapping)
    (run : Traced (remove mapping policy mode) log (.done removed)) :
    Accounted mapping policy mode log removed ↔
      ∀ names results, ⟨.deleteTopics names, .ok results⟩ ∈ log → Answered mapping results := by
  rcases traced_remove run with ⟨deletes, answer, rfl, rfl⟩ | ⟨keeps, rfl, rfl⟩
  · have spared : ∀ e ∈ [(⟨.deleteTopics (handedNames mapping), answer⟩ : Event Call Answer)], ∀ names,
        e.call = .deleteTopics names → ∀ n, mapping[n]? = some n → n ∉ names := by
      intro e member names same n original
      rw [List.mem_singleton.mp member] at same
      cases same
      exact not_handed_of_original injective original
    constructor
    · intro accounted names results member
      cases List.mem_singleton.mp member
      exact (inOne_iff injective).mp (accounted.one deletes)
    · intro answered
      refine ⟨fun _ => ?_, ?_, spared, fun keeps => absurd deletes keeps⟩
      · cases answer with
        | ok results => exact (inOne_iff injective).mpr (answered _ results (List.mem_singleton_self _))
        | error e => exact fun _ _ held => inOne_of_failed held
      · intro n listed
        obtain ⟨results, rfl, told⟩ := told_of_sorted listed
        exact ⟨_, results, List.mem_singleton_self _, told⟩
  · refine ⟨fun _ _ _ none_ => absurd none_ List.not_mem_nil, fun _ => ⟨?_, ?_, ?_, fun _ => ⟨rfl, rfl⟩⟩⟩
    · exact fun deletes => absurd deletes keeps
    · exact fun n none_ => absurd none_ List.not_mem_nil
    · exact fun e none_ => absurd none_ List.not_mem_nil

theorem calls_afterFailure {created : List String}
    (run : Traced (afterFailure mapping created policy mode) log q) :
    ∀ e ∈ log, ∀ names, e.call = .deleteTopics names → ∀ n ∈ names, n ∈ created := by
  intro e member names same n handed
  unfold afterFailure at run
  dsimp only at run
  split_ifs at run with none_
  · cases run
    exact absurd member List.not_mem_nil
  · have own := calls_remove run e member
    rw [same] at own
    cases own
    obtain ⟨source, held, -⟩ := mem_handedNames.mp handed
    rw [ExtTreeMap.getElem?_filter', Option.filter_eq_some_iff] at held
    exact List.contains_iff_mem.mp held.2

end

end Logweir.Phase9
