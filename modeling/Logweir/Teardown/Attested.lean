import Logweir.Teardown.TransitionRun

/-!
# Phase 9: what it attests

A transition accounts for each of its topics and alters none it has not just read unchanged.  A teardown
accounts for each of its targets when the deleter's answers do.
-/

set_option autoImplicit false

namespace Logweir.Phase9

open Std (ExtTreeMap)
open Logweir.Programs Program
open Logweir.Drill (TargetMode)
open Logweir.Topics

/-- What a whole transition's log and outcome show. -/
structure Transitioned (admission : TopicConfigurationAdmission) (passed kept : Bool)
    (log : List (Event Call Answer)) (outcome : TransitionOutcome) : Prop where
  each : notRunReason admission.transition passed kept = none → ∀ (name : String) (topic : TopicDesired),
    admission.topics[name]? = some topic → topic.route = ROUTE_ADMIN_API →
      outcome.listed.count name = 1
  applied : ∀ name ∈ outcome.applied, ∃ topic : TopicDesired, admission.topics[name]? = some topic ∧
    topic.route = ROUTE_ADMIN_API ∧ SetAndReadBack log name topic
  notRun : outcome.notRun = notRunReason admission.transition passed kept
  nothing : outcome.notRun ≠ none → outcome.listed = []

/-- What phase 9 may ask: nothing when it does not run. -/
def MayAsk (admission : TopicConfigurationAdmission) (passed kept : Bool)
    (log : List (Event Call Answer)) (c : Call) : Prop :=
  notRunReason admission.transition passed kept = none ∧ MaySend admission log c

section

variable {admission : TopicConfigurationAdmission} {passed kept : Bool}
  {log : List (Event Call Answer)} {outcome : TransitionOutcome}

theorem Progress.transitioned {first : Event Call Answer}
    (runs : notRunReason admission.transition passed kept = none)
    (progress : Progress admission first (admission.routed ROUTE_ADMIN_API) log outcome) :
    Transitioned admission passed kept log outcome where
  each _ name topic held admin := by
    have member : name ∈ (admission.routed ROUTE_ADMIN_API).map Prod.fst :=
      List.mem_map_of_mem (mem_routed.mpr ⟨held, admin⟩)
    rw [progress.listed.count_eq, List.count_eq_one_of_mem (routed_nodup _) member]
  applied name said := by
    obtain ⟨topic, member, set⟩ := progress.applied name said
    obtain ⟨held, admin⟩ := mem_routed.mp member
    exact ⟨topic, held, admin, set⟩
  notRun := progress.notRun.trans runs.symm
  nothing did := absurd progress.notRun did

theorem transitioned_of_none (runs : notRunReason admission.transition passed kept = none)
    (empty : admission.routed ROUTE_ADMIN_API = []) (none_ : outcome.listed = [])
    (ran : outcome.notRun = none) : Transitioned admission passed kept log outcome where
  each _ name topic held admin := by
    have member := mem_routed.mpr ⟨held, admin⟩
    rw [empty] at member
    exact absurd member List.not_mem_nil
  applied name said := by
    have listed : name ∈ outcome.listed := List.mem_append_left _ (List.mem_append_left _ said)
    rw [none_] at listed
    exact absurd listed List.not_mem_nil
  notRun := ran.trans runs.symm
  nothing did := absurd ran did

theorem run_meets (key : Option String) (within : Wait)
    (runs : notRunReason admission.transition passed kept = none) :
    (run admission passed kept key within).Meets (MaySend admission)
      (Transitioned admission passed kept) [] := by
  unfold run
  dsimp only
  rw [runs]
  dsimp only
  by_cases empty : admission.routed ROUTE_ADMIN_API = []
  · rw [empty]
    exact meets_pure (transitioned_of_none runs empty rfl rfl)
  · have named : (admission.routed ROUTE_ADMIN_API).map Prod.fst ≠ [] :=
      fun none_ => empty (List.map_eq_nil_iff.mp none_)
    refine meets_bind (readOverrides_meets named) ?_
    rintro log' now ⟨answer, rfl, rfl⟩
    exact meets_mono (transitions_meet rfl rfl within rfl answer) fun log' outcome progress =>
      progress.transitioned runs

theorem run_of_notRun {key : Option String} {within : Wait} {reason : String}
    {q : Phase TransitionOutcome}
    (still : notRunReason admission.transition passed kept = some reason)
    (traced : Traced (run admission passed kept key within) log q) :
    log = [] ∧ ∀ outcome, q = .done outcome → Transitioned admission passed kept [] outcome := by
  unfold run at traced
  dsimp only at traced
  rw [still] at traced
  cases traced
  refine ⟨rfl, fun outcome same => ?_⟩
  cases same
  refine ⟨fun runs => ?_, fun name none_ => absurd none_ List.not_mem_nil, still.symm, fun _ => rfl⟩
  rw [still] at runs
  cases runs

end

/-- Every transition: what it sends, whatever is answered and wherever it is stopped, and what it attests. -/
def TransitionsAccount : Prop :=
  ∀ (admission : TopicConfigurationAdmission) (passed kept : Bool) (key : Option String) (within : Wait)
    (log : List (Event Call Answer)) (q : Phase TransitionOutcome),
    Traced (run admission passed kept key within) log q →
      (∀ before e after, log = before ++ e :: after → MayAsk admission passed kept before e.call) ∧
      (∀ e ∈ log, ∀ name set, e.call = .alterTopicConfigs name set → ∀ topic : TopicDesired,
        admission.topics[name]? = some topic → topic.route ≠ ROUTE_DESIRED_STATE_EXPORT) ∧
      ∀ outcome, q = .done outcome → Transitioned admission passed kept log outcome

theorem transitionsAccount : TransitionsAccount := by
  intro admission passed kept key within log q traced
  cases still : notRunReason admission.transition passed kept with
  | some reason =>
      obtain ⟨rfl, ended⟩ := run_of_notRun still traced
      refine ⟨?_, fun e none_ => absurd none_ List.not_mem_nil, ended⟩
      intro before e after same
      exact absurd same.symm (List.append_ne_nil_of_right_ne_nil before (List.cons_ne_nil e after))
  | none =>
      have meets := run_meets key within still
      have asked : ∀ before e after, log = before ++ e :: after → MaySend admission before e.call := by
        rintro before e after rfl
        exact meets.justified traced
      refine ⟨fun before e after same => ⟨still, asked before e after same⟩, ?_, ?_⟩
      · intro e member name set alters topic held
        obtain ⟨before, after, same⟩ := List.append_of_mem member
        have justified := asked before e after same
        rw [alters] at justified
        obtain ⟨topic', held', admin, -⟩ := justified
        cases held.symm.trans held'
        exact route_ne admin
      · rintro outcome rfl
        exact meets.ended traced

/-- Every teardown of a run that failed, whatever is answered and wherever it is stopped. -/
def AfterFailuresOwn : Prop :=
  ∀ (mapping : ExtTreeMap String String) (created : List String) (policy : String) (mode : TargetMode)
    (log : List (Event Call Answer)) (q : Phase Removed),
    Traced (afterFailure mapping created policy mode) log q →
      ∀ e ∈ log, ∀ names, e.call = .deleteTopics names → ∀ n ∈ names, n ∈ created

/-- Phase 9 accounts for everything when the deleter answers for every name it is handed, no name both
ways, and claims no success for a topic under its original name. -/
theorem phase9_accounts_iff {mapping : ExtTreeMap String String} (injective : Injective mapping)
    (policy : String) (mode : TargetMode) {log : List (Event Call Answer)} {removed : Removed}
    (ran : Traced (remove mapping policy mode) log (.done removed)) :
    (Accounted mapping policy mode log removed ∧ AfterFailuresOwn ∧ TransitionsAccount) ↔
      ∀ names results, ⟨.deleteTopics names, .ok results⟩ ∈ log → Answered mapping results := by
  constructor
  · exact fun all => (accounted_iff injective ran).mp all.1
  · intro answered
    refine ⟨(accounted_iff injective ran).mpr answered, ?_, transitionsAccount⟩
    exact fun mapping created policy mode log q traced => calls_afterFailure traced

def oneTopic : ExtTreeMap String String := TreeMaps.ofEntries [("orders", "drill-orders")]

theorem oneTopic_injective : Injective oneTopic := by
  intro s s' target held held'
  rw [oneTopic, ← ExtTreeMap.mem_toList_iff_getElem?_eq_some, TreeMaps.toList_single,
    List.mem_singleton] at held held'
  cases held
  cases held'
  rfl

theorem handedNames_oneTopic : handedNames oneTopic = ["drill-orders"] := by
  rw [handedNames, oneTopic, TreeMaps.toList_single]
  rfl

theorem removed_oneTopic (answer : DeleteAnswer) : Traced (remove oneTopic "delete" .scratch)
    [⟨.deleteTopics (handedNames oneTopic), answer⟩] (.done (sorted oneTopic answer)) :=
  .asked (.here _)

/-- The topic deleted, and answered so. -/
theorem oneTopic_accounted : Accounted oneTopic "delete" .scratch
      [⟨.deleteTopics (handedNames oneTopic), .ok [("drill-orders", .ok ())]⟩]
      (sorted oneTopic (.ok [("drill-orders", .ok ())])) ∧
    AfterFailuresOwn ∧ TransitionsAccount := by
  refine (phase9_accounts_iff oneTopic_injective "delete" .scratch (removed_oneTopic _)).mpr ?_
  intro names results member
  cases List.mem_singleton.mp member
  refine ⟨?_, ?_, ?_⟩
  · intro n handed
    rw [handedNames_oneTopic] at handed
    cases List.mem_singleton.mp handed
    exact ⟨_, List.mem_singleton_self _⟩
  · intro n _ _ e failed
    cases List.mem_singleton.mp failed
  · intro n original told
    cases List.mem_singleton.mp told
    rw [oneTopic, ← ExtTreeMap.mem_toList_iff_getElem?_eq_some, TreeMaps.toList_single,
      List.mem_singleton] at original
    exact absurd (Prod.mk.inj original).1 (by decide)

/-- A deleter that answers for no topic leaves the drill's in neither list. -/
theorem unanswered_unaccounted : ¬ ∀ (mapping : ExtTreeMap String String), Injective mapping →
    ∀ (policy : String) (mode : TargetMode) (log : List (Event Call Answer)) (removed : Removed),
      Traced (remove mapping policy mode) log (.done removed) →
        Accounted mapping policy mode log removed := by
  intro all
  have accounted := all oneTopic oneTopic_injective "delete" .scratch _ _ (removed_oneTopic (.ok []))
  have answered := (accounted_iff oneTopic_injective (removed_oneTopic (.ok []))).mp accounted _ _
    (List.mem_singleton_self _)
  obtain ⟨r, none_⟩ := answered.complete "drill-orders"
    (handedNames_oneTopic ▸ List.mem_singleton_self _)
  exact absurd none_ List.not_mem_nil

end Logweir.Phase9
