import Logweir.Topics.Transition

/-!
# The stages lose nothing

What the loop over a topic's entries sorts where, and from it what a plan of all
topics creates, defers and leaves out.
-/

set_option autoImplicit false

namespace Logweir.Topics

open Std (ExtTreeMap)
open Logweir.Results Logweir.Text

variable {source : String} {factor : Nat} {line : TargetLine} {broker : ExtTreeMap String String}
  {st st' : Sorted} {key : String} {entry : ConfigEntry}

def entryStage (line : TargetLine) (key : String) (entry : ConfigEntry) : Stage :=
  stageOf key (rederivedClass key entry) line

def appliedValue (factor : Nat) (key value : String) : String :=
  match parseU32 (trim value) with
  | some n => if key = MIN_INSYNC_REPLICAS ∧ factor < n then toString (min n factor) else value
  | none => value

theorem appliedValue_eq (factor : Nat) (key value : String) :
    appliedValue factor key value =
      if key = MIN_INSYNC_REPLICAS then capMinInsync value factor else value := by
  unfold appliedValue capMinInsync
  cases parseU32 (trim value) with
  | none => rw [ite_self]
  | some n =>
      by_cases named : key = MIN_INSYNC_REPLICAS
      · by_cases larger : factor < n
        · simp [named, larger, Nat.min_eq_right (Nat.le_of_lt larger)]
        · simp [named, larger]
      · simp [named]

def Stage.leaves (stage : Stage) (entry : ConfigEntry) : Bool :=
  match stage with
  | .never _ => true
  | _ => entry.value.isNone

theorem sortEntry_cases (h : sortEntry source factor line broker st (key, entry) = .ok st') :
    rederivedClass key entry = entry.portability ∧
    ((∃ value, entryStage line key entry = .atCreation ∧ entry.value = some value ∧
        st'.atCreation = st.atCreation.insert key (appliedValue factor key value) ∧
        st'.deferred = st.deferred ∧ st'.notApplied = st.notApplied) ∨
      (∃ value, entryStage line key entry = .afterVerification ∧ entry.value = some value ∧
        st'.deferred = st.deferred.insert key value ∧
        st'.atCreation = st.atCreation ∧ st'.notApplied = st.notApplied) ∨
      ((entryStage line key entry).leaves entry = true ∧ st'.atCreation = st.atCreation ∧
        st'.deferred = st.deferred ∧ ∃ left, st'.notApplied = st.notApplied ++ [left] ∧
          left.key = key ∧ left.portability = entry.portability ∧
          left.value = if entry.portability = SECRET then none else entry.value)) := by
  simp only [sortEntry] at h
  have same : rederivedClass key entry = entry.portability := by
    by_contra differs
    rw [if_pos differs] at h
    cases h
  refine ⟨same, ?_⟩
  simp only [same, ne_eq, not_true_eq_false, if_false] at h
  unfold entryStage
  rw [same]
  cases stage : stageOf key entry.portability line with
  | atCreation =>
      cases value : entry.value with
      | some v =>
          left
          rw [stage, value] at h
          cases h
          exact ⟨v, rfl, rfl, by rw [appliedValue_eq], rfl, rfl⟩
      | none =>
          right; right
          rw [stage, value] at h
          cases h
          refine ⟨?_, rfl, rfl, _, rfl, rfl, rfl, ?_⟩
          · simp [Stage.leaves, value]
          · simp
  | afterVerification =>
      cases value : entry.value with
      | some v =>
          right; left
          rw [stage, value] at h
          cases h
          exact ⟨v, rfl, rfl, rfl, rfl, rfl⟩
      | none =>
          right; right
          rw [stage, value] at h
          cases h
          refine ⟨?_, rfl, rfl, _, rfl, rfl, rfl, ?_⟩
          · simp [Stage.leaves, value]
          · simp
  | never reason =>
      right; right
      rw [stage] at h
      cases h
      exact ⟨rfl, rfl, rfl, _, rfl, rfl, rfl, rfl⟩

/-- What the loop has sorted of the entries it has read. -/
structure SortedAs (factor : Nat) (line : TargetLine) (read : List (String × ConfigEntry))
    (st : Sorted) : Prop where
  rederived : ∀ e ∈ read, rederivedClass e.1 e.2 = e.2.portability
  atCreation : ∀ k v, st.atCreation[k]? = some v ↔ ∃ entry value, (k, entry) ∈ read ∧
    entryStage line k entry = .atCreation ∧ entry.value = some value ∧
    v = appliedValue factor k value
  deferred : ∀ k v, st.deferred[k]? = some v ↔ ∃ entry, (k, entry) ∈ read ∧
    entryStage line k entry = .afterVerification ∧ entry.value = some v
  notApplied : st.notApplied.map NotApplied.key =
    (read.filter fun e => (entryStage line e.1 e.2).leaves e.2).map Prod.fst
  values : ∀ left ∈ st.notApplied, ∃ entry, (left.key, entry) ∈ read ∧
    left.portability = entry.portability ∧
    left.value = if entry.portability = SECRET then none else entry.value

theorem sortedAs_nil : SortedAs factor line [] {} where
  rederived := fun _ none => nomatch none
  atCreation := by simp
  deferred := by simp
  notApplied := rfl
  values := fun _ none => nomatch none

theorem insert_iff {m : ExtTreeMap String String} {key value : String}
    {held : String → String → Prop} (before : ∀ k v, m[k]? = some v ↔ held k v)
    (fresh : ∀ v, ¬ held key v) (k v : String) :
    (m.insert key value)[k]? = some v ↔ held k v ∨ (k = key ∧ v = value) := by
  rw [ExtTreeMap.getElem?_insert]
  by_cases same : k = key
  · subst same
    simp only [Std.ReflCmp.compare_self, if_true, Option.some.injEq, true_and]
    constructor
    · exact fun h => .inr h.symm
    · rintro (h | h)
      · exact absurd h (fresh v)
      · exact h.symm
  · have apart : compare key k ≠ .eq := fun h => same (Std.LawfulEqCmp.eq_of_compare h).symm
    rw [if_neg apart, before]
    constructor
    · exact .inl
    · rintro (h | ⟨h, -⟩)
      · exact h
      · exact absurd h same

theorem SortedAs.step {read : List (String × ConfigEntry)} (sorted : SortedAs factor line read st)
    (fresh : key ∉ read.map Prod.fst)
    (h : sortEntry source factor line broker st (key, entry) = .ok st') :
    SortedAs factor line (read ++ [(key, entry)]) st' := by
  have unread (e : ConfigEntry) : (key, e) ∉ read := fun member =>
    fresh (List.mem_map_of_mem member)
  have one (k : String) (e : ConfigEntry) :
      (k, e) ∈ read ++ [(key, entry)] ↔ (k, e) ∈ read ∨ (k = key ∧ e = entry) := by
    simp
  obtain ⟨same, placed⟩ := sortEntry_cases h
  refine ⟨?_, ?_, ?_, ?_, ?_⟩
  · intro e member
    rcases List.mem_append.mp member with earlier | here
    · exact sorted.rederived e earlier
    · rw [List.mem_singleton.mp here]
      exact same
  · intro k v
    rcases placed with ⟨value, stage, held, created, -, -⟩ | ⟨value, stage, held, -, created, -⟩ |
      ⟨leaves, created, -, -⟩
    · rw [created, insert_iff sorted.atCreation fun _ ⟨e, _, member, _⟩ => unread e member]
      constructor
      · rintro (⟨e, value', member, facts⟩ | ⟨rfl, rfl⟩)
        · exact ⟨e, value', (one k e).mpr (.inl member), facts⟩
        · exact ⟨entry, value, (one k entry).mpr (.inr ⟨rfl, rfl⟩), stage, held, rfl⟩
      · rintro ⟨e, value', member, facts⟩
        rcases (one k e).mp member with earlier | ⟨rfl, rfl⟩
        · exact .inl ⟨e, value', earlier, facts⟩
        · rw [held] at facts
          cases facts.2.1
          exact .inr ⟨rfl, facts.2.2⟩
    all_goals
      rw [created, sorted.atCreation]
      constructor
      · rintro ⟨e, value', member, facts⟩
        exact ⟨e, value', (one k e).mpr (.inl member), facts⟩
      · rintro ⟨e, value', member, at_, holds, eq⟩
        rcases (one k e).mp member with earlier | ⟨rfl, rfl⟩
        · exact ⟨e, value', earlier, at_, holds, eq⟩
        · first
          | rw [stage] at at_
            cases at_
          | rw [at_] at leaves
            simp [Stage.leaves, holds] at leaves
  · intro k v
    rcases placed with ⟨value, stage, held, -, created, -⟩ | ⟨value, stage, held, created, -, -⟩ |
      ⟨leaves, -, created, -⟩
    rotate_left
    · rw [created, insert_iff sorted.deferred fun _ ⟨e, member, _⟩ => unread e member]
      constructor
      · rintro (⟨e, member, facts⟩ | ⟨rfl, rfl⟩)
        · exact ⟨e, (one k e).mpr (.inl member), facts⟩
        · exact ⟨entry, (one k entry).mpr (.inr ⟨rfl, rfl⟩), stage, held⟩
      · rintro ⟨e, member, facts⟩
        rcases (one k e).mp member with earlier | ⟨rfl, rfl⟩
        · exact .inl ⟨e, earlier, facts⟩
        · rw [held] at facts
          cases facts.2
          exact .inr ⟨rfl, rfl⟩
    all_goals
      rw [created, sorted.deferred]
      constructor
      · rintro ⟨e, member, facts⟩
        exact ⟨e, (one k e).mpr (.inl member), facts⟩
      · rintro ⟨e, member, after, holds⟩
        rcases (one k e).mp member with earlier | ⟨rfl, rfl⟩
        · exact ⟨e, earlier, after, holds⟩
        · first
          | rw [stage] at after
            cases after
          | rw [after] at leaves
            simp [Stage.leaves, holds] at leaves
  · rw [List.filter_append, List.map_append, ← sorted.notApplied]
    rcases placed with ⟨value, stage, held, -, -, same⟩ | ⟨value, stage, held, -, -, same⟩ |
      ⟨leaves, -, -, left, same, name, -, -⟩
    · rw [same]
      simp [Stage.leaves, stage, held]
    · rw [same]
      simp [Stage.leaves, stage, held]
    · rw [same, List.map_append]
      simp [leaves, name]
  · intro left member
    have earlier (member : left ∈ st.notApplied) : ∃ e, (left.key, e) ∈ read ++ [(key, entry)] ∧
        left.portability = e.portability ∧
        left.value = if e.portability = SECRET then none else e.value := by
      obtain ⟨e, before, facts⟩ := sorted.values left member
      exact ⟨e, (one left.key e).mpr (.inl before), facts⟩
    rcases placed with ⟨-, -, -, -, -, same⟩ | ⟨-, -, -, -, -, same⟩ |
      ⟨-, -, -, last, same, name, class_, value⟩
    · exact earlier (same ▸ member)
    · exact earlier (same ▸ member)
    · rw [same] at member
      rcases List.mem_append.mp member with before | here
      · exact earlier before
      · rw [List.mem_singleton.mp here]
        exact ⟨entry, (one last.key entry).mpr (.inr ⟨name, rfl⟩), class_, value⟩

theorem SortedAs.run : ∀ (entries read : List (String × ConfigEntry)) (st st' : Sorted),
    ((read ++ entries).map Prod.fst).Nodup → SortedAs factor line read st →
    entries.foldlM (sortEntry source factor line broker) st = .ok st' →
    SortedAs factor line (read ++ entries) st' := by
  intro entries
  induction entries with
  | nil =>
      intro read st st' _ sorted h
      cases h
      rwa [List.append_nil]
  | cons e entries ih =>
      intro read st st' distinct sorted h
      rw [List.foldlM_cons] at h
      obtain ⟨next, first, rest⟩ := bind_eq_ok.mp h
      have regroup : read ++ e :: entries = (read ++ [e]) ++ entries := by simp
      rw [regroup] at distinct ⊢
      have fresh : e.1 ∉ read.map Prod.fst := by
        have front := (List.nodup_append.mp (List.map_append ▸ distinct)).1
        rw [List.map_append] at front
        intro member
        exact (List.nodup_append.mp front).2.2 e.1 member e.1 (by simp) rfl
      exact ih _ next st' distinct (sorted.step fresh first) rest

/-- The model records this entry for the topic. -/
def TopicConfiguration.Records (topic : TopicConfiguration) (key : String) (entry : ConfigEntry) :
    Prop :=
  ∃ entries, topic.entries = some entries ∧ entries[key]? = some entry

theorem records_iff (topic : TopicConfiguration) (key : String) (entry : ConfigEntry) :
    topic.Records key entry ↔
      (key, entry) ∈ topic.recorded := by
  unfold TopicConfiguration.Records TopicConfiguration.recorded
  cases topic.entries with
  | none => simp
  | some entries => simp [ExtTreeMap.mem_toList_iff_getElem?_eq_some]

theorem distinct_entries (topic : TopicConfiguration) :
    (topic.recorded.map Prod.fst).Nodup := by
  unfold TopicConfiguration.recorded
  cases topic.entries with
  | none => exact List.nodup_nil
  | some entries =>
      change (entries.toList.map Prod.fst).Nodup
      rw [ExtTreeMap.map_fst_toList_eq_keys]
      exact TreeMaps.keys_nodup entries

variable {inputs : PlanInputs} {topic : TopicConfiguration} {owner : Option TopicOwner}
  {route : String} {d : TopicDesired}

theorem desiredFor_ok (h : desiredFor source topic owner route inputs = .ok d) :
    ∃ st, SortedAs d.replicationFactor.target inputs.line
        topic.recorded st ∧
      d.replicationFactor = replicationChoice topic.replicationFactor inputs.brokers
        inputs.defaultReplicationFactor ∧
      d.duringRestore = TreeMaps.ofEntries (duringRestore inputs.line) ∧
      d.atCreation = (if route = ROUTE_DESIRED_STATE_EXPORT then ∅ else st.atCreation) ∧
      d.deferred = (if route = ROUTE_DESIRED_STATE_EXPORT then st.deferred ∪ st.atCreation
        else st.deferred) ∧
      d.notApplied = st.notApplied ∧ d.route = route ∧ d.owner = owner := by
  unfold desiredFor at h
  obtain ⟨st, sorted, h⟩ := bind_eq_ok.mp h
  cases h
  refine ⟨st, ?_, rfl, rfl, rfl, rfl, rfl, rfl, rfl⟩
  have distinct := distinct_entries topic
  rw [← List.nil_append topic.recorded] at distinct
  have run := SortedAs.run _ [] {} st distinct sortedAs_nil sorted
  rwa [List.nil_append] at run

theorem afterVerification_of_stage {line : TargetLine} {key : String} {entry : ConfigEntry}
    (stage : entryStage line key entry = .afterVerification) :
    key ∈ AFTER_VERIFICATION_KEYS := by
  unfold entryStage stageOf at stage
  simp only at stage
  split_ifs at stage with _ deferred _ deferred
  · exact List.contains_iff_mem.mp deferred
  · exact List.contains_iff_mem.mp deferred

theorem not_afterVerification_of_stage {line : TargetLine} {key : String} {entry : ConfigEntry}
    (stage : entryStage line key entry = .atCreation) : key ∉ AFTER_VERIFICATION_KEYS := by
  unfold entryStage stageOf at stage
  simp only at stage
  split_ifs at stage with _ deferred _ deferred
  · exact fun member => deferred (List.contains_iff_mem.mpr member)
  · exact fun member => deferred (List.contains_iff_mem.mpr member)

theorem SortedAs.atCreation_waits {read : List (String × ConfigEntry)}
    (sorted : SortedAs factor line read st) {key : String} (waits : key ∈ AFTER_VERIFICATION_KEYS) :
    st.atCreation[key]? = none := by
  cases held : st.atCreation[key]? with
  | none => rfl
  | some v =>
      obtain ⟨entry, -, -, stage, -⟩ := (sorted.atCreation key v).mp held
      exact absurd waits (not_afterVerification_of_stage stage)

theorem SortedAs.together {read : List (String × ConfigEntry)}
    (sorted : SortedAs factor line read st) (k v : String) :
    (st.atCreation[k]? = some v ∨ st.deferred[k]? = some v) ↔
      ∃ entry value, (k, entry) ∈ read ∧ (∀ reason, entryStage line k entry ≠ .never reason) ∧
        entry.value = some value ∧ v = appliedValue factor k value := by
  rw [sorted.atCreation, sorted.deferred]
  constructor
  · rintro (⟨entry, value, member, stage, held, eq⟩ | ⟨entry, member, stage, held⟩)
    · refine ⟨entry, value, member, ?_, held, eq⟩
      simp [stage]
    · refine ⟨entry, v, member, by simp [stage], held, ?_⟩
      have other : k ≠ MIN_INSYNC_REPLICAS := by
        rintro rfl
        exact absurd (afterVerification_of_stage stage) (by decide)
      rw [appliedValue_eq, if_neg other]
  · rintro ⟨entry, value, member, applies, held, eq⟩
    cases stage : entryStage line k entry with
    | atCreation => exact .inl ⟨entry, value, member, stage, held, eq⟩
    | afterVerification =>
        right
        have other : k ≠ MIN_INSYNC_REPLICAS := by
          rintro rfl
          exact absurd (afterVerification_of_stage stage) (by decide)
        rw [appliedValue_eq, if_neg other] at eq
        exact ⟨entry, member, stage, by rw [held, eq]⟩
    | never reason => exact absurd stage (applies reason)

theorem SortedAs.apart {read : List (String × ConfigEntry)}
    (sorted : SortedAs factor line read st) {k v v' : String} (created : st.atCreation[k]? = some v)
    (deferred : st.deferred[k]? = some v') : False := by
  obtain ⟨entry, -, -, stage, -⟩ := (sorted.atCreation k v).mp created
  obtain ⟨entry', -, stage', -⟩ := (sorted.deferred k v').mp deferred
  exact not_afterVerification_of_stage stage (afterVerification_of_stage stage')

theorem SortedAs.perm {read : List (String × ConfigEntry)} (sorted : SortedAs factor line read st)
    (distinct : (read.map Prod.fst).Nodup) :
    (st.atCreation.keys ++ st.deferred.keys ++ st.notApplied.map NotApplied.key).Perm
      (read.map Prod.fst) := by
  have left : (st.notApplied.map NotApplied.key).Nodup := by
    rw [sorted.notApplied]
    exact distinct.sublist (List.filter_sublist.map _)
  have memLeft (k : String) : k ∈ st.notApplied.map NotApplied.key ↔
      ∃ entry, (k, entry) ∈ read ∧ (entryStage line k entry).leaves entry = true := by
    rw [sorted.notApplied, List.mem_map]
    constructor
    · rintro ⟨e, member, rfl⟩
      exact ⟨e.2, (List.mem_filter.mp member).1, (List.mem_filter.mp member).2⟩
    · rintro ⟨entry, member, leaves⟩
      exact ⟨(k, entry), List.mem_filter.mpr ⟨member, leaves⟩, rfl⟩
  have one {k : String} {e e' : ConfigEntry} (member : (k, e) ∈ read) (member' : (k, e') ∈ read) :
      e = e' := (Prod.mk.inj (List.inj_on_of_nodup_map distinct member member' rfl)).2
  have applied {k v : String} (held : st.atCreation[k]? = some v ∨ st.deferred[k]? = some v)
      (listed : k ∈ st.notApplied.map NotApplied.key) : False := by
    obtain ⟨entry, value, member, applies, some, -⟩ := (sorted.together k v).mp held
    obtain ⟨entry', member', leaves⟩ := (memLeft k).mp listed
    cases one member member'
    cases stage : entryStage line k entry with
    | never reason => exact applies reason stage
    | atCreation => rw [stage] at leaves; simp [Stage.leaves, some] at leaves
    | afterVerification => rw [stage] at leaves; simp [Stage.leaves, some] at leaves
  apply (List.perm_ext_iff_of_nodup _ distinct).mpr
  · intro k
    rw [List.mem_append, List.mem_append, TreeMaps.mem_keys_iff, TreeMaps.mem_keys_iff, memLeft, List.mem_map]
    constructor
    · rintro ((⟨v, held⟩ | ⟨v, held⟩) | ⟨entry, member, -⟩)
      · obtain ⟨entry, -, member, -⟩ := (sorted.atCreation k v).mp held
        exact ⟨(k, entry), member, rfl⟩
      · obtain ⟨entry, member, -⟩ := (sorted.deferred k v).mp held
        exact ⟨(k, entry), member, rfl⟩
      · exact ⟨(k, entry), member, rfl⟩
    · rintro ⟨⟨k', entry⟩, member, rfl⟩
      cases value : entry.value with
      | none =>
          refine .inr ⟨entry, member, ?_⟩
          cases entryStage line k' entry <;> simp [Stage.leaves, value]
      | some v =>
          cases stage : entryStage line k' entry with
          | never reason => exact .inr ⟨entry, member, by rw [stage]; rfl⟩
          | atCreation =>
              exact .inl (.inl ⟨_, (sorted.atCreation k' _).mpr
                ⟨entry, v, member, stage, value, rfl⟩⟩)
          | afterVerification =>
              exact .inl (.inr ⟨v, (sorted.deferred k' v).mpr ⟨entry, member, stage, value⟩⟩)
  · apply List.nodup_append.mpr
    refine ⟨List.nodup_append.mpr ⟨TreeMaps.keys_nodup _, TreeMaps.keys_nodup _, ?_⟩, left, ?_⟩
    · rintro k created _ deferred rfl
      obtain ⟨v, created⟩ := (TreeMaps.mem_keys_iff _ k).mp created
      obtain ⟨v', deferred⟩ := (TreeMaps.mem_keys_iff _ k).mp deferred
      exact sorted.apart created deferred
    · rintro k held _ listed rfl
      rcases List.mem_append.mp held with created | deferred
      · obtain ⟨v, created⟩ := (TreeMaps.mem_keys_iff _ k).mp created
        exact applied (.inl created) listed
      · obtain ⟨v, deferred⟩ := (TreeMaps.mem_keys_iff _ k).mp deferred
        exact applied (.inr deferred) listed

theorem route_of_admitted {owned detectionRan : Bool}
    (admitted : ROUTES.contains (applyRoute owned detectionRan) = true) :
    (applyRoute owned detectionRan = ROUTE_DESIRED_STATE_EXPORT ↔ owned = true) := by
  cases owned <;> cases detectionRan <;> simp_all [applyRoute] <;> decide

/-- The topic is somebody else's: the plan says so, or the backup recorded it. -/
def PlanInputs.Owned (inputs : PlanInputs) (source : String) (topic : TopicConfiguration) : Prop :=
  (∃ o ∈ inputs.plan.owners.getD [], o.topic = source) ∨ topic.owner.isSome = true

theorem planTopic_ok {model : ExtTreeMap String TopicConfiguration}
    (h : planTopic inputs model source = .ok d) :
    ∃ topic owner route, model[source]? = some topic ∧ ROUTES.contains route = true ∧
      (route = ROUTE_DESIRED_STATE_EXPORT ↔ inputs.Owned source topic) ∧
      desiredFor source topic owner route inputs = .ok d := by
  unfold planTopic at h
  cases held : model[source]? with
  | none =>
      rw [held] at h
      cases h
  | some topic =>
      simp only [held] at h
      obtain ⟨_, admitted, h⟩ := bind_eq_ok.mp h
      have admitted := refuseIf_eq_ok.mp admitted
      simp only [Bool.not_eq_true', Bool.not_eq_false] at admitted
      refine ⟨topic, _, _, rfl, admitted, ?_, h⟩
      rw [route_of_admitted admitted, Option.isSome_or, Bool.or_eq_true, Option.isSome_map,
        List.find?_isSome]
      unfold PlanInputs.Owned
      simp

/-- No two source topics are mapped to one target. -/
def PlanInputs.Injective (inputs : PlanInputs) : Prop :=
  ∀ source source' target : String, inputs.mapping[source]? = some target →
    inputs.mapping[source']? = some target → source = source'

theorem planTopics_ok {topics : ExtTreeMap String TopicDesired}
    (planned : planTopics inputs = .ok topics)
    (injective : inputs.Injective) :
    ∃ model, inputs.model = some model ∧
      (∀ source target, inputs.mapping[source]? = some target →
        ∃ d, planTopic inputs model source = .ok d ∧ topics[target]? = some d) ∧
      ∀ target d, topics[target]? = some d →
        ∃ source, inputs.mapping[source]? = some target ∧ planTopic inputs model source = .ok d := by
  unfold planTopics at planned
  cases held : inputs.model with
  | none =>
      rw [held] at planned
      cases planned
  | some model =>
      simp only [held] at planned
      cases refused : inputs.plan.owners.bind
          fun owners => refuseDeclarations owners inputs.mapping.keys with
      | some why =>
          simp only [refused] at planned
          cases planned
      | none =>
          simp only [refused] at planned
          have distinct : (inputs.mapping.toList.map Prod.snd).Nodup := by
            apply List.Nodup.map_on _ _
            · intro e member e' member' same
              have first := ExtTreeMap.mem_toList_iff_getElem?_eq_some.mp member
              have second := ExtTreeMap.mem_toList_iff_getElem?_eq_some.mp member'
              exact Prod.ext (injective e.1 e'.1 e.2 first (same ▸ second)) same
            · have keys := TreeMaps.keys_nodup inputs.mapping
              rw [← ExtTreeMap.map_fst_toList_eq_keys] at keys
              exact List.Nodup.of_map Prod.fst keys
          obtain ⟨inside, outside⟩ := TreeMaps.foldlM_insert (planTopic inputs model) _ ∅ topics
            distinct planned
          refine ⟨model, rfl, ?_, ?_⟩
          · intro source target mapped
            exact inside (source, target) (ExtTreeMap.mem_toList_iff_getElem?_eq_some.mpr mapped)
          · intro target d found
            by_cases member : target ∈ inputs.mapping.toList.map Prod.snd
            · obtain ⟨e, listed, rfl⟩ := List.mem_map.mp member
              obtain ⟨d', value, there⟩ := inside e listed
              rw [found] at there
              cases there
              exact ⟨e.1, ExtTreeMap.mem_toList_iff_getElem?_eq_some.mp listed, value⟩
            · rw [outside target member] at found
              simp at found

/-- Every recorded entry but a secret has its value. -/
def PlanInputs.Valued (inputs : PlanInputs) : Prop :=
  ∀ (model : ExtTreeMap String TopicConfiguration) (source : String) (topic : TopicConfiguration)
    (key : String) (entry : ConfigEntry), inputs.model = some model → model[source]? = some topic →
    topic.Records key entry → entry.portability ≠ SECRET → entry.value.isSome = true

theorem target_pos (source brokers : Option Nat) (default_ : Int) :
    (replicationChoice source brokers default_).target ≠ 0 := by
  unfold replicationChoice
  cases recorded : source.filter fun f => f ≥ 1 with
  | none =>
      simp only
      omega
  | some factor =>
      have positive := (Option.filter_eq_some_iff.mp recorded).2
      cases known : brokers.filter fun b => b ≥ 1 with
      | none =>
          simp only [decide_eq_true_eq] at positive ⊢
          omega
      | some b =>
          have some_ := (Option.filter_eq_some_iff.mp known).2
          simp only [decide_eq_true_eq] at positive some_ ⊢
          split <;> simp only <;> omega

theorem reason_known (source brokers : Option Nat) (default_ : Int) :
    RF_REASONS.contains (replicationChoice source brokers default_).reason = true := by
  unfold replicationChoice
  split
  · split
    · split <;> rfl
    · rfl
  · rfl

theorem duringRestore_functional (line : TargetLine) :
    ∀ e ∈ duringRestore line, ∀ e' ∈ duringRestore line, e.1 = e'.1 → e.2 = e'.2 := by
  cases line <;> decide

theorem duringRestore_waits (line : TargetLine) :
    ∀ e ∈ duringRestore line, e.1 ∈ AFTER_VERIFICATION_KEYS := by
  cases line <;> decide

theorem desired_once (h : desiredFor source topic owner route inputs = .ok d) :
    (d.atCreation.keys ++ d.deferred.keys ++ d.notApplied.map NotApplied.key).Perm
      (topic.recorded.map Prod.fst) := by
  obtain ⟨st, sorted, -, -, created, deferred, left, -, -⟩ := desiredFor_ok h
  have whole := sorted.perm (distinct_entries topic)
  rw [created, deferred, left]
  by_cases exported : route = ROUTE_DESIRED_STATE_EXPORT
  · rw [if_pos exported, if_pos exported]
    have moved := TreeMaps.keys_union_perm st.deferred st.atCreation
      fun _ _ _ late early => sorted.apart early late
    have none : (∅ : ExtTreeMap String String).keys = [] := rfl
    rw [none, List.nil_append]
    exact ((moved.trans List.perm_append_comm).append_right _).trans whole
  · rw [if_neg exported, if_neg exported]
    exact whole

theorem desired_waits (h : desiredFor source topic owner route inputs = .ok d) {key : String}
    (waits : key ∈ AFTER_VERIFICATION_KEYS) : d.atCreation[key]? = none := by
  obtain ⟨st, sorted, -, -, created, -⟩ := desiredFor_ok h
  rw [created]
  split
  · simp
  · exact sorted.atCreation_waits waits

theorem created_waiting (h : desiredFor source topic owner route inputs = .ok d) {key : String}
    (waits : key ∈ AFTER_VERIFICATION_KEYS) (v : String) :
    d.createdOverrides[key]? = some v ↔ (key, v) ∈ duringRestore inputs.line := by
  obtain ⟨st, -, -, during, -⟩ := desiredFor_ok h
  unfold TopicDesired.createdOverrides
  rw [ExtTreeMap.getElem?_union, desired_waits h waits, Option.none_or, during]
  exact TreeMaps.getElem?_ofEntries _ (duringRestore_functional inputs.line) key v

theorem desired_final (h : desiredFor source topic owner route inputs = .ok d) (k v : String) :
    d.finalOverrides[k]? = some v ↔ ∃ entry value, topic.Records k entry ∧
      (∀ reason, entryStage inputs.line k entry ≠ .never reason) ∧ entry.value = some value ∧
      v = appliedValue d.replicationFactor.target k value := by
  obtain ⟨st, sorted, -, -, created, deferred, -⟩ := desiredFor_ok h
  simp only [records_iff]
  rw [← sorted.together k v]
  unfold TopicDesired.finalOverrides
  rw [created, deferred]
  by_cases exported : route = ROUTE_DESIRED_STATE_EXPORT
  · rw [if_pos exported, if_pos exported, ExtTreeMap.getElem?_union]
    have empty : (∅ : ExtTreeMap String String)[k]? = none := by simp
    rw [empty, Option.or_none, TreeMaps.getElem?_union_iff fun _ _ late early =>
      sorted.apart early late]
    exact or_comm
  · rw [if_neg exported, if_neg exported]
    exact TreeMaps.getElem?_union_iff fun _ _ early late => sorted.apart early late

theorem desired_secrets (h : desiredFor source topic owner route inputs = .ok d)
    (valued : ∀ key entry, topic.Records key entry → entry.portability ≠ SECRET →
      entry.value.isSome = true) :
    ∀ left ∈ d.notApplied, (left.portability == SECRET) = !left.value.isSome := by
  obtain ⟨st, sorted, -, -, -, -, listed, -⟩ := desiredFor_ok h
  intro left member
  rw [listed] at member
  obtain ⟨entry, read, class_, value⟩ := sorted.values left member
  rw [class_, value]
  by_cases secret : entry.portability = SECRET
  · rw [if_pos secret, beq_iff_eq.mpr secret]
    rfl
  · rw [if_neg secret, valued left.key entry ((records_iff _ _ _).mpr read) secret]
    exact beq_eq_false_iff_ne.mpr secret

theorem exported_alone (h : desiredFor source topic owner ROUTE_DESIRED_STATE_EXPORT inputs = .ok d) :
    d.atCreation = ∅ ∧ ∀ now overrides, stepFor d now ≠ .alter overrides := by
  obtain ⟨st, -, -, -, created, -, -, route, -⟩ := desiredFor_ok h
  refine ⟨created.trans (if_pos rfl), ?_⟩
  intro now overrides altered
  unfold stepFor at altered
  rw [if_pos route] at altered
  cases altered

/-- What a planned topic keeps of its source and what it holds back. -/
structure TwoStaged (inputs : PlanInputs) (source : String) (topic : TopicConfiguration)
    (d : TopicDesired) : Prop where
  /-- The recorded entries, each in one of the three and once. -/
  once : (d.atCreation.keys ++ d.deferred.keys ++ d.notApplied.map NotApplied.key).Perm
    (topic.recorded.map Prod.fst)
  /-- The create has every during-restore setting as it is, … -/
  created : ∀ e ∈ duringRestore inputs.line, d.createdOverrides[e.1]? = some e.2
  /-- … and no other setting that must wait. -/
  waits : ∀ key ∈ AFTER_VERIFICATION_KEYS, key ∉ (duringRestore inputs.line).map Prod.fst →
    d.createdOverrides[key]? = none
  final : ∀ key v, d.finalOverrides[key]? = some v ↔ ∃ entry value, topic.Records key entry ∧
    (∀ reason, entryStage inputs.line key entry ≠ .never reason) ∧ entry.value = some value ∧
    v = appliedValue d.replicationFactor.target key value
  owned : inputs.Owned source topic →
    d.atCreation = ∅ ∧ ∀ now overrides, stepFor d now ≠ .alter overrides

theorem desired_twoStaged (exported : route = ROUTE_DESIRED_STATE_EXPORT ↔ inputs.Owned source topic)
    (h : desiredFor source topic owner route inputs = .ok d) :
    TwoStaged inputs source topic d where
  once := desired_once h
  created := fun e member =>
    (created_waiting h (duringRestore_waits inputs.line e member) e.2).mpr member
  waits := by
    intro key waits other
    cases held : d.createdOverrides[key]? with
    | none => rfl
    | some v =>
        have during := (created_waiting h waits v).mp held
        exact absurd (List.mem_map_of_mem during) other
  final := desired_final h
  owned := by
    intro owned
    obtain rfl := exported.mpr owned
    exact exported_alone h

theorem planned_block {block : TopicConfigurationBlock} (valued : inputs.Valued)
    (injective : inputs.Injective) (planned : planTopics inputs = .ok block.topics)
    (transition : block.transition ∈ TRANSITIONS)
    (bound : block.desiredState.isSome = true ↔
      ∃ (target : String) (d : TopicDesired), block.topics[target]? = some d ∧
        d.route = ROUTE_DESIRED_STATE_EXPORT)
    (digest : ∀ ref, block.desiredState = some ref → isDigest ref.sha256 = true) :
    blockFault block = none := by
  obtain ⟨model, recorded, -, each⟩ := planTopics_ok planned injective
  have fact {d : TopicDesired} (member : d ∈ block.topics.toList.map Prod.snd) :
      ∃ (target source route : String) (topic : TopicConfiguration) (owner : Option TopicOwner),
        block.topics[target]? = some d ∧ model[source]? = some topic ∧
        ROUTES.contains route = true ∧ desiredFor source topic owner route inputs = .ok d := by
    obtain ⟨e, listed, rfl⟩ := List.mem_map.mp member
    have there := ExtTreeMap.mem_toList_iff_getElem?_eq_some.mp listed
    obtain ⟨source, -, plan⟩ := each e.1 e.2 there
    obtain ⟨topic, owner, route, held, admitted, -, desired⟩ := planTopic_ok plan
    exact ⟨e.1, source, route, topic, owner, there, held, admitted, desired⟩
  have shape : ¬ (block.topics.toList.map Prod.snd).any (fun t => !ROUTES.contains t.route ||
      !RF_REASONS.contains t.replicationFactor.reason || t.replicationFactor.target == 0) := by
    rw [List.any_eq_true]
    rintro ⟨d, member, bad⟩
    obtain ⟨_, _, route, topic, _, -, -, admitted, desired⟩ := fact member
    obtain ⟨_, -, choice, -, -, -, -, at_, -⟩ := desiredFor_ok desired
    have positive := target_pos topic.replicationFactor inputs.brokers
      inputs.defaultReplicationFactor
    rw [at_, admitted, choice, reason_known] at bad
    simp [positive] at bad
  have exported : (block.topics.toList.map Prod.snd).any
      (fun t => t.route == ROUTE_DESIRED_STATE_EXPORT) = block.desiredState.isSome := by
    rw [Bool.eq_iff_iff, bound, List.any_eq_true]
    constructor
    · rintro ⟨d, member, export_⟩
      obtain ⟨target, -, -, -, -, there, -⟩ := fact member
      exact ⟨target, d, there, beq_iff_eq.mp export_⟩
    · rintro ⟨target, d, there, export_⟩
      have member := List.mem_map_of_mem (f := Prod.snd)
        (ExtTreeMap.mem_toList_iff_getElem?_eq_some.mpr there)
      exact ⟨d, member, beq_iff_eq.mpr export_⟩
  have shaped : (block.desiredState.all fun ref => isDigest ref.sha256) = true := by
    cases held : block.desiredState with
    | none => rfl
    | some ref => exact digest ref held
  have secrets : ¬ (block.topics.toList.map Prod.snd).any (fun t => t.notApplied.any fun n =>
      (n.portability == SECRET) == n.value.isSome) := by
    rw [List.any_eq_true]
    rintro ⟨d, member, bad⟩
    obtain ⟨_, source, _, topic, _, -, held, -, desired⟩ := fact member
    obtain ⟨left, listed, bad⟩ := List.any_eq_true.mp bad
    have right := desired_secrets desired (fun key entry => valued model source topic key entry
      recorded held) left listed
    rw [right] at bad
    cases value : left.value <;> rw [value] at bad <;> cases bad
  unfold blockFault
  simp only [exported, shaped, List.contains_iff_mem.mpr transition]
  rw [if_neg (by simp), if_neg shape, if_neg (by simp), if_neg secrets]

/-- A plan loses no recorded entry, and nothing of it bites before the verdict. -/
theorem stages_lose_nothing {topics : ExtTreeMap String TopicDesired}
    (planned : planTopics inputs = .ok topics) (injective : inputs.Injective)
    (valued : inputs.Valued) :
    (∃ model, inputs.model = some model ∧
      ∀ source target, inputs.mapping[source]? = some target →
        ∃ topic d, model[source]? = some topic ∧ topics[target]? = some d ∧
          TwoStaged inputs source topic d) ∧
      ∀ block : TopicConfigurationBlock, block.topics = topics → block.transition ∈ TRANSITIONS →
        (block.desiredState.isSome = true ↔
          ∃ (target : String) (d : TopicDesired), topics[target]? = some d ∧
            d.route = ROUTE_DESIRED_STATE_EXPORT) →
        (∀ ref, block.desiredState = some ref → isDigest ref.sha256 = true) →
        blockFault block = none := by
  constructor
  · obtain ⟨model, recorded, each, -⟩ := planTopics_ok planned injective
    refine ⟨model, recorded, ?_⟩
    intro source target mapped
    obtain ⟨d, plan, there⟩ := each source target mapped
    obtain ⟨topic, owner, route, held, -, exported, desired⟩ := planTopic_ok plan
    exact ⟨topic, d, held, there, desired_twoStaged exported desired⟩
  · rintro block rfl transition bound digest
    exact planned_block valued injective planned transition bound digest

theorem injective_of_list (listed : ∀ e ∈ inputs.mapping.toList, ∀ e' ∈ inputs.mapping.toList,
    e.2 = e'.2 → e.1 = e'.1) : inputs.Injective := by
  intro source source' target held held'
  exact listed _ (ExtTreeMap.mem_toList_iff_getElem?_eq_some.mpr held) _
    (ExtTreeMap.mem_toList_iff_getElem?_eq_some.mpr held') rfl

theorem valued_of_list (listed : ∀ e ∈ (inputs.model.getD ∅).toList, ∀ recorded ∈ e.2.recorded,
    recorded.2.portability ≠ SECRET → recorded.2.value.isSome = true) : inputs.Valued := by
  intro model source topic key entry given held recorded
  rw [given] at listed
  exact listed _ (ExtTreeMap.mem_toList_iff_getElem?_eq_some.mpr held) _
    ((records_iff _ _ _).mp recorded)

def sampleTopic (factor : Nat) (entries : List (String × ConfigEntry)) : TopicConfiguration where
  partitions := some 6
  replicationFactor := some factor
  entries := some (TreeMaps.ofEntries entries)
  owner := none

/-- A topic somebody owns beside one that is Kafka's own, on three brokers. -/
def sampleInputs (minInsync : String) : PlanInputs where
  plan := { transition := .afterVerification, owners := some [⟨"invoices", "external", "terraform"⟩] }
  model := some (TreeMaps.ofEntries
    [("invoices", sampleTopic 3 [("retention.ms", ⟨some "60000", TOPIC_OVERRIDE_SOURCE, PORTABLE⟩)]),
      ("orders", sampleTopic 5
        [("cleanup.policy", ⟨some "compact", TOPIC_OVERRIDE_SOURCE, PORTABLE⟩),
          ("confluent.key", ⟨none, TOPIC_OVERRIDE_SOURCE, SECRET⟩),
          (MIN_INSYNC_REPLICAS, ⟨some minInsync, TOPIC_OVERRIDE_SOURCE, PORTABLE⟩),
          ("segment.bytes", ⟨some "1024", "defaultConfig", INHERITED⟩)])])
  ownerDetection := []
  mapping := TreeMaps.ofEntries [("invoices", "invoices-copy"), ("orders", "orders-copy")]
  line := .kafka4
  brokers := some 3
  defaultReplicationFactor := 1
  broker := ∅

theorem sample_is_planned : ∃ topics, planTopics (sampleInputs "4") = .ok topics ∧
    (∃ model, (sampleInputs "4").model = some model ∧
      ∀ source target, (sampleInputs "4").mapping[source]? = some target →
        ∃ topic d, model[source]? = some topic ∧ topics[target]? = some d ∧
          TwoStaged (sampleInputs "4") source topic d) := by
  have ok : (planTopics (sampleInputs "4")).toOption.isSome = true := by decide +kernel
  obtain ⟨topics, planned⟩ := Option.isSome_iff_exists.mp ok
  have planned := (toOption_eq_some _ _).mp planned
  have lossless := stages_lose_nothing planned (injective_of_list (by decide +kernel))
    (valued_of_list (by decide +kernel))
  exact ⟨topics, planned, lossless.1⟩

/-- A number no `u32` holds is larger than the factor and is left as it is. -/
theorem wide_minInsync_stays : (sampleInputs "4294967296").Injective ∧
    (sampleInputs "4294967296").Valued ∧
    ∃ (topics : ExtTreeMap String TopicDesired) (d : TopicDesired) (value : String) (n : Nat),
      planTopics (sampleInputs "4294967296") = .ok topics ∧ topics["orders-copy"]? = some d ∧
        d.finalOverrides[MIN_INSYNC_REPLICAS]? = some value ∧ value = toString n ∧
        d.replicationFactor.target < n := by
  refine ⟨injective_of_list (by decide +kernel), valued_of_list (by decide +kernel), ?_⟩
  have ok : ((planTopics (sampleInputs "4294967296")).toOption.bind fun topics =>
      topics["orders-copy"]?.bind fun d => d.finalOverrides[MIN_INSYNC_REPLICAS]?.map fun value =>
        (value, d.replicationFactor.target)) = some ("4294967296", 3) := by decide +kernel
  obtain ⟨topics, planned, ok⟩ := Option.bind_eq_some_iff.mp ok
  obtain ⟨d, held, ok⟩ := Option.bind_eq_some_iff.mp ok
  obtain ⟨value, final, ok⟩ := Option.map_eq_some_iff.mp ok
  obtain ⟨rfl, factor⟩ := Prod.mk.inj ok
  refine ⟨topics, d, _, 4294967296, (toOption_eq_some _ _).mp planned, held, final, ?_, ?_⟩
  · decide +kernel
  · rw [factor]
    decide

end Logweir.Topics
