import Logweir.Scorecard.Document

/-!
# What parity labels

Which entries the four lists of a parity check hold, as facts about what was read of each mapped
topic, and when a document may carry them (NR-1 to NR-5).
-/

set_option autoImplicit false

namespace Logweir.Scored

open Logweir.Drill Logweir.Results Logweir.Text
open Logweir.Sampled (Doubles)

theorem afterSeparator_append (key : List Char) : ∀ topic : List Char,
    afterSeparator (topic ++ ':' :: ' ' :: key) = some ((afterSeparator key).getD key) := by
  intro topic
  induction topic with
  | nil =>
      rw [List.nil_append, afterSeparator]
      have space : afterSeparator (' ' :: key) = afterSeparator key := by
        rw [afterSeparator]
        intro rest same
        cases same
      rw [space]
  | cons c topic ih =>
      rw [List.cons_append]
      generalize same : topic ++ ':' :: ' ' :: key = rest at ih ⊢
      cases rest with
      | nil => cases topic <;> cases same
      | cons d rest =>
          by_cases separates : c = ':' ∧ d = ' '
          · obtain ⟨rfl, rfl⟩ := separates
            rw [afterSeparator, ih]
            rfl
          · rw [afterSeparator, ih]
            intro rest' colon space
            exact separates ⟨colon, (List.cons.inj space).1⟩

theorem parityKey_entry (topic key : String) : parityKey (topic ++ ": " ++ key) = parityKey key := by
  have chars : (topic ++ ": " ++ key).toList = topic.toList ++ ':' :: ' ' :: key.toList := by
    simp [String.toList_append]
  unfold parityKey
  rw [chars, afterSeparator_append]
  cases found : afterSeparator key.toList with
  | none => simp [String.ofList_toList]
  | some rest => simp

theorem afterSeparator_suffix : ∀ {l key : List Char}, afterSeparator l = some key → key <:+ l := by
  intro l
  induction l using afterSeparator.induct with
  | case1 rest ih =>
      intro key found
      rw [afterSeparator, Option.some.injEq] at found
      cases later : afterSeparator (' ' :: rest) with
      | none =>
          rw [later] at found
          cases found
          exact (List.suffix_cons _ _).trans (List.suffix_cons _ _)
      | some inner =>
          rw [later] at found
          cases found
          exact (ih later).trans (List.suffix_cons _ _)
  | case2 c rest other ih =>
      intro key found
      rw [afterSeparator] at found
      · exact (ih found).trans (List.suffix_cons _ _)
      · exact other
  | case3 =>
      intro key found
      cases found

theorem parityKey_closed (text : String) : parityKey (text ++ ")") ∉ restoreDecidedSettings := by
  have closed : ∀ key : List Char, key <:+ (text ++ ")").toList → key ≠ [] →
      key.getLast? = some ')' := by
    intro key suffix some_
    obtain ⟨front, same⟩ := suffix
    have last := congrArg List.getLast? same
    rw [String.toList_append, List.getLast?_append_of_ne_nil _ some_] at last
    rw [last]
    simp
  intro decided
  have key : (parityKey (text ++ ")")).toList <:+ (text ++ ")").toList := by
    unfold parityKey
    cases found : afterSeparator (text ++ ")").toList with
    | none => exact List.suffix_rfl
    | some key =>
        rw [Option.map_some, Option.getD_some, String.toList_ofList]
        exact afterSeparator_suffix found
  have nothing : ∀ setting ∈ restoreDecidedSettings,
      setting.toList ≠ [] ∧ setting.toList.getLast? ≠ some ')' := by decide
  obtain ⟨some_, open_⟩ := nothing _ decided
  exact open_ (closed _ key some_)

namespace MappedTopic

variable (m : MappedTopic)

/-- A recorded setting that the target does not have. -/
def Differs (key : String) : Prop :=
  ∃ value, m.sourceCfg[key]? = some value ∧ m.targetCfg[key]? ≠ some value

/-- A setting the restore decides that is not the source's. -/
def Deviates (key : String) : Prop :=
  (key ∈ decidedByTheRestore ∧ m.Differs key) ∨
    (key = partitionCount ∧ ∃ n, m.srcPartitions = some n ∧ 1 ≤ n ∧ n ≠ m.tgtPartitions) ∨
      (key = replicationFactor ∧ ∃ n, m.srcRf = some n ∧ 1 ≤ n ∧ n ≠ m.tgtRf)

theorem mem_differing {key : String} : key ∈ differing m.sourceCfg m.targetCfg ↔ m.Differs key := by
  unfold differing Differs
  rw [List.mem_map]
  constructor
  · rintro ⟨⟨k, value⟩, member, rfl⟩
    obtain ⟨held, differs⟩ := List.mem_filter.mp member
    exact ⟨value, Std.ExtTreeMap.mem_toList_iff_getElem?_eq_some.mp held, of_decide_eq_true differs⟩
  · rintro ⟨value, held, differs⟩
    exact ⟨(key, value), List.mem_filter.mpr
      ⟨Std.ExtTreeMap.mem_toList_iff_getElem?_eq_some.mpr held, decide_eq_true differs⟩, rfl⟩

theorem recorded_any {n : Option Int} {there : Int} :
    ((recorded n).any fun n => n ≠ there) = true ↔ ∃ k, n = some k ∧ 1 ≤ k ∧ k ≠ there := by
  cases n with
  | none => simp [recorded]
  | some k => by_cases some_ : 1 ≤ k <;> simp [recorded, some_]

theorem mem_byConstruction {key : String} :
    key ∈ byConstruction m.sourceCfg m.targetCfg m.srcPartitions m.tgtPartitions m.srcRf m.tgtRf ↔
      m.Deviates key := by
  have single : ∀ (c : Bool) (name : String),
      key ∈ (if c = true then [name] else []) ↔ key = name ∧ c = true := by
    intro c name
    cases c <;> simp
  unfold byConstruction sorted Deviates
  rw [List.mem_insertionSort, List.mem_append, List.mem_append, List.mem_filter, mem_differing,
    single, single, recorded_any, recorded_any, decide_eq_true_iff, or_assoc, and_comm (a := Differs _ _)]

theorem classes_newTopic : (m.classes .newTopic).intended = [] ∧
    (∀ key, key ∈ (m.classes .newTopic).notReconstructed ↔ m.Deviates key) ∧
    ∀ key, key ∈ (m.classes .newTopic).unexpected ↔
      (m.Differs key ∧ key ∉ decidedByTheRestore) ∨ m.Deviates key := by
  refine ⟨rfl, fun key => m.mem_byConstruction, fun key => ?_⟩
  change key ∈ sorted (_ ++ _) ↔ _
  rw [sorted, List.mem_insertionSort, List.mem_append, List.mem_filter, mem_differing,
    mem_byConstruction, decide_eq_true_iff]

theorem classes_scratch : (m.classes .scratch).notReconstructed = [] := rfl

end MappedTopic

section

variable {topics : List MappedTopic}

theorem notReconstructed_scratch :
    (joinParity (topics.map fun m => m.parity .scratch)).notReconstructed = some [] := by
  have nothing : (topics.map fun m => m.parity .scratch).flatMap
      (fun p => p.notReconstructed.getD []) = [] := by
    rw [List.flatMap_map, List.flatMap_eq_nil_iff]
    exact fun m _ => rfl
  unfold joinParity
  rw [nothing]
  rfl

/-- The settings a restore into new topics did not reconstruct. -/
def NotReconstructed (topics : List MappedTopic) (entry : String) : Prop :=
  ∃ m ∈ topics, ∃ key, m.Deviates key ∧ m.entry key = entry

theorem mem_notReconstructed {entry : String} :
    (∃ l, (joinParity (topics.map fun m => m.parity .newTopic)).notReconstructed = some l ∧
      entry ∈ l) ↔ NotReconstructed topics entry := by
  unfold joinParity NotReconstructed
  simp only [Option.some.injEq, exists_eq_left', sorted, List.mem_insertionSort, List.flatMap_map,
    List.mem_flatMap, MappedTopic.parity, Option.getD_some, List.mem_map]
  exact exists_congr fun m => and_congr_right fun _ => exists_congr fun key =>
    and_congr_left' (m.classes_newTopic.2.1 key)

theorem unexpected_of_key {m : MappedTopic} {key : String} (member : m ∈ topics)
    (held : (m.Differs key ∧ key ∉ decidedByTheRestore) ∨ m.Deviates key) :
    m.entry key ∈ (joinParity (topics.map fun m => m.parity .newTopic)).unexpectedDivergence := by
  unfold joinParity
  simp only [sorted, List.mem_insertionSort, List.flatMap_map, List.mem_flatMap, MappedTopic.parity]
  refine ⟨m, member, List.mem_append_left _ (List.mem_append_right _ (List.mem_map.mpr ⟨key, ?_, rfl⟩))⟩
  exact (m.classes_newTopic.2.2 key).mpr held

theorem key_of_unexpected {entry : String}
    (named : entry ∈ (joinParity (topics.map fun m => m.parity .newTopic)).unexpectedDivergence) :
    ∃ m ∈ topics,
      (∃ key, ((m.Differs key ∧ key ∉ decidedByTheRestore) ∨ m.Deviates key) ∧ m.entry key = entry) ∨
        ∃ what why, notAssessedTwin m.target what why = entry := by
  unfold joinParity at named
  simp only [sorted, List.mem_insertionSort, List.flatMap_map, List.mem_flatMap,
    MappedTopic.parity] at named
  obtain ⟨m, member, named⟩ := named
  refine ⟨m, member, ?_⟩
  rcases List.mem_append.mp named with named | unrecorded
  · rcases List.mem_append.mp named with unread | differing
    · obtain ⟨why, _, rfl⟩ := Option.map_eq_some_iff.mp (Option.mem_toList.mp unread)
      exact .inr ⟨_, why, rfl⟩
    · obtain ⟨key, differs, rfl⟩ := List.mem_map.mp differing
      exact .inl ⟨key, (m.classes_newTopic.2.2 key).mp differs, rfl⟩
  · obtain ⟨key, _, rfl⟩ := List.mem_map.mp unrecorded
    exact .inr ⟨key, _, rfl⟩

theorem intended_newTopic :
    (joinParity (topics.map fun m => m.parity .newTopic)).intentionallyDeviated = [] := by
  have nothing : (topics.map fun m => m.parity .newTopic).flatMap
      (fun p => p.intentionallyDeviated) = [] := by
    rw [List.flatMap_map, List.flatMap_eq_nil_iff]
    exact fun m _ => rfl
  unfold joinParity
  rw [nothing]
  rfl

theorem twin_undecided (topic what why : String) :
    parityKey (notAssessedTwin topic what why) ∉ restoreDecidedSettings := by
  unfold notAssessedTwin
  rw [parityKey_entry]
  exact parityKey_closed _

/-- A source setting that reads as one of the four is named as not reconstructed. -/
def SettingsNamed (mode : TargetMode) (topics : List MappedTopic) : Prop :=
  mode = .newTopic → ∀ m ∈ topics, ∀ key, m.Differs key → key ∉ decidedByTheRestore →
    parityKey key ∈ restoreDecidedSettings → NotReconstructed topics (m.entry key)

theorem settingsNamed_iff {l : List String}
    (carried : (joinParity (topics.map fun m => m.parity .newTopic)).notReconstructed = some l) :
    SettingsNamed .newTopic topics ↔
      ∀ e ∈ (joinParity (topics.map fun m => m.parity .newTopic)).unexpectedDivergence,
        parityKey e ∈ restoreDecidedSettings → e ∈ l := by
  have named : ∀ {e}, e ∈ l ↔ NotReconstructed topics e := fun {e} => by
    rw [← mem_notReconstructed, carried]
    simp
  constructor
  · intro settings e divergent decided
    obtain ⟨m, member, ⟨key, ⟨differs, other⟩ | deviates, rfl⟩ | ⟨what, why, rfl⟩⟩ :=
      key_of_unexpected divergent
    · rw [MappedTopic.entry, parityKey_entry] at decided
      exact named.mpr (settings rfl m member key differs other decided)
    · exact named.mpr ⟨m, member, key, deviates, rfl⟩
    · exact absurd decided (twin_undecided _ _ _)
  · intro all _ m member key differs other decided
    refine named.mp (all _ (unexpected_of_key member (.inl ⟨differs, other⟩)) ?_)
    rwa [MappedTopic.entry, parityKey_entry]

variable {D : Doubles} {sc : Scorecard D}

theorem parityArms_iff {l : List String}
    (defined : definesFormat1Minor sc.formatVersion notReconstructedSinceMinor)
    (carried : sc.topicParity.notReconstructed = some l) :
    parityArms sc = .ok () ↔
      (∀ e ∈ l, e ∈ sc.topicParity.unexpectedDivergence) ∧
        (∀ e ∈ l, e ∉ sc.topicParity.intentionallyDeviated) ∧
          (sc.mode = .newTopic → sc.topicParity.intentionallyDeviated = []) ∧
            (sc.mode = .newTopic → ∀ e ∈ sc.topicParity.unexpectedDivergence,
              parityKey e ∈ restoreDecidedSettings → e ∈ l) := by
  unfold parityArms
  rw [carried]
  simp only [seq_eq_ok, refuseIf_eq_ok, defined, List.any_eq_true, decide_eq_true_eq,
    Bool.and_eq_true, not_exists, not_and, not_not, ne_eq, reduceCtorEq, not_false_eq_true, true_and]

theorem parityArms_ok (defined : definesFormat1Minor sc.formatVersion notReconstructedSinceMinor)
    (labelled : sc.topicParity = joinParity (topics.map fun m => m.parity sc.mode)) :
    parityArms sc = .ok () ↔ SettingsNamed sc.mode topics := by
  cases mode : sc.mode with
  | scratch =>
      rw [mode] at labelled
      rw [parityArms_iff defined (labelled ▸ notReconstructed_scratch), mode]
      simp [SettingsNamed]
  | newTopic =>
      rw [mode] at labelled
      obtain ⟨l, carried⟩ : ∃ l, sc.topicParity.notReconstructed = some l := by
        rw [labelled]
        exact ⟨_, rfl⟩
      rw [parityArms_iff defined carried, mode, labelled, intended_newTopic]
      rw [labelled] at carried
      rw [settingsNamed_iff carried]
      refine ⟨fun arms => arms.2.2.2 rfl, fun decided => ⟨fun e member => ?_, fun _ _ none_ =>
        (List.not_mem_nil none_).elim, fun _ => rfl, fun _ => decided⟩⟩
      obtain ⟨m, held, key, deviates, rfl⟩ := mem_notReconstructed.mp ⟨l, carried, member⟩
      exact unexpected_of_key held (.inr deviates)

end

end Logweir.Scored
