import Logweir.Drill.Cleanup
import Logweir.Library.TreeMaps

/-!
# An interrupted restore, reconciled

`logweir::drill::reconcile`.  The record of what an interrupted run created is
split twice, by the plan's names and by the cleanup's ID rule, and the parts are
joined by name again.  The main result: nothing falls between the parts, and
what is verified is still the run's own.
-/

set_option autoImplicit false

namespace Logweir.Drill

open Std (ExtTreeMap)
open Logweir.Cleanup

inductive TargetMode where
  | scratch
  | newTopic
deriving DecidableEq, Repr

structure TopicNaming where
  namePrefix : String
deriving DecidableEq, Repr

structure DrillSpec where
  sourceTopics : List String
  mode : TargetMode
  topicNaming : Option TopicNaming
  topicMappingPrefix : String
  pointInTime : Option Int
  windowEnd : Int
deriving DecidableEq, Repr

structure TargetsRecord where
  runId : String
  planHash : String
  clusterId : String
  topics : List CreatedTopic
deriving DecidableEq, Repr

structure Kept where
  runId : String
  clusterId : String
  /-- Source topic to kept target topic. -/
  mapping : ExtTreeMap String String
  creation : TargetCreation
  leftOut : List (String × String)

inductive DrillError where
  | operational (detail : String)
deriving DecidableEq, Repr

inductive IntegrityResult where
  | pass
  | inPart
  | fail
deriving DecidableEq, Repr

structure Integrity where
  result : IntegrityResult
  partialReason : Option String
deriving DecidableEq, Repr

def namedWhy (topics : List (String × String)) : String :=
  String.intercalate ", " (topics.map fun t => t.1 ++ " (" ++ t.2 ++ ")")

def Kept.judge (kept : Kept) (integrity : Integrity) : Integrity :=
  if kept.leftOut.isEmpty ∨ integrity.result ≠ .pass then integrity
  else
    { integrity with
      result := .inPart
      partialReason := some
        ("the reconcile verified only the topics still the interrupted run's; left out: " ++
          namedWhy kept.leftOut) }

section

-- The recovery point as `%Y%m%dT%H%M%SZ`.
variable (compactUtc : Int → String)

def defaultTopicPrefix (pointInTime : Int) : String :=
  "restore-" ++ compactUtc pointInTime ++ "-"

def targetTopicPrefix (spec : DrillSpec) : String :=
  match spec.mode with
  | .scratch => spec.topicMappingPrefix
  | .newTopic =>
    match spec.topicNaming with
    | some naming => naming.namePrefix
    | none => defaultTopicPrefix compactUtc (spec.pointInTime.getD spec.windowEnd)

def mapped (spec : DrillSpec) : ExtTreeMap String String :=
  TreeMaps.ofEntries (spec.sourceTopics.map fun s => (targetTopicPrefix compactUtc spec ++ s, s))

def ours (spec : DrillSpec) (record : TargetsRecord) : TargetCreation where
  topics := record.topics.filter fun t => (mapped compactUtc spec).contains t.name
  lineageHeaders := LINEAGE_HEADERS_KEPT
  teardownAfterSeconds := none

def foreign (spec : DrillSpec) (record : TargetsRecord) : List CreatedTopic :=
  record.topics.filter fun t => !(mapped compactUtc spec).contains t.name

/-- Which recorded topics are still the run's; the inner error says why none is. -/
def kept (spec : DrillSpec) (record : TargetsRecord) (currentCluster : String)
    (current : ExtTreeMap String CurrentId) : Except DrillError (Except String Kept) :=
  if currentCluster ≠ record.clusterId then
    .ok (.error ("the target answers as cluster " ++ currentCluster ++ " and run " ++ record.runId ++
      " created its topics on " ++ record.clusterId ++ "; nothing was verified"))
  else
    let recorded := ours compactUtc spec record
    let plan := cleanupPlan recorded current
    match plan.unreadable with
    | (topic, why) :: _ =>
      .error (.operational (topic ++ ": " ++ why ++ "; the reconcile is tried again"))
    | [] =>
      let leftOut :=
        (foreign compactUtc spec record).map (fun t => (t.name, "not one of the plan's mapped target names")) ++
          plan.skipped ++ plan.alreadyAbsent.map fun t => (t, "no longer exists")
      if plan.delete.isEmpty then
        .ok (.error ("none of the " ++ toString record.topics.length ++ " topics run " ++
          record.runId ++ " created is still the one it created (" ++
          String.intercalate "; " (leftOut.map fun t => t.1 ++ ": " ++ t.2) ++
          "); nothing was verified"))
      else
        .ok (.ok
          { runId := record.runId
            clusterId := record.clusterId
            mapping := TreeMaps.ofEntries
              (((mapped compactUtc spec).toList.filter fun e =>
                plan.delete.contains e.1).map fun e => (e.2, e.1))
            creation :=
              { topics := recorded.topics.filter fun t => plan.delete.contains t.name
                lineageHeaders := recorded.lineageHeaders
                teardownAfterSeconds := none }
            leftOut })

/-- The plan maps one of its source topics to this name. -/
def DrillSpec.Maps (spec : DrillSpec) (name : String) : Prop :=
  ∃ s ∈ spec.sourceTopics, name = targetTopicPrefix compactUtc spec ++ s

variable {compactUtc} {spec : DrillSpec} {record : TargetsRecord} {currentCluster : String}
  {current : ExtTreeMap String CurrentId}

theorem getElem?_mapped (name s : String) :
    (mapped compactUtc spec)[name]? = some s ↔
      s ∈ spec.sourceTopics ∧ name = targetTopicPrefix compactUtc spec ++ s := by
  unfold mapped
  rw [TreeMaps.getElem?_ofEntries, List.mem_map]
  · constructor
    · rintro ⟨source, member, eq⟩
      cases eq
      exact ⟨member, rfl⟩
    · rintro ⟨member, rfl⟩
      exact ⟨s, member, rfl⟩
  · intro e he e' he' key
    obtain ⟨s, -, rfl⟩ := List.mem_map.mp he
    obtain ⟨s', -, rfl⟩ := List.mem_map.mp he'
    exact (String.append_right_inj _).mp key

theorem contains_mapped (name : String) :
    (mapped compactUtc spec).contains name = true ↔ spec.Maps compactUtc name := by
  rw [ExtTreeMap.contains_eq_isSome_getElem?, Option.isSome_iff_exists]
  constructor
  · rintro ⟨s, held⟩
    exact ⟨s, (getElem?_mapped name s).mp held⟩
  · rintro ⟨s, held⟩
    exact ⟨s, (getElem?_mapped name s).mpr held⟩

theorem mem_ours (topic : CreatedTopic) :
    topic ∈ (ours compactUtc spec record).topics ↔
      topic ∈ record.topics ∧ spec.Maps compactUtc topic.name := by
  rw [← contains_mapped]
  exact List.mem_filter

theorem distinct_ours (distinct : (record.topics.map CreatedTopic.name).Nodup) :
    ((ours compactUtc spec record).topics.map CreatedTopic.name).Nodup :=
  distinct.sublist (List.filter_sublist.map _)

theorem eq_of_name {topics : List CreatedTopic} (distinct : (topics.map CreatedTopic.name).Nodup)
    {topic other : CreatedTopic} (member : topic ∈ topics) (member' : other ∈ topics)
    (name : topic.name = other.name) : topic = other :=
  List.inj_on_of_nodup_map distinct member member' name

theorem contains_delete (distinct : (record.topics.map CreatedTopic.name).Nodup)
    {topic : CreatedTopic} (member : topic ∈ (ours compactUtc spec record).topics) :
    (cleanupPlan (ours compactUtc spec record) current).delete.contains topic.name = true ↔
      topic.StillOurs current := by
  rw [List.contains_iff_mem, mem_delete_cleanupPlan]
  constructor
  · rintro ⟨other, member', name, still⟩
    rwa [eq_of_name (distinct_ours distinct) member member' name.symm]
  · intro still
    exact ⟨topic, member, rfl, still⟩

theorem kept_perm (distinct : (record.topics.map CreatedTopic.name).Nodup)
    (readable : (cleanupPlan (ours compactUtc spec record) current).unreadable = []) :
    (((ours compactUtc spec record).topics.filter fun t =>
        (cleanupPlan (ours compactUtc spec record) current).delete.contains t.name).map
          CreatedTopic.name ++
      ((foreign compactUtc spec record).map CreatedTopic.name ++
        (cleanupPlan (ours compactUtc spec record) current).skipped.map Prod.fst ++
        (cleanupPlan (ours compactUtc spec record) current).alreadyAbsent)).Perm
      (record.topics.map CreatedTopic.name) := by
  have four := named_cleanupPlan (ours compactUtc spec record) current
  have names : ((ours compactUtc spec record).topics.map CreatedTopic.name).Nodup :=
    distinct_ours distinct
  have deleted : (((ours compactUtc spec record).topics.filter fun t =>
      (cleanupPlan (ours compactUtc spec record) current).delete.contains t.name).map
        CreatedTopic.name).Perm (cleanupPlan (ours compactUtc spec record) current).delete := by
    apply (List.perm_ext_iff_of_nodup (names.sublist (List.filter_sublist.map _)) _).mpr
    · intro name
      rw [List.mem_map, mem_delete_cleanupPlan]
      constructor
      · rintro ⟨topic, kept, rfl⟩
        obtain ⟨member, listed⟩ := List.mem_filter.mp kept
        exact ⟨topic, member, rfl, (contains_delete distinct member).mp listed⟩
      · rintro ⟨topic, member, rfl, still⟩
        exact ⟨topic, List.mem_filter.mpr ⟨member, (contains_delete distinct member).mpr still⟩,
          rfl⟩
    · have part : (cleanupPlan (ours compactUtc spec record) current).delete.Sublist
          (cleanupPlan (ours compactUtc spec record) current).named := by
        unfold CleanupPlan.named
        simp only [List.append_assoc]
        exact List.sublist_append_left ..
      exact (four.nodup_iff.mpr names).sublist part
  have split : ((ours compactUtc spec record).topics ++ foreign compactUtc spec record).Perm
      record.topics := List.filter_append_perm ..
  replace split := split.map CreatedTopic.name
  rw [List.perm_iff_count] at four deleted split ⊢
  intro name
  have inFour := four name
  have inDeleted := deleted name
  have inSplit := split name
  unfold CleanupPlan.named at inFour
  rw [readable] at inFour
  rw [List.map_append, List.count_append] at inSplit
  simp only [List.map_nil, List.count_append, List.count_nil] at inFour ⊢
  omega

theorem getElem?_kept_mapping (delete : List String) (s name : String) :
    (TreeMaps.ofEntries (((mapped compactUtc spec).toList.filter fun e =>
        delete.contains e.1).map fun e => (e.2, e.1)) : ExtTreeMap String String)[s]? = some name ↔
      s ∈ spec.sourceTopics ∧ name = targetTopicPrefix compactUtc spec ++ s ∧ name ∈ delete := by
  rw [TreeMaps.getElem?_ofEntries, List.mem_map]
  · constructor
    · rintro ⟨e, member, eq⟩
      obtain ⟨held, listed⟩ := List.mem_filter.mp member
      have entry := (getElem?_mapped e.1 e.2).mp (ExtTreeMap.mem_toList_iff_getElem?_eq_some.mp held)
      cases eq
      exact ⟨entry.1, entry.2, List.contains_iff_mem.mp listed⟩
    · rintro ⟨source, eq, listed⟩
      refine ⟨(name, s), List.mem_filter.mpr ⟨?_, List.contains_iff_mem.mpr listed⟩, rfl⟩
      exact ExtTreeMap.mem_toList_iff_getElem?_eq_some.mpr ((getElem?_mapped name s).mpr ⟨source, eq⟩)
  · intro e he e' he' key
    obtain ⟨a, member, rfl⟩ := List.mem_map.mp he
    obtain ⟨a', member', rfl⟩ := List.mem_map.mp he'
    have held := ExtTreeMap.mem_toList_iff_getElem?_eq_some.mp (List.mem_filter.mp member).1
    have held' := ExtTreeMap.mem_toList_iff_getElem?_eq_some.mp (List.mem_filter.mp member').1
    have key : a.2 = a'.2 := key
    rw [getElem?_mapped, key] at held
    rw [getElem?_mapped] at held'
    exact held.2.trans held'.2.symm

def keptTopics (compactUtc : Int → String) (spec : DrillSpec) (record : TargetsRecord)
    (plan : CleanupPlan) : Kept where
  runId := record.runId
  clusterId := record.clusterId
  mapping := TreeMaps.ofEntries (((mapped compactUtc spec).toList.filter fun e =>
    plan.delete.contains e.1).map fun e => (e.2, e.1))
  creation :=
    { topics := (ours compactUtc spec record).topics.filter fun t => plan.delete.contains t.name
      lineageHeaders := LINEAGE_HEADERS_KEPT
      teardownAfterSeconds := none }
  leftOut := (foreign compactUtc spec record).map
      (fun t => (t.name, "not one of the plan's mapped target names")) ++
    plan.skipped ++ plan.alreadyAbsent.map fun t => (t, "no longer exists")

theorem kept_cases (compactUtc : Int → String) (spec : DrillSpec) (record : TargetsRecord)
    (current : ExtTreeMap String CurrentId) {plan : CleanupPlan}
    (planned : cleanupPlan (ours compactUtc spec record) current = plan) :
    (plan.unreadable ≠ [] ∧
      ∃ failed, kept compactUtc spec record record.clusterId current = .error failed) ∨
    (plan.unreadable = [] ∧ plan.delete = [] ∧
      ∃ why, kept compactUtc spec record record.clusterId current = .ok (.error why)) ∨
    (plan.unreadable = [] ∧ plan.delete ≠ [] ∧
      kept compactUtc spec record record.clusterId current =
        .ok (.ok (keptTopics compactUtc spec record plan))) := by
  unfold kept
  rw [if_neg (not_not.mpr rfl)]
  simp only [planned]
  cases unreadable : plan.unreadable with
  | cons first rest => exact .inl ⟨by simp, _, rfl⟩
  | nil =>
      right
      cases deleted : plan.delete with
      | nil => exact .inl ⟨rfl, rfl, _, rfl⟩
      | cons name names =>
          right
          refine ⟨rfl, by simp, ?_⟩
          rw [List.isEmpty_cons, if_neg Bool.false_ne_true]
          unfold keptTopics
          rw [deleted]
          rfl

theorem judge_pass {kept : Kept} {integrity : Integrity}
    (pass : (kept.judge integrity).result = .pass) : kept.leftOut = [] := by
  unfold Kept.judge at pass
  split_ifs at pass with unchanged
  · rcases unchanged with none | other
    · exact List.isEmpty_iff.mp none
    · exact absurd pass other

theorem names_leftOut (compactUtc : Int → String) (spec : DrillSpec) (record : TargetsRecord)
    (plan : CleanupPlan) :
    (keptTopics compactUtc spec record plan).leftOut.map Prod.fst =
      (foreign compactUtc spec record).map CreatedTopic.name ++ plan.skipped.map Prod.fst ++
        plan.alreadyAbsent := by
  simp [keptTopics, Function.comp_def]

/-- A reconcile keeps, verifies and deletes only what is still the interrupted run's. -/
theorem reconcile_touches_only_its_own (compactUtc : Int → String) (spec : DrillSpec)
    (record : TargetsRecord) (distinct : (record.topics.map CreatedTopic.name).Nodup)
    (currentCluster : String) (current : ExtTreeMap String CurrentId) :
    (currentCluster ≠ record.clusterId →
      ∃ why, kept compactUtc spec record currentCluster current = .ok (.error why)) ∧
    (currentCluster = record.clusterId →
      ((∃ topic ∈ record.topics, spec.Maps compactUtc topic.name ∧ topic.Unreadable current) ∧
        ∃ failed, kept compactUtc spec record currentCluster current = .error failed) ∨
      ((∀ topic ∈ record.topics, spec.Maps compactUtc topic.name → ¬ topic.Unreadable current) ∧
        (∀ topic ∈ record.topics, ¬ (spec.Maps compactUtc topic.name ∧ topic.StillOurs current)) ∧
        ∃ why, kept compactUtc spec record currentCluster current = .ok (.error why)) ∨
      ((∀ topic ∈ record.topics, spec.Maps compactUtc topic.name → ¬ topic.Unreadable current) ∧
        (∃ topic ∈ record.topics, spec.Maps compactUtc topic.name ∧ topic.StillOurs current) ∧
        ∃ k, kept compactUtc spec record currentCluster current = .ok (.ok k) ∧
          (k.creation.topics.map CreatedTopic.name ++ k.leftOut.map Prod.fst).Perm
            (record.topics.map CreatedTopic.name) ∧
          (∀ topic ∈ record.topics,
            (k.creation.topics.map CreatedTopic.name ++ k.leftOut.map Prod.fst).count topic.name
              = 1) ∧
          (∀ topic, topic ∈ k.creation.topics ↔
            topic ∈ record.topics ∧ spec.Maps compactUtc topic.name ∧ topic.StillOurs current) ∧
          (∀ s name, k.mapping[s]? = some name ↔
            s ∈ spec.sourceTopics ∧ name = targetTopicPrefix compactUtc spec ++ s ∧
              name ∈ k.creation.topics.map CreatedTopic.name) ∧
          ∀ integrity, (k.judge integrity).result = .pass → k.leftOut = [])) ∧
    (∀ recorded : TargetCreation, (recorded.topics.map CreatedTopic.name).Nodup →
      (cleanupPlan recorded current).named.Perm (recorded.topics.map CreatedTopic.name) ∧
      (∀ topic ∈ recorded.topics, (cleanupPlan recorded current).named.count topic.name = 1) ∧
      ∀ name ∈ (cleanupPlan recorded current).delete,
        ∃ topic ∈ recorded.topics, topic.name = name ∧ topic.StillOurs current) := by
  refine ⟨?_, ?_, ?_⟩
  · intro differs
    exact ⟨_, if_pos differs⟩
  · intro same
    subst same
    have planned := unreadable_cleanupPlan (ours compactUtc spec record) current
    have deletes := mem_delete_cleanupPlan (ours compactUtc spec record) current
    have together (readable : (cleanupPlan (ours compactUtc spec record) current).unreadable = []) :=
      kept_perm distinct readable
    have listed (topic : CreatedTopic) (member : topic ∈ (ours compactUtc spec record).topics) :
        (cleanupPlan (ours compactUtc spec record) current).delete.contains topic.name = true ↔
          topic.StillOurs current := contains_delete distinct member
    generalize eq : cleanupPlan (ours compactUtc spec record) current = plan at *
    have readable (none : plan.unreadable = []) : ∀ topic ∈ record.topics,
        spec.Maps compactUtc topic.name → ¬ topic.Unreadable current := fun topic member maps =>
      planned.mp none topic ((mem_ours topic).mpr ⟨member, maps⟩)
    rcases kept_cases compactUtc spec record current eq with
      ⟨unreadable, failed⟩ | ⟨none, empty, why⟩ | ⟨none, some, answer⟩
    · left
      refine ⟨?_, failed⟩
      by_contra all
      apply unreadable
      apply planned.mpr
      intro topic member unread
      obtain ⟨recorded, maps⟩ := (mem_ours topic).mp member
      exact all ⟨topic, recorded, maps, unread⟩
    · right; left
      refine ⟨readable none, ?_, why⟩
      rintro topic member ⟨maps, still⟩
      have deleted := (deletes topic.name).mpr ⟨topic, (mem_ours topic).mpr ⟨member, maps⟩, rfl, still⟩
      rw [empty] at deleted
      cases deleted
    · right; right
      have kept (topic : CreatedTopic) :
          topic ∈ (keptTopics compactUtc spec record plan).creation.topics ↔
            topic ∈ record.topics ∧ spec.Maps compactUtc topic.name ∧ topic.StillOurs current := by
        apply List.mem_filter.trans
        constructor
        · rintro ⟨member, contained⟩
          obtain ⟨recorded, maps⟩ := (mem_ours topic).mp member
          exact ⟨recorded, maps, (listed topic member).mp contained⟩
        · rintro ⟨recorded, maps, still⟩
          have member : topic ∈ (ours compactUtc spec record).topics :=
            (mem_ours topic).mpr ⟨recorded, maps⟩
          exact ⟨member, (listed topic member).mpr still⟩
      have perm : ((keptTopics compactUtc spec record plan).creation.topics.map CreatedTopic.name ++
          (keptTopics compactUtc spec record plan).leftOut.map Prod.fst).Perm
            (record.topics.map CreatedTopic.name) := by
        rw [names_leftOut]
        exact together none
      refine ⟨readable none, ?_, _, answer, perm, ?_, kept, ?_, fun _ => judge_pass⟩
      · obtain ⟨name, member⟩ := List.exists_mem_of_ne_nil _ some
        obtain ⟨topic, ours, -, still⟩ := (deletes name).mp member
        obtain ⟨recorded, maps⟩ := (mem_ours topic).mp ours
        exact ⟨topic, recorded, maps, still⟩
      · intro topic member
        rw [perm.count_eq]
        exact List.count_eq_one_of_mem distinct (List.mem_map_of_mem member)
      · intro s name
        apply (getElem?_kept_mapping plan.delete s name).trans
        apply and_congr_right
        intro source
        apply and_congr_right
        intro target
        rw [deletes name, List.mem_map]
        constructor
        · rintro ⟨topic, ours, named, still⟩
          obtain ⟨recorded, maps⟩ := (mem_ours topic).mp ours
          exact ⟨topic, (kept topic).mpr ⟨recorded, maps, still⟩, named⟩
        · rintro ⟨topic, member, named⟩
          obtain ⟨recorded, maps, still⟩ := (kept topic).mp member
          exact ⟨topic, (mem_ours topic).mpr ⟨recorded, maps⟩, named, still⟩
  · intro recorded nodup
    have all := named_cleanupPlan recorded current
    refine ⟨all, ?_, fun name => (mem_delete_cleanupPlan recorded current name).mp⟩
    intro topic member
    rw [all.count_eq]
    exact List.count_eq_one_of_mem nodup (List.mem_map_of_mem member)

/-- Two recorded topics, on another cluster and then under the cleanup's rule. -/
theorem two_recorded_topics :
    (∃ why, kept (fun _ => "") ⟨["a", "b"], .scratch, none, "r-", none, 0⟩
      ⟨"run", "h", "C", [⟨"r-a", 1, some "x", none⟩, ⟨"r-b", 1, none, none⟩]⟩ "D" ∅ =
        .ok (.error why)) ∧
      (cleanupPlan ⟨[⟨"r-a", 1, some "x", none⟩, ⟨"r-b", 1, none, none⟩], "kept", none⟩ ∅).named.Perm
        ["r-a", "r-b"] := by
  have both := reconcile_touches_only_its_own (fun _ => "")
    ⟨["a", "b"], .scratch, none, "r-", none, 0⟩
    ⟨"run", "h", "C", [⟨"r-a", 1, some "x", none⟩, ⟨"r-b", 1, none, none⟩]⟩ (by decide) "D" ∅
  exact ⟨both.1 (by decide), (both.2.2 ⟨_, "kept", none⟩ (by decide)).1⟩

end

end Logweir.Drill
