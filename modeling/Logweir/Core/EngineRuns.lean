import Logweir.Core.ReplaySelection
import Logweir.Library.Grouping
import Logweir.Library.TreeMaps
import Mathlib.Data.Finset.Card
import Mathlib.Data.List.Dedup
import Mathlib.Data.Set.Card

/-!
# The engine runs of a selection

`ReplaySelection::engine_runs`.  The engine filters by one list of partitions for every topic of a
run, so the topics are grouped by their subsets: no topic is in two runs, and a run's filter is its
topics' own.
-/

set_option autoImplicit false

namespace Logweir.ReplaySelection

open Std (ExtTreeMap ExtTreeSet)
open Logweir.Grouping

def filterOf (partitions : ExtTreeMap String (ExtTreeSet Int)) (topic : String) :
    Option (List Int) :=
  partitions[topic]?.map fun set => set.toList

def EngineRunSelection.lets (run : EngineRunSelection) (partition : Int) : Bool :=
  match run.sourcePartitions with
  | none => true
  | some list => list.contains partition

def written (listed : String → List Int) (runs : List EngineRunSelection) : List (String × Int) :=
  runs.flatMap fun run => run.topics.flatMap fun topic =>
    ((listed topic).filter run.lets).map fun partition => (topic, partition)

def ReplaySelection.selected (sel : ReplaySelection) (topics : List String)
    (listed : String → List Int) : List (String × Int) :=
  topics.dedup.flatMap fun topic =>
    ((listed topic).filter (sel.selectsPartition topic)).map fun partition => (topic, partition)

section Groups

variable (partitions : ExtTreeMap String (ExtTreeSet Int)) (topics : List String)

instance transCmpFilter :
    Std.TransCmp (compare : Option (List Int) → Option (List Int) → Ordering) :=
  inferInstance

def byFilter : ExtTreeMap (Option (List Int)) (List String) :=
  topics.foldl (upsert (filterOf partitions) (fun topic => [topic])
    fun named topic => named ++ [topic]) ∅

theorem engineRuns_eq : engineRuns partitions topics = (byFilter partitions topics).toList.map
    fun (sourcePartitions, named) =>
      { sourcePartitions, topics := (ExtTreeSet.ofList named).toList } := by
  have step : (fun (acc : ExtTreeMap (Option (List Int)) (List String)) topic =>
      acc.insert (filterOf partitions topic)
        ((acc[filterOf partitions topic]?).getD [] ++ [topic])) =
      upsert (filterOf partitions) (fun topic => [topic]) fun named topic => named ++ [topic] := by
    funext acc topic
    unfold upsert
    cases acc[filterOf partitions topic]? <;> rfl
  unfold engineRuns byFilter
  rw [← step]
  rfl

theorem foldl_gather_append (l kept : List String) :
    l.foldl (fun named topic => named ++ [topic]) kept = kept ++ l := by
  induction l generalizing kept with
  | nil => exact (List.append_nil kept).symm
  | cons topic l ih => rw [List.foldl_cons, ih, List.append_assoc, List.singleton_append]

theorem byFilter_eq_some {key : Option (List Int)} {named : List String} :
    (byFilter partitions topics)[key]? = some named ↔
      named = topics.filter (fun topic => filterOf partitions topic = key) ∧ named ≠ [] := by
  rw [byFilter, getElem?_foldl_upsert, ExtTreeMap.getElem?_empty]
  cases own : topics.filter fun topic => filterOf partitions topic = key with
  | nil =>
      constructor
      · intro held
        cases held
      · rintro ⟨rfl, some_⟩
        exact absurd rfl some_
  | cons topic l =>
      have held : (topic :: l).foldl (gather (fun topic => [topic])
          fun named topic => named ++ [topic]) none = some (topic :: l) :=
        (foldl_gather _ _ l [topic]).trans (congrArg some (foldl_gather_append l [topic]))
      rw [held]
      constructor
      · intro same
        obtain rfl := Option.some.inj same
        exact ⟨rfl, List.cons_ne_nil _ _⟩
      · rintro ⟨rfl, _⟩
        rfl

theorem mem_keys_byFilter {key : Option (List Int)} :
    key ∈ (byFilter partitions topics).keys ↔ ∃ topic ∈ topics, filterOf partitions topic = key := by
  rw [TreeMaps.mem_keys_iff]
  constructor
  · rintro ⟨named, held⟩
    obtain ⟨rfl, some_⟩ := (byFilter_eq_some partitions topics).mp held
    obtain ⟨topic, own⟩ := List.exists_mem_of_ne_nil _ some_
    obtain ⟨member, same⟩ := List.mem_filter.mp own
    exact ⟨topic, member, of_decide_eq_true same⟩
  · rintro ⟨topic, member, same⟩
    refine ⟨_, (byFilter_eq_some partitions topics).mpr ⟨rfl, List.ne_nil_of_mem (a := topic) ?_⟩⟩
    exact List.mem_filter.mpr ⟨member, decide_eq_true same⟩

end Groups

section Runs

variable {partitions : ExtTreeMap String (ExtTreeSet Int)} {topics : List String}

theorem mem_topics_iff {run : EngineRunSelection} (member : run ∈ engineRuns partitions topics)
    {topic : String} :
    topic ∈ run.topics ↔ topic ∈ topics ∧ filterOf partitions topic = run.sourcePartitions := by
  rw [engineRuns_eq] at member
  obtain ⟨⟨key, named⟩, entry, rfl⟩ := List.mem_map.mp member
  have held := ExtTreeMap.mem_toList_iff_getElem?_eq_some.mp entry
  rw [((byFilter_eq_some partitions topics).mp held).1]
  dsimp only
  rw [ExtTreeSet.mem_toList, ExtTreeSet.mem_ofList, List.contains_iff_mem, List.mem_filter,
    decide_eq_true_eq]

theorem nodup_topics {run : EngineRunSelection} (member : run ∈ engineRuns partitions topics) :
    run.topics.Nodup := by
  rw [engineRuns_eq] at member
  obtain ⟨⟨key, named⟩, _, rfl⟩ := List.mem_map.mp member
  dsimp only
  apply List.Pairwise.imp _ ExtTreeSet.ordered_toList
  intro topic other less same
  subst same
  exact TreeMaps.not_lt_self topic less

theorem map_sourcePartitions :
    (engineRuns partitions topics).map (fun run => run.sourcePartitions) =
      (byFilter partitions topics).keys := by
  rw [engineRuns_eq, List.map_map, ← ExtTreeMap.map_fst_toList_eq_keys]
  rfl

theorem topics_apart : (engineRuns partitions topics).Pairwise fun run other =>
    List.Disjoint run.topics other.topics := by
  have distinct := TreeMaps.keys_nodup (byFilter partitions topics)
  rw [← map_sourcePartitions] at distinct
  refine (List.pairwise_map.mp distinct).imp_of_mem fun here there apart topic own also => ?_
  exact apart (((mem_topics_iff here).mp own).2.symm.trans ((mem_topics_iff there).mp also).2)

theorem topics_perm :
    ((engineRuns partitions topics).flatMap fun run => run.topics).Perm topics.dedup := by
  have once : ((engineRuns partitions topics).flatMap fun run => run.topics).Nodup :=
    List.nodup_flatMap.mpr ⟨fun run member => nodup_topics member, topics_apart⟩
  refine (List.perm_ext_iff_of_nodup once (List.nodup_dedup topics)).mpr fun topic => ?_
  rw [List.mem_flatMap, List.mem_dedup]
  constructor
  · rintro ⟨run, member, own⟩
    exact ((mem_topics_iff member).mp own).1
  · intro listed
    have key := (mem_keys_byFilter partitions topics).mpr ⟨topic, listed, rfl⟩
    rw [← map_sourcePartitions] at key
    obtain ⟨run, member, same⟩ := List.mem_map.mp key
    exact ⟨run, member, (mem_topics_iff member).mpr ⟨listed, same.symm⟩⟩

theorem length_engineRuns :
    (engineRuns partitions topics).length =
      {subset | ∃ topic ∈ topics, partitions[topic]? = subset}.ncard := by
  classical
  have injective : Function.Injective fun subset : Option (ExtTreeSet Int) =>
      subset.map fun set => set.toList :=
    Option.map_injective fun _ _ same => ExtTreeSet.toList_inj.mp same
  have image : (fun subset : Option (ExtTreeSet Int) => subset.map fun set => set.toList) ''
      {subset | ∃ topic ∈ topics, partitions[topic]? = subset} =
      ((byFilter partitions topics).keys.toFinset : Set (Option (List Int))) := by
    ext key
    rw [Finset.mem_coe, List.mem_toFinset, mem_keys_byFilter]
    constructor
    · rintro ⟨_, ⟨topic, listed, rfl⟩, same⟩
      exact ⟨topic, listed, same⟩
    · rintro ⟨topic, listed, same⟩
      exact ⟨_, ⟨topic, listed, rfl⟩, same⟩
  rw [← Set.ncard_image_of_injective _ injective, image, Set.ncard_coe_finset,
    List.toFinset_card_of_nodup (TreeMaps.keys_nodup _), ← map_sourcePartitions, List.length_map]

end Runs

theorem lets_eq_selects {sel : ReplaySelection} {topics : List String} {run : EngineRunSelection}
    (selected : ∀ topic ∈ topics, sel.topics.contains topic = true)
    (member : run ∈ engineRuns sel.partitions topics) {topic : String} (own : topic ∈ run.topics)
    (partition : Int) : run.lets partition = sel.selectsPartition topic partition := by
  obtain ⟨listed, same⟩ := (mem_topics_iff member).mp own
  rw [ReplaySelection.selectsPartition, selected topic listed, Bool.true_and,
    EngineRunSelection.lets, ← same, filterOf]
  cases sel.partitions[topic]? with
  | none => rfl
  | some set => exact ExtTreeSet.contains_toList

/-- The runs divide the selection among them. -/
structure Divides (sel : ReplaySelection) (topics : List String) (runs : List EngineRunSelection) :
    Prop where
  /-- Each topic is in exactly one run, and no other topic is in any. -/
  placed : (runs.flatMap fun run => run.topics).Perm topics.dedup
  filtered : ∀ run ∈ runs, ∀ topic ∈ run.topics, ∀ partition,
    run.lets partition = sel.selectsPartition topic partition
  count : runs.length = {subset | ∃ topic ∈ topics, sel.partitions[topic]? = subset}.ncard
  /-- Whatever the archive lists, its selected partitions are written once each, and no other. -/
  once : ∀ listed, (written listed runs).Perm (sel.selected topics listed)

/-- The engine runs of a list of selected topics divide the selection. -/
theorem engineRuns_divides (sel : ReplaySelection) (topics : List String)
    (selected : ∀ topic ∈ topics, sel.topics.contains topic = true) :
    Divides sel topics (engineRuns sel.partitions topics) where
  placed := topics_perm
  filtered := fun _ member _ own => lets_eq_selects selected member own
  count := length_engineRuns
  once := by
    intro listed
    have each : written listed (engineRuns sel.partitions topics) =
        ((engineRuns sel.partitions topics).flatMap fun run => run.topics).flatMap fun topic =>
          ((listed topic).filter (sel.selectsPartition topic)).map
            fun partition => (topic, partition) := by
      rw [written, List.flatMap_assoc]
      refine List.flatMap_congr fun run member => List.flatMap_congr fun topic own => ?_
      rw [List.filter_congr fun partition _ => lets_eq_selects selected member own partition]
    rw [each]
    exact topics_perm.flatMap_right _

def narrowed : ReplaySelection where
  topics := ExtTreeSet.ofList ["orders", "payments", "refunds"]
  windowStartMs := none
  windowEndMs := 0
  partitions := ExtTreeMap.ofList
    [("orders", ExtTreeSet.ofList [(0 : Int), 2]), ("refunds", ExtTreeSet.ofList [(2 : Int), 0])]

theorem narrowed_divides : Divides narrowed ["orders", "payments", "refunds"]
    (engineRuns narrowed.partitions ["orders", "payments", "refunds"]) :=
  engineRuns_divides narrowed _ fun _ listed =>
    ExtTreeSet.contains_ofList.trans (List.contains_iff_mem.mpr listed)

end Logweir.ReplaySelection
