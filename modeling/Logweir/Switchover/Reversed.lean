import Logweir.Switchover.Rollback
import Mathlib.Data.List.Perm.Subperm

/-!
# What a rollback plan plans

The topics rolled from a group's partitions hold each recorded prior, expected at its
readback; the plan of an applied record passes its own checks and the check against it.
-/

set_option autoImplicit false

namespace Logweir.Switchover

open Logweir.Text Logweir.Results Logweir.SortedMaps
open Logweir.PositionsMapping (isSha256Prefixed)

/-- A recorded partition that a rollback takes back. -/
def PartitionRecord.reversible (p : PartitionRecord) (prior readback : Int) : Prop :=
  p.prior = some prior ∧ p.readback = some readback

/-- A topic of a rollback: it expects a position at each partition it plans. -/
structure RolledTopic (done : List PartitionRecord) (topic : String) (t : PlanTopic) : Prop where
  plain : t.approximate = []
  some_ : t.offsets.isEmpty = false
  expected : ∃ m, t.expected = .positions m ∧ m.keys = t.offsets.keys
  recorded : ∀ e ∈ t.offsets.entries, ∃ p ∈ done, ∃ readback, p.part = (topic, e.1) ∧
    p.reversible e.2 readback ∧ t.expected.positionAt e.1 = some readback

structure Rolled (done : List PartitionRecord) (topics : SortedMap String PlanTopic) : Prop where
  each : ∀ entry ∈ topics.entries, RolledTopic done entry.1 entry.2
  all : ∀ p ∈ done, ∀ prior readback, p.reversible prior readback →
    ∃ t, (p.topic, t) ∈ topics.entries ∧ (p.partition, prior) ∈ t.offsets.entries

section

variable {done : List PartitionRecord} {topics : SortedMap String PlanTopic} {p : PartitionRecord}
  {t : PlanTopic} {topic : String} {prior readback : Int}

theorem RolledTopic.mono {more : List PartitionRecord} (rolled : RolledTopic done topic t) :
    RolledTopic (done ++ more) topic t where
  plain := rolled.plain
  some_ := rolled.some_
  expected := rolled.expected
  recorded := fun e member => by
    obtain ⟨p, early, rest⟩ := rolled.recorded e member
    exact ⟨p, List.mem_append_left more early, rest⟩

theorem isEmpty_insert {κ β : Type} [LinearOrder κ] (m : SortedMap κ β) (k : κ) (v : β) :
    (m.insert k v).isEmpty = false := by
  have member : (k, v) ∈ (m.insert k v).entries := SortedMap.mem_insert.mpr (.inl rfl)
  exact List.isEmpty_eq_false_iff.mpr (List.ne_nil_of_mem member)

theorem keys_insert_congr {m m' : SortedMap Nat Int} (same : m.keys = m'.keys) (k : Nat) (v v' : Int) :
    (m.insert k v).keys = (m'.insert k v').keys :=
  Ordered.eq_of_ascending (SortedMap.keys_sorted _) (SortedMap.keys_sorted _) fun k' => by
    rw [SortedMap.mem_keys_insert, SortedMap.mem_keys_insert, same]

theorem rolledTopic_rollTo {m : SortedMap Nat Int} (plain : t.approximate = [])
    (expected : t.expected = .positions m) (keys : m.keys = t.offsets.keys)
    (recorded : ∀ e ∈ t.offsets.entries, ∃ q ∈ done, ∃ readback, q.part = (p.topic, e.1) ∧
      q.reversible e.2 readback ∧ t.expected.positionAt e.1 = some readback)
    (own : p.reversible prior readback) :
    RolledTopic (done ++ [p]) p.topic (t.rollTo p.partition prior readback) where
  plain := plain
  some_ := isEmpty_insert _ _ _
  expected := by
    refine ⟨m.insert p.partition readback, ?_, keys_insert_congr keys _ _ _⟩
    rw [PlanTopic.rollTo, expected]
    rfl
  recorded := fun e member => by
    have holds : ∀ k, (t.rollTo p.partition prior readback).expected.positionAt k =
        (m.insert p.partition readback).get? k := by
      intro k
      rw [PlanTopic.rollTo, expected]
      rfl
    rcases SortedMap.mem_insert.mp member with rfl | ⟨early, other⟩
    · refine ⟨p, List.mem_append_right _ (List.mem_singleton_self _), readback, rfl, own, ?_⟩
      rw [holds, SortedMap.get?_insert_self]
    · obtain ⟨q, before, back, part, reversed, at_⟩ := recorded e early
      refine ⟨q, List.mem_append_left _ before, back, part, reversed, ?_⟩
      rw [expected] at at_
      have held : (e.1, back) ∈ m.entries := SortedMap.get?_eq_some.mp at_
      rw [holds]
      exact SortedMap.get?_eq_some.mpr (SortedMap.mem_insert.mpr (.inr ⟨held, other⟩))

theorem standing (rolled : Rolled done topics) :
    ∃ m, ((topics.get? p.topic).getD freshTopic).approximate = [] ∧
      ((topics.get? p.topic).getD freshTopic).expected = .positions m ∧
      m.keys = ((topics.get? p.topic).getD freshTopic).offsets.keys ∧
      ∀ e ∈ ((topics.get? p.topic).getD freshTopic).offsets.entries, ∃ q ∈ done, ∃ readback,
        q.part = (p.topic, e.1) ∧ q.reversible e.2 readback ∧
        ((topics.get? p.topic).getD freshTopic).expected.positionAt e.1 = some readback := by
  cases held : topics.get? p.topic with
  | none =>
      exact ⟨SortedMap.empty, rfl, rfl, rfl, fun e none => absurd none List.not_mem_nil⟩
  | some t =>
      have topic := rolled.each _ (SortedMap.get?_eq_some.mp held)
      obtain ⟨m, expected, keys⟩ := topic.expected
      exact ⟨m, topic.plain, expected, keys, topic.recorded⟩

theorem rolled_rollPartition (rolled : Rolled done topics) (fresh : ∀ q ∈ done, q.part ≠ p.part) :
    Rolled (done ++ [p]) (rollPartition topics p) := by
  by_cases back : ∃ prior readback, p.reversible prior readback
  · obtain ⟨prior, readback, own⟩ := back
    have step : rollPartition topics p = topics.insert p.topic
        (((topics.get? p.topic).getD freshTopic).rollTo p.partition prior readback) := by
      rw [rollPartition, own.1, own.2]
    rw [step]
    obtain ⟨m, plain, expected, keys, recorded⟩ := standing rolled
    constructor
    · intro entry member
      rcases SortedMap.mem_insert.mp member with rfl | ⟨early, -⟩
      · exact rolledTopic_rollTo plain expected keys recorded own
      · exact (rolled.each entry early).mono
    · intro q member before after reversed
      rcases List.mem_append.mp member with early | late
      · obtain ⟨t, entry, held⟩ := rolled.all q early before after reversed
        by_cases same : q.topic = p.topic
        · have other : q.partition ≠ p.partition := fun equal =>
            fresh q early (Prod.ext same equal)
          rw [same] at entry ⊢
          rw [SortedMap.get?_eq_some.mpr entry]
          exact ⟨_, SortedMap.mem_insert.mpr (.inl rfl),
            SortedMap.mem_insert.mpr (.inr ⟨held, other⟩)⟩
        · exact ⟨t, SortedMap.mem_insert.mpr (.inr ⟨entry, same⟩), held⟩
      · rw [List.mem_singleton.mp late] at reversed ⊢
        have prior' : before = prior := Option.some.inj (reversed.1.symm.trans own.1)
        rw [prior']
        exact ⟨_, SortedMap.mem_insert.mpr (.inl rfl), SortedMap.mem_insert.mpr (.inl rfl)⟩
  · have step : rollPartition topics p = topics := by
      unfold rollPartition
      split
      · next prior readback held held' => exact absurd ⟨prior, readback, held, held'⟩ back
      · rfl
    rw [step]
    refine ⟨fun entry member => (rolled.each entry member).mono, fun q member before after reversed => ?_⟩
    rcases List.mem_append.mp member with early | late
    · exact rolled.all q early before after reversed
    · rw [List.mem_singleton.mp late] at reversed
      exact absurd ⟨before, after, reversed⟩ back

theorem rolled_foldl : ∀ (l done : List PartitionRecord) (topics : SortedMap String PlanTopic),
    ((done ++ l).map PartitionRecord.part).Nodup → Rolled done topics →
      Rolled (done ++ l) (l.foldl rollPartition topics) := by
  intro l
  induction l with
  | nil => exact fun done topics _ rolled => by rwa [List.append_nil]
  | cons p l ih =>
      intro done topics distinct rolled
      have fresh : ∀ q ∈ done, q.part ≠ p.part := by
        rw [List.map_append, List.map_cons] at distinct
        intro q member same
        have apart := (List.nodup_append.mp distinct).2.2
        exact apart q.part (List.mem_map_of_mem member) p.part List.mem_cons_self same
      rw [List.append_cons] at distinct ⊢
      exact ih (done ++ [p]) _ distinct (rolled_rollPartition rolled fresh)

theorem rolled_rolledTopics {l : List PartitionRecord} (distinct : (l.map PartitionRecord.part).Nodup) :
    Rolled l (rolledTopics l) :=
  rolled_foldl l [] SortedMap.empty distinct
    ⟨fun entry none => absurd none List.not_mem_nil, fun p none => absurd none List.not_mem_nil⟩

end

def appliedAs (p : PlannedPartition) : PartitionRecord where
  topic := p.topic
  partition := p.partition
  prior := p.expected
  planned := p.planned
  applied := .known true
  readback := some p.planned

/-- The record of a group that was applied. -/
structure Recorded (g : PlanGroup) (r : GroupRecord) : Prop where
  source : r.source = g.source
  target : r.target = g.target
  partitions : r.partitions = (planned g).map appliedAs

/-- One group takes another back: each position that was expected is planned, and expected
where it was planned. -/
structure Reverses (g back : PlanGroup) : Prop where
  source : back.source = g.source
  target : back.target = g.target
  only : ∀ p ∈ planned back, ∃ q ∈ planned g, q.part = p.part ∧ q.expected = some p.planned ∧
    p.expected = some q.planned
  all : ∀ q ∈ planned g, ∀ prior, q.expected = some prior → ∃ p ∈ planned back, p.part = q.part ∧
    p.planned = prior ∧ p.expected = some q.planned
  fit : FitGroup true back

section

variable {rollback : Bool} {g back : PlanGroup} {r : GroupRecord} {p q : PlannedPartition}

theorem planned_unique (one : p ∈ planned g) (other : q ∈ planned g) (same : p.part = q.part) :
    p = q :=
  List.inj_on_of_nodup_map (parts_nodup g) one other same

theorem expected_nonneg (fit : FitGroup rollback g) (member : p ∈ planned g) {prior : Int}
    (expects : p.expected = some prior) : 0 ≤ prior := by
  obtain ⟨t, entry, held, expected, -⟩ := mem_planned.mp member
  have fits := (fit.topics _ entry).expected
  rw [expected] at expects
  dsimp only at fits
  cases stated : t.expected with
  | word =>
      rw [stated] at expects
      cases expects
  | positions m =>
      rw [stated] at expects fits
      exact fits.2 prior (List.mem_map_of_mem (SortedMap.get?_eq_some.mp expects))

theorem planned_nonneg (fit : FitGroup rollback g) (member : p ∈ planned g) : 0 ≤ p.planned := by
  obtain ⟨t, entry, held, -⟩ := mem_planned.mp member
  exact (fit.topics _ entry).offsets _ held

theorem rolled_recorded (rec : Recorded g r) : Rolled r.partitions (rolledTopics r.partitions) := by
  refine rolled_rolledTopics ?_
  rw [rec.partitions, List.map_map]
  exact parts_nodup g

theorem planned_of_reversible (rec : Recorded g r) {rp : PartitionRecord} {prior readback : Int}
    (member : rp ∈ r.partitions) (own : rp.reversible prior readback) :
    ∃ q ∈ planned g, q.part = rp.part ∧ q.expected = some prior ∧ q.planned = readback := by
  rw [rec.partitions] at member
  obtain ⟨q, planned_, rfl⟩ := List.mem_map.mp member
  exact ⟨q, planned_, rfl, own.1, Option.some.inj own.2⟩

theorem fit_rolledTopic (fit : FitGroup rollback g) (rec : Recorded g r)
    {entry : String × PlanTopic} (member : entry ∈ (rolledTopics r.partitions).entries) :
    FitTopic true entry := by
  have rolled := (rolled_recorded rec).each entry member
  obtain ⟨topic, t⟩ := entry
  have planned_ : ∀ e ∈ t.offsets.entries, ∃ q ∈ planned g, q.part = (topic, e.1) ∧
      q.expected = some e.2 ∧ t.expected.positionAt e.1 = some q.planned := by
    intro e held
    obtain ⟨rp, recorded, readback, part, own, at_⟩ := rolled.recorded e held
    obtain ⟨q, inside, same, expected, rfl⟩ := planned_of_reversible rec recorded own
    exact ⟨q, inside, same.trans part, expected, at_⟩
  constructor
  · obtain ⟨o, l, offsets⟩ := List.exists_cons_of_ne_nil (List.isEmpty_eq_false_iff.mp rolled.some_)
    obtain ⟨q, inside, part, -⟩ := planned_ o (offsets ▸ List.mem_cons_self)
    obtain ⟨t', entry', -⟩ := mem_planned.mp inside
    have topic_ : q.topic = topic := congrArg Prod.fst part
    rw [← topic_]
    exact (fit.topics _ entry').named
  · exact rolled.some_
  · intro e held
    obtain ⟨q, inside, -, expected, -⟩ := planned_ e held
    exact expected_nonneg fit inside expected
  · intro k approximate
    rw [rolled.plain] at approximate
    exact absurd approximate List.not_mem_nil
  · obtain ⟨m, expected, keys⟩ := rolled.expected
    rw [expected]
    refine ⟨keys, fun o value => ?_⟩
    obtain ⟨⟨k, o⟩, held, rfl⟩ := List.mem_map.mp value
    have key : k ∈ t.offsets.keys := keys ▸ List.mem_map_of_mem held
    obtain ⟨prior, offset⟩ := SortedMap.mem_keys.mp key
    obtain ⟨q, inside, -, -, at_⟩ := planned_ _ offset
    rw [expected] at at_
    have same : o = q.planned := SortedMap.value_unique held (SortedMap.get?_eq_some.mp at_)
    rw [same]
    exact planned_nonneg fit inside

theorem reverses_rolledGroup (fit : FitGroup rollback g) (rec : Recorded g r)
    (rolled : rolledGroup r = some back) : Reverses g back := by
  unfold rolledGroup at rolled
  split_ifs at rolled with empty
  cases rolled
  have topics := rolled_recorded rec
  constructor
  · exact rec.source
  · exact rec.target
  · intro p member
    obtain ⟨t, entry, held, expected, -⟩ := mem_planned.mp member
    obtain ⟨rp, recorded, readback, part, own, at_⟩ := (topics.each _ entry).recorded _ held
    obtain ⟨q, inside, same, expects, rfl⟩ := planned_of_reversible rec recorded own
    exact ⟨q, inside, same.trans part, expects, expected.trans at_⟩
  · intro q inside prior expects
    have recorded : appliedAs q ∈ r.partitions := rec.partitions ▸ List.mem_map_of_mem inside
    obtain ⟨t, entry, held⟩ := topics.all _ recorded prior q.planned ⟨expects, rfl⟩
    obtain ⟨rp, recorded', readback, part, own, at_⟩ := (topics.each _ entry).recorded _ held
    obtain ⟨q', inside', same, -, rfl⟩ := planned_of_reversible rec recorded' own
    have one : q' = q := planned_unique inside' inside (same.trans part)
    rw [one] at at_
    exact ⟨⟨q.topic, q.partition, prior, some q.planned, none⟩,
      mem_planned.mpr ⟨t, entry, held, at_.symm, rfl⟩, rfl, rfl, rfl⟩
  · exact
      { source := rec.source ▸ fit.source
        target := rec.target ▸ fit.target
        some_ := by simpa using empty
        topics := fun entry member => fit_rolledTopic fit rec member }

theorem expected_of_rolledGroup_none (rec : Recorded g r) (rolled : rolledGroup r = none)
    (member : p ∈ planned g) : p.expected = none := by
  unfold rolledGroup at rolled
  split_ifs at rolled with empty
  refine Option.eq_none_iff_forall_ne_some.mpr fun prior expects => ?_
  have recorded : appliedAs p ∈ r.partitions := rec.partitions ▸ List.mem_map_of_mem member
  obtain ⟨t, entry, -⟩ := (rolled_recorded rec).all _ recorded prior p.planned ⟨expects, rfl⟩
  rw [SortedMap.isEmpty, List.isEmpty_iff] at empty
  rw [empty] at entry
  exact absurd entry List.not_mem_nil

theorem Reverses.length_le (reverses : Reverses g back) :
    (planned back).length ≤ (planned g).length := by
  have inside : parts back ⊆ parts g := by
    intro part member
    obtain ⟨p, planned_, rfl⟩ := List.mem_map.mp member
    obtain ⟨q, own, same, -⟩ := reverses.only p planned_
    exact List.mem_map.mpr ⟨q, own, same⟩
  have bound := (List.subperm_of_subset (parts_nodup back) inside).length_le
  rwa [parts, parts, List.length_map, List.length_map] at bound

end

/-- The records of a run over its groups: those reported applied are recorded as planned. -/
def Records (groups : List PlanGroup) (records : List GroupRecord) : Prop :=
  List.Forall₂ (fun g r => r.outcome = APPLIED → Recorded g r) groups records

def reversals (records : List GroupRecord) : List PlanGroup :=
  (appliedGroups records).filterMap rolledGroup

section

variable {plan : SwitchoverPlan} {groups : List PlanGroup} {records : List GroupRecord}
  {g back : PlanGroup} {r : GroupRecord} {rollback : Bool} {runId : String} {ref : RecordRef}

theorem reversals_cons : reversals (r :: records) =
    if r.outcome = APPLIED then (rolledGroup r).toList ++ reversals records else reversals records := by
  unfold reversals appliedGroups
  by_cases applied : r.outcome = APPLIED
  · have kept : ((r :: records).filter fun g => g.outcome = APPLIED) =
        r :: records.filter fun g => g.outcome = APPLIED := by simp [applied]
    rw [if_pos applied, kept, List.filterMap_cons]
    cases rolledGroup r <;> rfl
  · have left : ((r :: records).filter fun g => g.outcome = APPLIED) =
        records.filter fun g => g.outcome = APPLIED := by simp [applied]
    rw [if_neg applied, left]

theorem reversals_step (records : List GroupRecord) (fit : FitGroup rollback g) (rec : r.outcome = APPLIED → Recorded g r) :
    reversals (r :: records) = reversals records ∨
      ∃ back, Reverses g back ∧ reversals (r :: records) = back :: reversals records := by
  rw [reversals_cons]
  split_ifs with applied
  · cases rolled : rolledGroup r with
    | none => exact .inl rfl
    | some back => exact .inr ⟨back, reverses_rolledGroup fit (rec applied) rolled, rfl⟩
  · exact .inl rfl

theorem reversals_within (recorded : Records groups records)
    (fit : ∀ g ∈ groups, FitGroup rollback g) :
    ((reversals records).map PlanGroup.target).Sublist (groups.map PlanGroup.target) ∧
      ((reversals records).map fun g => (planned g).length).sum ≤
        (groups.map fun g => (planned g).length).sum := by
  induction recorded with
  | nil => exact ⟨List.Sublist.refl _, Nat.le_refl _⟩
  | @cons g r groups records rec rest ih =>
      obtain ⟨names, size⟩ := ih fun g' member => fit g' (List.mem_cons_of_mem g member)
      rcases reversals_step records (fit g List.mem_cons_self) rec with same | more
      · rw [same]
        exact ⟨names.cons _, by simp only [List.map_cons, List.sum_cons]; omega⟩
      · obtain ⟨back, reverses, same⟩ := more
        have bound := reverses.length_le
        rw [same]
        refine ⟨?_, by simp only [List.map_cons, List.sum_cons]; omega⟩
        rw [List.map_cons, List.map_cons, reverses.target]
        exact names.cons_cons _

theorem recorded_of_mem (recorded : Records groups records) (member : r ∈ records)
    (applied : r.outcome = APPLIED) : ∃ g ∈ groups, Recorded g r := by
  induction recorded with
  | nil => exact absurd member List.not_mem_nil
  | cons rec rest ih =>
      rcases List.mem_cons.mp member with rfl | later
      · exact ⟨_, List.mem_cons_self, rec applied⟩
      · obtain ⟨g, own, is⟩ := ih later
        exact ⟨g, List.mem_cons_of_mem _ own, is⟩

theorem mem_reversals : back ∈ reversals records ↔
    ∃ r ∈ records, r.outcome = APPLIED ∧ rolledGroup r = some back := by
  unfold reversals appliedGroups
  rw [List.mem_filterMap]
  simp only [List.mem_filter, decide_eq_true_eq, and_assoc]

theorem reverses_of_mem (recorded : Records groups records)
    (fit : ∀ g ∈ groups, FitGroup rollback g) (member : back ∈ reversals records) :
    ∃ g ∈ groups, ∃ r ∈ records, r.outcome = APPLIED ∧ Recorded g r ∧ Reverses g back := by
  obtain ⟨r, own, applied, rolled⟩ := mem_reversals.mp member
  obtain ⟨g, named, rec⟩ := recorded_of_mem recorded own applied
  exact ⟨g, named, r, own, applied, rec, reverses_rolledGroup (fit g named) rec rolled⟩

theorem positions_eq (plan : SwitchoverPlan) :
    plan.positions = (plan.groups.map fun g => (planned g).length).sum := by
  have group : ∀ g : PlanGroup,
      (g.topics.values.map fun t => t.offsets.entries.length).sum = (planned g).length := by
    intro g
    unfold planned SortedMap.values
    rw [List.length_flatMap, List.map_map]
    exact congrArg List.sum (List.map_congr_left fun entry _ => (List.length_map _).symm)
  unfold SwitchoverPlan.positions
  induction plan.groups with
  | nil => rfl
  | cons g groups ih =>
      rw [List.flatMap_cons, List.map_append, List.sum_append, ih, group, List.map_cons, List.sum_cons]

theorem accepted_rolledPlan (accepted : Accepted plan) (recorded : Records plan.groups records)
    (fit : FitRecord ref) (some_ : reversals records ≠ []) :
    Accepted (rolledPlan (recordOf runId plan records) ref) := by
  obtain ⟨names, size⟩ := reversals_within recorded accepted.each
  have each : ∀ back ∈ reversals records, FitGroup true back := by
    intro back member
    obtain ⟨g, -, r, -, -, -, reverses⟩ := reverses_of_mem recorded accepted.each member
    exact reverses.fit
  have positions := positions_eq (rolledPlan (recordOf runId plan records) ref)
  have format : (split '.' PLAN_FORMAT_VERSION).head? = some "1" := rfl
  constructor
  · exact format
  · exact accepted.restore
  · intro r same
    cases same
    exact fit
  · exact some_
  · have shorter := names.length_le
    rw [List.length_map, List.length_map] at shorter
    exact shorter.trans accepted.groups
  · obtain ⟨back, l, groups⟩ := List.exists_cons_of_ne_nil some_
    have commits := List.length_pos_of_ne_nil (planned_ne_nil (each back (groups ▸ List.mem_cons_self)))
    rw [positions]
    change ((reversals records).map fun g => (planned g).length).sum ≠ 0
    rw [groups, List.map_cons, List.sum_cons]
    omega
  · rw [positions]
    refine le_trans size ?_
    rw [← positions_eq]
    exact accepted.positions
  · exact accepted.distinct.sublist names
  · exact each

theorem rollbackPlan_ok {notes : List String} {reversed : SwitchoverPlan} {record : SwitchoverRecord}
    (built : rollbackPlan record ref = .ok (reversed, notes)) :
    reversed = rolledPlan record ref ∧ validate reversed = .ok () := by
  unfold rollbackPlan at built
  simp only [seq_eq_ok] at built
  obtain ⟨-, valid, same⟩ := built
  cases same
  exact ⟨rfl, valid⟩

theorem rollbackPlan_of_accepted {record : SwitchoverRecord}
    (accepted : Accepted (rolledPlan record ref)) :
    ∃ reversed notes, rollbackPlan record ref = .ok (reversed, notes) := by
  unfold rollbackPlan
  simp only [seq_eq_ok, refuseIf_eq_ok]
  refine ⟨_, _, by simpa using accepted.some_, validate_ok.mpr accepted, rfl⟩

theorem checkAgainstRecord_rolledPlan (accepted : Accepted plan)
    (recorded : Records plan.groups records) :
    checkAgainstRecord (rolledPlan (recordOf runId plan records) ref) (recordOf runId plan records) =
      .ok () := by
  refine forM_ok _ fun back member => ?_
  obtain ⟨g, named, r, own, applied, rec, reverses⟩ := reverses_of_mem recorded accepted.each member
  have meant : r.target = back.target := rec.target.trans reverses.target.symm
  unfold checkGroupReversed
  split
  · next none =>
      have other := List.find?_eq_none.mp none r own
      have unlike : r.target = back.target → ¬ r.outcome = APPLIED := by simpa using other
      exact absurd applied (unlike meant)
  · next r' first =>
      have held := List.find?_some first
      simp only [decide_eq_true_eq] at held
      obtain ⟨g', named', rec'⟩ := recorded_of_mem recorded (List.mem_of_find?_eq_some first) held.2
      have same : g' = g := List.inj_on_of_nodup_map accepted.distinct named' named
        (rec'.target.symm.trans (held.1.trans reverses.target))
      rw [same] at rec'
      refine forM_ok _ fun p planned_ => ?_
      obtain ⟨q, inside, part, expects, expected⟩ := reverses.only p planned_
      have kept : appliedAs q ∈ r'.partitions := rec'.partitions ▸ List.mem_map_of_mem inside
      have is : ∀ rp ∈ r'.partitions, rp.topic = p.topic ∧ rp.partition = p.partition →
          rp = appliedAs q := by
        intro rp found both
        rw [rec'.partitions] at found
        obtain ⟨q', inside', rfl⟩ := List.mem_map.mp found
        have one : q'.part = q.part := (Prod.ext both.1 both.2 : q'.part = p.part).trans part.symm
        rw [planned_unique inside' inside one]
      unfold checkReversed
      split
      · next none =>
          have other := List.find?_eq_none.mp none _ kept
          have own' : (appliedAs q).topic = p.topic ∧ (appliedAs q).partition = p.partition :=
            Prod.mk.inj part
          exact absurd own' (by simpa using other)
      · next rp first' =>
          have matched' := List.find?_some first'
          simp only [decide_eq_true_eq] at matched'
          rw [is rp (List.mem_of_find?_eq_some first') matched', refuseIf_eq_ok]
          simp [appliedAs, expects, expected]

end

end Logweir.Switchover
