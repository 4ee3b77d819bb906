import Logweir.Switchover.Accepted
import Logweir.Switchover.Apply

/-!
# What a commit is sent on

Before a commit the target group was found vacant, every planned offset inside its marks and
every partition where the plan expects it; a group is reported applied only when it read back
as planned.
-/

set_option autoImplicit false

namespace Logweir.Switchover

open Logweir.Results Logweir.SortedMaps Logweir.Programs Program

def PlanGroup.plans (g : PlanGroup) (part : Part) (offset : Int) : Prop :=
  ∃ t, g.topics.get? part.1 = some t ∧ t.offsets.get? part.2 = some offset

def PlanGroup.expects (g : PlanGroup) (part : Part) : Option Int :=
  (g.topics.get? part.1).bind fun t => t.expected.positionAt part.2

def plannedOffsets (g : PlanGroup) : List (Part × Int) :=
  (planned g).map fun p => (p.part, p.planned)

/-- Absent, or an inactive group without members. -/
def Vacant : TargetGroup → Prop
  | .absent => True
  | .consumer _ state members => members = 0 ∧ state ∈ INACTIVE_STATES
  | _ => False

def Within (marks : Marks) (part : Part) (offset : Int) : Prop :=
  ∃ start ending, marks.lookup part = some (start, ending) ∧ start ≤ offset ∧ offset ≤ ending

/-- Why a group may be committed to: how it was classified and what was read of it. -/
structure MayCommit (g : PlanGroup) (marks : Marks) (classified : TargetGroup) (priors : Positions) :
    Prop where
  vacant : Vacant classified
  within : ∀ p ∈ planned g, Within marks p.part p.planned
  expected : ∀ p ∈ planned g, priors.held p.part = p.expected
  differs : ∃ p ∈ planned g, priors.held p.part ≠ some p.planned

section

variable {plan : SwitchoverPlan} {g : PlanGroup} {marks : Marks} {p : PlannedPartition}
  {classified : TargetGroup} {priors : Positions}

theorem mem_planned : p ∈ planned g ↔ ∃ t, (p.topic, t) ∈ g.topics.entries ∧
    (p.partition, p.planned) ∈ t.offsets.entries ∧ p.expected = t.expected.positionAt p.partition ∧
    p.current = none := by
  unfold planned plannedTopic
  rw [List.mem_flatMap]
  constructor
  · rintro ⟨⟨topic, t⟩, entry, found⟩
    obtain ⟨⟨partition, offset⟩, held, rfl⟩ := List.mem_map.mp found
    exact ⟨t, entry, held, rfl, rfl⟩
  · rintro ⟨t, entry, held, expected, current⟩
    refine ⟨(p.topic, t), entry, List.mem_map.mpr ⟨(p.partition, p.planned), held, ?_⟩⟩
    obtain ⟨topic, partition, offset, expects, now⟩ := p
    simp_all

theorem plans_of_mem (member : p ∈ planned g) :
    g.plans p.part p.planned ∧ g.expects p.part = p.expected := by
  obtain ⟨t, entry, held, expected, -⟩ := mem_planned.mp member
  have topic := SortedMap.get?_eq_some.mpr entry
  refine ⟨⟨t, topic, SortedMap.get?_eq_some.mpr held⟩, ?_⟩
  rw [PlanGroup.expects, PlannedPartition.part, topic, expected]
  rfl

theorem mem_plannedOffsets {part : Part} {offset : Int} :
    (part, offset) ∈ plannedOffsets g ↔ g.plans part offset := by
  unfold plannedOffsets
  constructor
  · intro member
    obtain ⟨p, planned, same⟩ := List.mem_map.mp member
    cases same
    exact (plans_of_mem planned).1
  · rintro ⟨t, topic, held⟩
    refine List.mem_map.mpr ⟨⟨part.1, part.2, offset, t.expected.positionAt part.2, none⟩, ?_, rfl⟩
    exact mem_planned.mpr
      ⟨t, SortedMap.get?_eq_some.mp topic, SortedMap.get?_eq_some.mp held, rfl, rfl⟩

theorem parts_nodup (g : PlanGroup) : (parts g).Nodup := by
  have topics : ∀ l : List (String × PlanTopic), (l.Pairwise fun a b => a.1 < b.1) →
      ((l.flatMap plannedTopic).map PlannedPartition.part).Nodup := by
    intro l
    induction l with
    | nil => exact fun _ => List.nodup_nil
    | cons entry l ih =>
        intro sorted
        obtain ⟨least, rest⟩ := List.pairwise_cons.mp sorted
        rw [List.flatMap_cons, List.map_append]
        refine List.nodup_append'.mpr ⟨?_, ih rest, ?_⟩
        · have own : (plannedTopic entry).map PlannedPartition.part =
              entry.2.offsets.keys.map fun k => (entry.1, k) := by
            simp [plannedTopic, SortedMap.keys, PlannedPartition.part]
          rw [own]
          exact entry.2.offsets.keys_nodup.map fun a b same => (Prod.mk.inj same).2
        · intro part here there
          obtain ⟨p, planned, rfl⟩ := List.mem_map.mp here
          obtain ⟨o, -, rfl⟩ := List.mem_map.mp planned
          obtain ⟨q, planned', same⟩ := List.mem_map.mp there
          obtain ⟨entry', later, found⟩ := List.mem_flatMap.mp planned'
          obtain ⟨o', -, rfl⟩ := List.mem_map.mp found
          have topic : entry'.1 = entry.1 := (Prod.mk.inj same).1
          exact (least entry' later).ne' topic
  exact topics g.topics.entries g.topics.sorted

theorem map_fst_plannedOffsets : (plannedOffsets g).map Prod.fst = parts g := by
  unfold plannedOffsets parts
  rw [List.map_map]
  rfl

theorem planned_ne_nil_of_entry {topic : String} {t : PlanTopic} (entry : (topic, t) ∈ g.topics.entries)
    (some_ : t.offsets.isEmpty = false) : planned g ≠ [] := by
  obtain ⟨o, l, offsets⟩ := List.exists_cons_of_ne_nil (List.isEmpty_eq_false_iff.mp some_)
  have held : o ∈ t.offsets.entries := offsets ▸ List.mem_cons_self
  have member : (⟨topic, o.1, o.2, t.expected.positionAt o.1, none⟩ : PlannedPartition) ∈ planned g :=
    mem_planned.mpr ⟨t, entry, held, rfl, rfl⟩
  exact List.ne_nil_of_mem member

theorem planned_ne_nil {rollback : Bool} (fit : FitGroup rollback g) : planned g ≠ [] := by
  obtain ⟨⟨topic, t⟩, l, topics⟩ := List.exists_cons_of_ne_nil (List.isEmpty_eq_false_iff.mp fit.some_)
  have entry : (topic, t) ∈ g.topics.entries := topics ▸ List.mem_cons_self
  exact planned_ne_nil_of_entry entry (fit.topics _ entry).some_

theorem vacant_of_admitted {creates : Bool} (admitted : admitGroup classified = .ok creates) :
    Vacant classified := by
  unfold admitGroup at admitted
  cases classified with
  | absent => trivial
  | consumer groupType state members =>
      dsimp only at admitted
      split_ifs at admitted with active
      rw [not_or, not_lt, not_not] at active
      exact ⟨Nat.le_zero.mp active.1, active.2⟩
  | _ => cases admitted

theorem checkBounds_ok : checkBounds (planned g) marks = .ok () ↔
    ∀ p ∈ planned g, Within marks p.part p.planned := by
  have each : ∀ p : PlannedPartition,
      checkBound marks p = .ok () ↔ Within marks p.part p.planned := by
    intro p
    unfold checkBound Within
    cases found : marks.lookup p.part with
    | none => simp
    | some range =>
        obtain ⟨start, ending⟩ := range
        dsimp only
        split_ifs with below above
        · simp [below]
        · simp [above]
        · simpa using ⟨not_lt.mp below, not_lt.mp above⟩
  exact forM_iff.trans (forall₂_congr fun p _ => each p)

theorem forall_withPriors {holds : PlannedPartition → Prop} : (∀ p ∈ withPriors g priors, holds p) ↔
    ∀ p ∈ planned g, holds { p with current := priors.held p.part } :=
  List.forall_mem_map

theorem compare_alreadyApplied (some_ : planned g ≠ []) :
    compare (withPriors g priors) = .alreadyApplied ↔
      ∀ p ∈ planned g, priors.held p.part = some p.planned := by
  have shape : (withPriors g priors).isEmpty = false := by simpa [withPriors] using some_
  unfold compare
  split_ifs with already expected
  · exact iff_of_true rfl (forall_withPriors.mp already.2)
  · exact iff_of_false (by simp) fun all => already ⟨by rw [shape]; rfl, forall_withPriors.mpr all⟩
  · exact iff_of_false (by simp) fun all => already ⟨by rw [shape]; rfl, forall_withPriors.mpr all⟩

theorem compare_apply (some_ : planned g ≠ []) : compare (withPriors g priors) = .apply ↔
    (∀ p ∈ planned g, priors.held p.part = p.expected) ∧
      ∃ p ∈ planned g, priors.held p.part ≠ some p.planned := by
  have shape : (withPriors g priors).isEmpty = false := by simpa [withPriors] using some_
  have differs : (∃ p ∈ planned g, priors.held p.part ≠ some p.planned) ↔
      ¬ ∀ p ∈ planned g, priors.held p.part = some p.planned := by simp
  rw [differs]
  unfold compare
  split_ifs with already expected
  · exact iff_of_false (by simp) fun both => both.2 (forall_withPriors.mp already.2)
  · refine iff_of_true rfl ⟨forall_withPriors.mp expected, fun all => ?_⟩
    exact already ⟨by rw [shape]; rfl, forall_withPriors.mpr all⟩
  · exact iff_of_false (by simp) fun both => expected (forall_withPriors.mpr both.1)

end

def found (g : PlanGroup) (classified : TargetGroup) : Event Call Answer :=
  ⟨Call.classify g.target, classified⟩

def reading (g : PlanGroup) (listed : Bool) (read : Except ReadFailure Positions) :
    Event Call Answer :=
  ⟨Call.committed g.target (parts g) listed, read⟩

def sent (g : PlanGroup) (answer : Except CommitFailure Unit) : Event Call Answer :=
  ⟨Call.commit g.target (plannedOffsets g), answer⟩

/-- What was asked before a commit, and that it warrants it. -/
def Warranted (g : PlanGroup) (marks : Marks) (before : Log) : Prop :=
  ∃ classified listed priors, before = [found g classified, reading g listed (.ok priors)] ∧
    MayCommit g marks classified priors

/-- A call that may be made: a commit is the group's own and warranted. -/
def Justified (g : PlanGroup) (marks : Marks) (log : Log) : Call → Prop
  | .commit target positions =>
      target = g.target ∧ positions = plannedOffsets g ∧ Warranted g marks log
  | .classify group => group = g.target
  | .committed group _ _ => group = g.target

def appliedPartition (priors : Positions) (p : PlannedPartition) : PartitionRecord where
  topic := p.topic
  partition := p.partition
  prior := priors.held p.part
  planned := p.planned
  applied := .known true
  readback := some p.planned

/-- A group reported applied: the calls made for it, and what it is recorded as. -/
def Confirmed (g : PlanGroup) (marks : Marks) (log : Log) (r : GroupRecord) : Prop :=
  ∃ classified listed priors back, log = [found g classified, reading g listed (.ok priors),
      sent g (.ok ()), reading g true (.ok back)] ∧ MayCommit g marks classified priors ∧
    (∀ p ∈ planned g, Positions.held back p.part = some p.planned) ∧
    r.source = g.source ∧ r.target = g.target ∧
    r.partitions = (planned g).map (appliedPartition priors)

/-- What the decision comes to, by its verdict. -/
def Decides (g : PlanGroup) (marks : Marks) (log : Log) (d : Decided) : Prop :=
  match d.verdict with
  | .stop r => r.outcome ≠ APPLIED
  | .alreadyApplied => True
  | .commit creates => ∃ classified listed priors,
      log = [found g classified, reading g listed (.ok priors)] ∧
        MayCommit g marks classified priors ∧ d.parts = withPriors g priors ∧ d.priors = some priors

section

variable {plan : SwitchoverPlan} {g : PlanGroup} {marks : Marks} {classified : TargetGroup}
  {priors : Positions} {log : Log} {creates : Bool}

theorem decides_stopped {outcome reason : String} (other : outcome ≠ APPLIED) :
    Decides g marks log (stopped g classified outcome reason) := other

theorem decides_notAdmitted {reason : String} :
    Decides g marks log (notAdmitted g classified reason) := by
  unfold notAdmitted
  split_ifs
  · exact decides_stopped (by decide)
  · exact decides_stopped (by decide)

theorem decides_unread {e : ReadFailure} : Decides g marks log (unread g classified e) := by
  cases e <;> exact decides_stopped (by decide)

theorem decides_compared {listed : Bool} (some_ : planned g ≠ [])
    (logged : log = [found g classified, reading g listed (.ok priors)])
    (vacant : Vacant classified) (within : ∀ p ∈ planned g, Within marks p.part p.planned) :
    Decides g marks log (compared g classified creates priors) := by
  unfold Decides
  cases decided : compare (withPriors g priors) with
  | alreadyApplied => simp [compared, decided]
  | changed changed =>
      have refused : (moved g classified priors changed).outcome ≠ APPLIED := by
        have named : (moved g classified priors changed).outcome = REFUSED := rfl
        rw [named]
        decide
      simpa [compared, decided] using refused
  | apply =>
      obtain ⟨expected, differs⟩ := (compare_apply some_).mp decided
      simp only [compared, decided]
      exact ⟨classified, listed, priors, logged, ⟨vacant, within, expected, differs⟩, rfl, rfl⟩

theorem meets_decideGroup (some_ : planned g ≠ []) :
    (decideGroup g marks).Meets (Justified g marks) (Decides g marks) [] := by
  unfold decideGroup
  refine meets_ask rfl fun classified => ?_
  cases admitted : admitGroup classified with
  | error reason => exact meets_pure decides_notAdmitted
  | ok creates =>
      cases bounds : checkBounds (planned g) marks with
      | error why => exact meets_pure (decides_stopped (by decide))
      | ok u =>
          refine meets_ask rfl fun read => ?_
          cases read with
          | error e => exact meets_pure decides_unread
          | ok priors =>
              exact meets_pure (decides_compared some_ rfl (vacant_of_admitted admitted)
                (checkBounds_ok.mp bounds))

theorem map_part_withPriors :
    (withPriors g priors).map PlannedPartition.part = parts g := by
  unfold withPriors parts
  rw [List.map_map]
  rfl

theorem map_planned_withPriors :
    ((withPriors g priors).map fun p => (p.part, p.planned)) = plannedOffsets g := by
  unfold withPriors plannedOffsets
  rw [List.map_map]
  rfl

theorem readsBack_iff {back : Positions} : readsBack (withPriors g priors) (some back) = true ↔
    ∀ p ∈ planned g, Positions.held back p.part = some p.planned := by
  unfold readsBack
  rw [Option.any_some, List.all_eq_true, forall_withPriors]
  exact forall₂_congr fun p _ => decide_eq_true_iff

theorem recordPartition_applied {back : Positions} {unknown : Bool} {p : PlannedPartition}
    {current : Option Int} (held : Positions.held back p.part = some p.planned) :
    recordPartition (some priors) (some back) unknown { p with current := current } =
      appliedPartition priors p := by
  have same : Positions.held back (p.topic, p.partition) = some p.planned := held
  simp [recordPartition, appliedPartition, PlannedPartition.part, same]

theorem confirmed_accepted {listed : Bool} {back : Except ReadFailure Positions} {d : Decided}
    (own : d.parts = withPriors g priors) (may : MayCommit g marks classified priors)
    (applied : (acceptedRecord g d priors creates back.toOption).outcome = APPLIED) :
    Confirmed g marks [found g classified, reading g listed (.ok priors), sent g (.ok ()),
      reading g true back] (acceptedRecord g d priors creates back.toOption) := by
  have reads : readsBack d.parts back.toOption = true := by
    by_contra short
    have failed : (acceptedRecord g d priors creates back.toOption).outcome = FAILED := by
      simp [acceptedRecord, record, short]
    rw [failed] at applied
    exact absurd applied (by decide)
  cases back with
  | error e => cases reads
  | ok back =>
      rw [own] at reads
      have planned_ := readsBack_iff.mp reads
      refine ⟨classified, listed, priors, back, rfl, may, planned_, rfl, rfl, ?_⟩
      change d.parts.map (recordPartition (some priors) (some back) _) = _
      rw [own, withPriors, List.map_map]
      exact List.map_congr_left fun p member => recordPartition_applied (planned_ p member)

theorem failedRecord_ne {d : Decided} {failure : CommitFailure} {back : Option Positions} :
    (failedRecord g d priors failure back).outcome ≠ APPLIED := by
  have named : (failedRecord g d priors failure back).outcome = (failureOutcome failure).1 := rfl
  rw [named]
  cases failure <;> exact of_decide_eq_true rfl

theorem meets_commitGroup {d : Decided} {listed : Bool}
    (own : d.parts = withPriors g priors) (may : MayCommit g marks classified priors) :
    (commitGroup g d priors creates).Meets (Justified g marks)
      (fun log r => r.outcome = APPLIED → Confirmed g marks log r)
      [found g classified, reading g listed (.ok priors)] := by
  unfold commitGroup
  rw [own, map_planned_withPriors, map_part_withPriors]
  refine meets_ask ⟨rfl, rfl, classified, listed, priors, rfl, may⟩ fun answer => ?_
  refine meets_ask rfl fun back => ?_
  cases answer with
  | ok u => exact meets_pure fun applied => confirmed_accepted own may applied
  | error failure => exact meets_pure fun applied => absurd applied failedRecord_ne

theorem meets_applyGroup (marks : Marks) (some_ : planned g ≠ []) :
    (applyGroup g marks).Meets (Justified g marks)
      (fun log r => r.outcome = APPLIED → Confirmed g marks log r) [] := by
  unfold applyGroup
  refine meets_bind (meets_decideGroup some_) fun log d decides => ?_
  unfold Decides at decides
  cases verdict : d.verdict with
  | stop r =>
      rw [verdict] at decides
      exact meets_pure fun applied => absurd applied decides
  | alreadyApplied =>
      have other : ALREADY_APPLIED ≠ APPLIED := by decide
      exact meets_pure fun applied => absurd applied other
  | commit creates =>
      rw [verdict] at decides
      obtain ⟨classified, listed, priors, rfl, may, own, held⟩ := decides
      rw [held]
      exact meets_commitGroup own may

/-- However the target answers and whatever happens between two calls, a group of an accepted
plan is sent one commit at most, of exactly what it plans, on what was just read of it; it is
reported applied only when that commit was accepted and read back. -/
theorem applyGroup_compares_and_sets (valid : validate plan = .ok ()) (member : g ∈ plan.groups)
    {rest : Run GroupRecord} (traced : Traced (applyGroup g marks) log rest) :
    (log.countP fun e => e.call.isCommit) ≤ 1 ∧
    (∀ before after target positions answer,
      log = before ++ (⟨Call.commit target positions, answer⟩ : Event Call Answer) :: after →
        target = g.target ∧ (positions.map Prod.fst).Nodup ∧
        (∀ part offset, (part, offset) ∈ positions ↔ g.plans part offset) ∧
        Warranted g marks before) ∧
    ∀ r, rest = .done r → r.outcome = APPLIED → Confirmed g marks log r := by
  have some_ := planned_ne_nil ((validate_ok.mp valid).each g member)
  have meets := meets_applyGroup marks some_
  refine ⟨?_, ?_, ?_⟩
  · refine meets.countP_le_one (fun log c asked sends e early => ?_) traced
    cases c with
    | commit target positions =>
        obtain ⟨-, -, classified, listed, priors, rfl, -⟩ := asked
        rcases List.mem_cons.mp early with rfl | early
        · rfl
        · rw [List.mem_singleton.mp early]
          rfl
    | _ => cases sends
  · rintro before after target positions answer rfl
    obtain ⟨own, exactly, warranted⟩ := meets.justified traced
    subst exactly
    exact ⟨own, map_fst_plannedOffsets ▸ parts_nodup g, fun _ _ => mem_plannedOffsets, warranted⟩
  · rintro r rfl applied
    exact meets.ended traced applied

end

def zeros : String := "sha256:" ++ String.ofList (List.replicate 64 '0')

def ordersGroup : PlanGroup where
  source := "orders"
  target := "orders"
  topics := SortedMap.empty.insert "restored-orders"
    { offsets := SortedMap.empty.insert 0 20, expected := .positions (SortedMap.empty.insert 0 5) }

def ordersPlan : SwitchoverPlan where
  formatVersion := PLAN_FORMAT_VERSION
  restore := ⟨"nightly", "6f1c", zeros, zeros, zeros⟩
  groups := [ordersGroup]

def orders : Part := ("restored-orders", 0)

def emptyGroup : TargetGroup := .consumer "classic" "Empty" 0

theorem ordersPlan_valid : validate ordersPlan = .ok () := rfl

def ordersLog : Log :=
  [found ordersGroup emptyGroup, reading ordersGroup true (.ok [(orders, some 5)]),
    sent ordersGroup (.ok ()), reading ordersGroup true (.ok [(orders, some 20)])]

def ordersRecord : GroupRecord :=
  acceptedRecord ordersGroup (compared ordersGroup emptyGroup false [(orders, some 5)])
    [(orders, some 5)] false (some [(orders, some 20)])

theorem traced_orders :
    Traced (applyGroup ordersGroup [(orders, (0, 100))]) ordersLog (.done ordersRecord) :=
  .asked (.asked (.asked (.asked (.here _))))

theorem applyGroup_compares_and_sets_orders :
    ordersRecord.outcome = APPLIED ∧ Confirmed ordersGroup [(orders, (0, 100))] ordersLog ordersRecord :=
  ⟨rfl, (applyGroup_compares_and_sets ordersPlan_valid (List.mem_singleton_self _)
    traced_orders).2.2 _ rfl rfl⟩

end Logweir.Switchover
