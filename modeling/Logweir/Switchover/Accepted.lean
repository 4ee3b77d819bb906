import Logweir.Switchover.Plan

/-!
# Accepted plans

What a plan that passes its own checks is, and that such a plan passes them.
-/

set_option autoImplicit false

namespace Logweir.Switchover

open Logweir.Text Logweir.Results Logweir.SortedMaps
open Logweir.PositionsMapping (isSha256Prefixed)

def FitId (id : String) : Prop :=
  trim id ≠ "" ∧ id.toList.any isControl = false ∧ id.utf8ByteSize ≤ MAX_GROUP_ID_BYTES

/-- What a topic expects is stated for its partitions, and by a rollback always. -/
def FitExpected (rollback : Bool) (offsets : SortedMap Nat Int) : Expected → Prop
  | .word => rollback = false
  | .positions m => m.keys = offsets.keys ∧ ∀ o ∈ m.values, 0 ≤ o

structure FitTopic (rollback : Bool) (entry : String × PlanTopic) : Prop where
  named : trim entry.1 ≠ ""
  some_ : entry.2.offsets.isEmpty = false
  offsets : ∀ e ∈ entry.2.offsets.entries, 0 ≤ e.2
  approximate : ∀ p ∈ entry.2.approximate, p ∈ entry.2.offsets.keys
  expected : FitExpected rollback entry.2.offsets entry.2.expected

structure FitGroup (rollback : Bool) (g : PlanGroup) : Prop where
  source : FitId g.source
  target : FitId g.target
  some_ : g.topics.isEmpty = false
  topics : ∀ entry ∈ g.topics.entries, FitTopic rollback entry

structure FitRestore (restore : RestoreRef) : Prop where
  name : trim restore.name ≠ ""
  uid : trim restore.uid ≠ ""
  planHash : isSha256Prefixed restore.planHash = true
  scorecard : isSha256Prefixed restore.scorecardSha256 = true
  mapping : isSha256Prefixed restore.mappingSha256 = true

structure FitRecord (r : RecordRef) : Prop where
  key : (recordRunId r.key).isSome = true
  digest : isSha256Prefixed r.sha256 = true

structure Accepted (plan : SwitchoverPlan) : Prop where
  format : (split '.' plan.formatVersion).head? = some "1"
  restore : FitRestore plan.restore
  rollbackOf : ∀ r, plan.rollbackOf = some r → FitRecord r
  some_ : plan.groups ≠ []
  groups : plan.groups.length ≤ MAX_GROUPS
  commits : plan.positions ≠ 0
  positions : plan.positions ≤ MAX_POSITIONS
  distinct : (plan.groups.map PlanGroup.target).Nodup
  each : ∀ g ∈ plan.groups, FitGroup plan.rollbackOf.isSome g

section

variable {plan : SwitchoverPlan} {g : PlanGroup} {rollback : Bool} {what id source topic : String}
  {entry : String × PlanTopic} {targets : List String}

theorem refuseFound_ok {α : Type} {found : Option α} {words : α → String} :
    refuseFound found words = .ok () ↔ found = none := by
  cases found with
  | none => exact ⟨fun _ => rfl, fun _ => rfl⟩
  | some a => simp [refuseFound]

theorem checkId_ok : checkId what id = .ok () ↔ FitId id := by
  unfold checkId idFault FitId
  rw [refuseFound_ok]
  simp

theorem checkExpected_ok {offsets : SortedMap Nat Int} {expected : Expected} :
    checkExpected rollback source topic offsets expected = .ok () ↔
      FitExpected rollback offsets expected := by
  cases expected with
  | word =>
      rw [checkExpected, refuseIf_eq_ok, FitExpected]
      simp
  | positions m =>
      rw [checkExpected, refuseIf_eq_ok, FitExpected]
      simp

theorem checkTopic_ok : checkTopic rollback source entry = .ok () ↔ FitTopic rollback entry := by
  unfold checkTopic
  simp only [seq_eq_ok, refuseIf_eq_ok, refuseFound_ok, checkExpected_ok]
  constructor
  · rintro ⟨shape, offsets, approximate, expected⟩
    rw [not_or] at shape
    refine ⟨shape.1, by simpa using shape.2, ?_, ?_, expected⟩
    · simpa using offsets
    · simpa using approximate
  · rintro ⟨named, some_, offsets, approximate, expected⟩
    refine ⟨?_, ?_, ?_, expected⟩
    · simp [named, some_]
    · simpa using offsets
    · simpa using approximate

theorem forM_iff {α ε : Type} {f : α → Except ε Unit} {l : List α} :
    l.forM f = .ok () ↔ ∀ a ∈ l, f a = .ok () :=
  ⟨ok_of_forM l, forM_ok l⟩

theorem checkGroup_ok {targets' : List String} : checkGroup rollback targets g = .ok targets' ↔
    FitGroup rollback g ∧ g.target ∉ targets ∧ targets' = g.target :: targets := by
  unfold checkGroup
  simp only [seq_eq_ok, refuseIf_eq_ok, checkId_ok, forM_iff, checkTopic_ok]
  constructor
  · rintro ⟨source, target, fresh, some_, topics, same⟩
    cases same
    exact ⟨⟨source, target, by simpa using some_, topics⟩, by simpa using fresh, rfl⟩
  · rintro ⟨⟨source, target, some_, topics⟩, fresh, rfl⟩
    exact ⟨source, target, by simpa using fresh, by simpa using some_, topics, rfl⟩

theorem checkGroups_ok : ∀ (groups : List PlanGroup) (targets : List String),
    (∃ all, groups.foldlM (checkGroup rollback) targets = .ok all) ↔
      (∀ g ∈ groups, FitGroup rollback g) ∧ (groups.map PlanGroup.target).Nodup ∧
        ∀ g ∈ groups, g.target ∉ targets := by
  intro groups
  induction groups with
  | nil => exact fun targets => ⟨fun _ => by simp, fun _ => ⟨targets, rfl⟩⟩
  | cons g groups ih =>
      intro targets
      have step : (∃ all, (g :: groups).foldlM (checkGroup rollback) targets = .ok all) ↔
          (FitGroup rollback g ∧ g.target ∉ targets) ∧
            ∃ all, groups.foldlM (checkGroup rollback) (g.target :: targets) = .ok all := by
        simp only [List.foldlM_cons, bind_eq_ok, checkGroup_ok]
        constructor
        · rintro ⟨all, middle, ⟨fit, fresh, rfl⟩, rest⟩
          exact ⟨⟨fit, fresh⟩, all, rest⟩
        · rintro ⟨⟨fit, fresh⟩, all, rest⟩
          exact ⟨all, _, ⟨fit, fresh, rfl⟩, rest⟩
      rw [step, ih]
      rw [List.forall_mem_cons, List.forall_mem_cons, List.map_cons, List.nodup_cons]
      simp only [List.mem_map, List.mem_cons, not_or, not_exists, not_and]
      constructor
      · rintro ⟨⟨fit, fresh⟩, each, distinct, apart⟩
        exact ⟨⟨fit, each⟩, ⟨fun h member => (apart h member).1, distinct⟩,
          fresh, fun h member => (apart h member).2⟩
      · rintro ⟨⟨fit, each⟩, ⟨apart, distinct⟩, fresh, others⟩
        exact ⟨⟨fit, fresh⟩, each, distinct, fun h member => ⟨apart h member, others h member⟩⟩

theorem checkRestore_ok {restore : RestoreRef} : checkRestore restore = .ok () ↔ FitRestore restore := by
  unfold checkRestore
  simp only [seq_eq_ok, forM_iff, refuseIf_eq_ok, List.forall_mem_cons, Bool.not_eq_false]
  constructor
  · rintro ⟨⟨name, uid, -⟩, planHash, scorecard, mapping, -⟩
    exact ⟨name, uid, planHash, scorecard, mapping⟩
  · rintro ⟨name, uid, planHash, scorecard, mapping⟩
    exact ⟨⟨name, uid, by simp⟩, planHash, scorecard, mapping, by simp⟩

theorem checkRollbackOf_ok {ref : Option RecordRef} :
    checkRollbackOf ref = .ok () ↔ ∀ r, ref = some r → FitRecord r := by
  cases ref with
  | none => simp [checkRollbackOf]
  | some r =>
      unfold checkRollbackOf
      simp only [seq_eq_ok, refuseIf_eq_ok, Bool.not_eq_false, Option.some.injEq, forall_eq']
      exact ⟨fun ⟨key, digest⟩ => ⟨Option.isSome_iff_ne_none.mpr key, digest⟩,
        fun fit => ⟨Option.isSome_iff_ne_none.mp fit.key, fit.digest⟩⟩

theorem validate_ok : validate plan = .ok () ↔ Accepted plan := by
  have walk : (∃ all, plan.groups.foldlM (checkGroup plan.rollbackOf.isSome) [] = .ok all ∧
      (pure () : Except String Unit) = .ok ()) ↔
      ∃ all, plan.groups.foldlM (checkGroup plan.rollbackOf.isSome) [] = .ok all :=
    exists_congr fun all => and_iff_left rfl
  unfold validate
  simp only [seq_eq_ok, refuseIf_eq_ok, checkRestore_ok, checkRollbackOf_ok]
  rw [bind_eq_ok, walk, checkGroups_ok]
  simp only [not_or, not_not, not_lt, List.isEmpty_iff]
  constructor
  · rintro ⟨format, restore, rollbackOf, ⟨some_, groups⟩, ⟨commits, positions⟩, each, distinct, -⟩
    exact ⟨format, restore, rollbackOf, some_, groups, commits, positions, distinct, each⟩
  · rintro ⟨format, restore, rollbackOf, some_, groups, commits, positions, distinct, each⟩
    exact ⟨format, restore, rollbackOf, ⟨some_, groups⟩, ⟨commits, positions⟩, each, distinct,
      by simp⟩

end

end Logweir.Switchover
