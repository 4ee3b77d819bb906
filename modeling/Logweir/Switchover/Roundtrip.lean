import Logweir.Switchover.Restored

/-!
# The rollback and the second run

What applying a rollback leaves of a run, and what applying the same plan again does, on a
target that no one else touches.
-/

set_option autoImplicit false

namespace Logweir.Switchover

open Logweir.Text Logweir.Results Logweir.SortedMaps Logweir.Programs Program
open Logweir.PositionsMapping (isSha256Prefixed)

/-- A partition of a group that was reported applied, and that had a position. -/
def TakenOver (records : List GroupRecord) (group : String) (part : Part) : Prop :=
  ∃ r ∈ records, r.outcome = APPLIED ∧ r.target = group ∧
    ∃ p ∈ r.partitions, p.part = part ∧ p.prior.isSome = true

/-- Every position that a record says was there is inside the target's marks. -/
def PriorsWithin (marks : Marks) (r : GroupRecord) : Prop :=
  ∀ p ∈ r.partitions, ∀ prior, p.prior = some prior → Within marks p.part prior

def PlannedWithin (marks : Marks) (r : GroupRecord) : Prop :=
  ∀ p ∈ r.partitions, Within marks p.part p.planned

section

variable {plan : SwitchoverPlan} {marks marks' : Marks} {log log' : Log}
  {records records' : List GroupRecord} {s₀ s₁ s₂ : Cluster} {runId sha256 : String} {ref : RecordRef}
  {g back : PlanGroup} {r : GroupRecord}

theorem stripSuffix_append (s ending : String) : stripSuffix ending (s ++ ending) = some s := by
  unfold stripSuffix
  have ends : ending.toList.isSuffixOf (s ++ ending).toList = true := by
    rw [String.toList_append, List.isSuffixOf_iff_suffix]
    exact List.suffix_append _ _
  rw [if_pos ends, String.toList_append, List.length_append, Nat.add_sub_cancel,
    List.take_left, String.ofList_toList]

theorem fit_recordRef {record : SwitchoverRecord} (segment : isRunIdSegment record.runId = true)
    (digest : isSha256Prefixed sha256 = true) : FitRecord (recordRef record sha256) := by
  refine ⟨?_, digest⟩
  have named : recordRunId (recordKey record.runId) = some record.runId := by
    unfold recordRunId recordKey
    rw [String.append_assoc, stripPrefix_append, Option.bind_some, stripSuffix_append,
      Option.filter_some, if_pos segment]
  rw [recordRef, named]
  rfl

theorem rolledGroup_of_prior (recorded : Recorded g r) {p : PartitionRecord}
    (member : p ∈ r.partitions) (had : p.prior.isSome = true) : ∃ back, rolledGroup r = some back := by
  refine Option.isSome_iff_exists.mp (Option.isSome_iff_ne_none.mpr fun none => ?_)
  rw [recorded.partitions] at member
  obtain ⟨q, planned_, rfl⟩ := List.mem_map.mp member
  have nothing := expected_of_rolledGroup_none recorded none planned_
  rw [appliedAs, nothing] at had
  cases had

theorem prior_restored (accepted : Accepted plan)
    (traced : Traced (applyPlan plan marks) log (.done records)) (serving : Serving Serves s₀ log s₁)
    (reversed : Accepted (rolledPlan (recordOf runId plan records) ref))
    (traced' : Traced (applyPlan (rolledPlan (recordOf runId plan records) ref) marks') log'
      (.done records')) (serving' : Serving Serves s₁ log' s₂)
    (member : r ∈ records) (applied : r.outcome = APPLIED) (answered : Answered log' r.target)
    (within : PriorsWithin marks' r) {p : PartitionRecord} (own : p ∈ r.partitions) {prior : Int}
    (had : p.prior = some prior) :
    s₀.positions r.target p.part = some prior ∧ s₂.positions r.target p.part = some prior := by
  obtain ⟨g, named, brought⟩ := brought_of_run accepted traced serving member applied
  have recorded := brought.recorded
  obtain ⟨back, rolled⟩ := rolledGroup_of_prior recorded own (by rw [had]; rfl)
  have reverses := reverses_rolledGroup (accepted.each g named) recorded rolled
  have fit := own
  rw [recorded.partitions] at fit
  obtain ⟨q, planned_, rfl⟩ := List.mem_map.mp fit
  have types : s₀.typesGroups = true := by
    by_contra bare
    have nothing := brought.untyped (Bool.eq_false_iff.mpr bare) q planned_
    rw [appliedAs, nothing] at had
    cases had
  obtain ⟨runs, groups, -, -, each⟩ := visited_of_run reversed traced' serving'
  have listed : back ∈ runs.map Prod.fst := groups ▸ mem_reversals.mpr ⟨r, member, applied, rolled⟩
  obtain ⟨run, among, rfl⟩ := List.mem_map.mp listed
  have target : run.1.target = r.target := reverses.target.trans recorded.target.symm
  have visited := each run among
  obtain ⟨met, left, during, same, same', -⟩ := visited.served
  have vacant : Vacant (met.kind run.1.target) := by
    rw [kind_of_group same, reverses.target]
    exact (types ▸ brought.settled : Settled true _).vacant
  have inside : ∀ p ∈ planned run.1, Within marks' p.part p.planned := by
    intro p member
    obtain ⟨q, planned_, part, expects, -⟩ := reverses.only p member
    have recordedAs : appliedAs q ∈ r.partitions := recorded.partitions ▸ List.mem_map_of_mem planned_
    exact part ▸ within _ recordedAs _ expects
  have there : ∀ p ∈ planned run.1, met.positions run.1.target p.part = p.expected := by
    intro p member
    obtain ⟨q, planned_, part, -, expected⟩ := reverses.only p member
    rw [positions_of_group same, reverses.target, ← part, brought.after q planned_, expected]
  have restored := planned_of_answered (planned_ne_nil reverses.fit) visited.traced during
    (fun e called about => answered e (visited.inside e called) (about.trans target)) vacant inside
    there
  obtain ⟨p, member', part, rfl, -⟩ := reverses.all q planned_ prior had
  refine ⟨?_, ?_⟩
  · rw [recorded.target]
    exact (brought.before q planned_).trans had
  · have end_ := restored p member'
    rw [← positions_of_group same', part, target] at end_
    exact end_

theorem others_kept (accepted : Accepted plan)
    (traced : Traced (applyPlan plan marks) log (.done records)) (serving : Serving Serves s₀ log s₁)
    (reversed : Accepted (rolledPlan (recordOf runId plan records) ref))
    (traced' : Traced (applyPlan (rolledPlan (recordOf runId plan records) ref) marks') log'
      (.done records')) (serving' : Serving Serves s₁ log' s₂) {group : String} {part : Part}
    (other : ¬ TakenOver records group part) :
    s₂.positions group part = s₁.positions group part := by
  refine Serving.kept (f := fun s => s.positions group part) (fun c => ∃ positions,
    c = Call.commit group positions ∧ part ∈ positions.map Prod.fst)
    (fun s c answer s' served apart => ?_) serving' ?_
  · exact serves_uncommitted served fun positions same inside => apart ⟨positions, same, inside⟩
  · rintro e called ⟨positions, commits, inside⟩
    obtain ⟨runs, groups, -, covered, each⟩ := visited_of_run reversed traced' serving'
    obtain ⟨run, among, own⟩ := covered e called
    have listed : run.1 ∈ reversals records := by
      have named : run.1 ∈ runs.map Prod.fst := List.mem_map_of_mem among
      rwa [groups] at named
    obtain ⟨g, named, r, member, applied, recorded, reverses⟩ :=
      reverses_of_mem (records_of_run accepted traced serving) accepted.each listed
    obtain ⟨about, exactly⟩ := own_calls (planned_ne_nil reverses.fit) (each run among).traced own
    rw [exactly group positions commits, map_fst_plannedOffsets] at inside
    obtain ⟨p, planned_, rfl⟩ := List.mem_map.mp inside
    obtain ⟨q, planned', same, expects, -⟩ := reverses.only p planned_
    rw [commits] at about
    refine other ⟨r, member, applied, ?_, appliedAs q, ?_, same, ?_⟩
    · exact recorded.target.trans (reverses.target.symm.trans about.symm)
    · exact recorded.partitions ▸ List.mem_map_of_mem planned'
    · rw [appliedAs, expects]
      rfl

theorem again_already (accepted : Accepted plan)
    (traced : Traced (applyPlan plan marks) log (.done records)) (serving : Serving Serves s₀ log s₁)
    (traced' : Traced (applyPlan plan marks') log' (.done records'))
    (serving' : Serving Serves s₁ log' s₂) (types : s₀.typesGroups = true) (member : r ∈ records)
    (applied : r.outcome = APPLIED) (answered : Answered log' r.target)
    (within : PlannedWithin marks' r) :
    (∀ e ∈ log', e.call.group = r.target → e.call.isCommit = false) ∧
      (∃ r' ∈ records', r'.target = r.target ∧ r'.outcome = ALREADY_APPLIED) ∧
      s₂.group r.target = s₁.group r.target := by
  obtain ⟨g, named, brought⟩ := brought_of_run accepted traced serving member applied
  have recorded := brought.recorded
  have target := recorded.target
  obtain ⟨runs, groups, rfl, -, each⟩ := visited_of_run accepted traced' serving'
  have listed : g ∈ runs.map Prod.fst := groups ▸ named
  obtain ⟨run, among, rfl⟩ := List.mem_map.mp listed
  have visited := each run among
  obtain ⟨met, left, during, same, same', -⟩ := visited.served
  have vacant : Vacant (met.kind run.1.target) := by
    rw [kind_of_group same]
    exact (types ▸ brought.settled : Settled true _).vacant
  have inside : ∀ p ∈ planned run.1, Within marks' p.part p.planned := fun p planned_ =>
    within (appliedAs p) (recorded.partitions ▸ List.mem_map_of_mem planned_)
  have there : ∀ p ∈ planned run.1, met.positions run.1.target p.part = some p.planned :=
    fun p planned_ => (positions_of_group same p.part).trans (brought.after p planned_)
  obtain ⟨rfl, uncommitted, name, outcome⟩ := already_of_answered
    (planned_ne_nil (accepted.each _ named)) visited.traced during
    (fun e called about => answered e (visited.inside e called) (about.trans target.symm)) vacant
    inside there
  rw [target]
  refine ⟨fun e called about => uncommitted e (visited.whole e called about), ?_, same'.trans same⟩
  exact ⟨run.2.2, List.mem_map_of_mem among, name, outcome⟩

theorem plannedWithin_of_run (accepted : Accepted plan)
    (traced : Traced (applyPlan plan marks) log (.done records)) (serving : Serving Serves s₀ log s₁)
    (member : r ∈ records) (applied : r.outcome = APPLIED) : PlannedWithin marks r := by
  obtain ⟨runs, groups, rfl, -, each⟩ := visited_of_run accepted traced serving
  obtain ⟨run, among, rfl⟩ := List.mem_map.mp member
  have named : run.1 ∈ plan.groups := groups ▸ List.mem_map_of_mem among
  have confirmed := (meets_applyGroup marks (planned_ne_nil (accepted.each _ named))).ended
    (each run among).traced applied
  obtain ⟨classified, listed, priors, back, -, may, -, -, -, partitions⟩ := confirmed
  intro p own
  rw [partitions] at own
  obtain ⟨q, planned_, rfl⟩ := List.mem_map.mp own
  exact may.within q planned_

/-- A run of a plan, its rollback, and the same run again, on a target that no one else touches
and where any call may fail.  The rollback of anything taken over is built and holds to its own
checks and to the record.  Applied, it brings each position of an applied group back, when the
calls for the group are answered and the priors are inside the marks, and leaves every other
position.  The plan applied again, by brokers that type groups, sends no commit for an applied
group whose calls are answered: it is already applied, and stays as it is. -/
theorem forward_then_back (valid : validate plan = .ok ())
    (traced : Traced (applyPlan plan marks) log (.done records)) (serving : Serving Serves s₀ log s₁)
    (runId : String) :
    (∀ sha256, isRunIdSegment runId = true → isSha256Prefixed sha256 = true →
      (∃ group part, TakenOver records group part) → ∃ reversed notes,
        rollbackPlan (recordOf runId plan records)
          (recordRef (recordOf runId plan records) sha256) = .ok (reversed, notes)) ∧
    (∀ ref reversed notes, rollbackPlan (recordOf runId plan records) ref = .ok (reversed, notes) →
      validate reversed = .ok () ∧
      checkAgainstRecord reversed (recordOf runId plan records) = .ok () ∧
      ∀ marks' log' records' s₂, Traced (applyPlan reversed marks') log' (.done records') →
        Serving Serves s₁ log' s₂ →
        (∀ r ∈ records, r.outcome = APPLIED → Answered log' r.target → PriorsWithin marks' r →
          ∀ p ∈ r.partitions, ∀ prior, p.prior = some prior →
            s₀.positions r.target p.part = some prior ∧
              s₂.positions r.target p.part = some prior) ∧
        ∀ group part, ¬ TakenOver records group part →
          s₂.positions group part = s₁.positions group part) ∧
    (∀ r ∈ records, r.outcome = APPLIED → PlannedWithin marks r) ∧
    ∀ marks' log' records' s₂, Traced (applyPlan plan marks') log' (.done records') →
      Serving Serves s₁ log' s₂ → s₀.typesGroups = true →
      ∀ r ∈ records, r.outcome = APPLIED → Answered log' r.target → PlannedWithin marks' r →
        (∀ e ∈ log', e.call.group = r.target → e.call.isCommit = false) ∧
        (∃ r' ∈ records', r'.target = r.target ∧ r'.outcome = ALREADY_APPLIED) ∧
        s₂.group r.target = s₁.group r.target := by
  have accepted := validate_ok.mp valid
  have recorded := records_of_run accepted traced serving
  refine ⟨?_, ?_, ?_, ?_⟩
  · rintro sha256 segment digest ⟨group, part, r, member, applied, -, p, own, -, had⟩
    obtain ⟨g, named, brought⟩ := brought_of_run accepted traced serving member applied
    obtain ⟨back, rolled⟩ := rolledGroup_of_prior brought.recorded own had
    have listed : back ∈ reversals records := mem_reversals.mpr ⟨r, member, applied, rolled⟩
    exact rollbackPlan_of_accepted (accepted_rolledPlan accepted recorded
      (fit_recordRef segment digest) (List.ne_nil_of_mem listed))
  · intro ref reversed notes built
    obtain ⟨rfl, holds⟩ := rollbackPlan_ok built
    have reversed_ := validate_ok.mp holds
    refine ⟨holds, checkAgainstRecord_rolledPlan accepted recorded, ?_⟩
    intro marks' log' records' s₂ traced' serving'
    refine ⟨fun r member applied answered within p own prior had => ?_, fun group part other => ?_⟩
    · exact prior_restored accepted traced serving reversed_ traced' serving' member applied answered
        within own had
    · exact others_kept accepted traced serving reversed_ traced' serving' other
  · exact fun r member applied => plannedWithin_of_run accepted traced serving member applied
  · intro marks' log' records' s₂ traced' serving' types r member applied answered within
    exact again_already accepted traced serving traced' serving' types member applied answered within

end

def ordersCluster : Cluster where
  typesGroups := true
  kind := fun g => if g = "orders" then emptyGroup else .absent
  positions := fun g part => if g = "orders" ∧ part = orders then some 5 else none
  none_of_absent := by
    intro g absent part
    refine if_neg fun both => ?_
    rw [if_pos both.1] at absent
    cases absent
  typed := fun _ _ _ _ _ => rfl

theorem emptyGroup_settled : Settled true emptyGroup := ⟨"classic", "Empty", rfl, by decide⟩

def ordersAfter : Cluster := ordersCluster.land "orders" emptyGroup emptyGroup_settled [(orders, 20)]

def wide : Marks := [(orders, (0, 100))]

def trimmed : Marks := [(orders, (10, 100))]

def ordersRef : RecordRef where
  key := "logweir/switchovers/run-1.record.json"
  sha256 := zeros

def ordersBack : PlanGroup where
  source := "orders"
  target := "orders"
  topics := rolledTopics ordersRecord.partitions

def ordersRollback : SwitchoverPlan := rolledPlan (recordOf "run-1" ordersPlan [ordersRecord]) ordersRef

def rollbackLog : Log :=
  [found ordersBack emptyGroup, reading ordersBack true (.ok [(orders, some 20)]),
    sent ordersBack (.ok ()), reading ordersBack true (.ok [(orders, some 5)])]

theorem traced_forward : Traced (applyPlan ordersPlan wide) ordersLog (.done [ordersRecord]) :=
  .asked (.asked (.asked (.asked (.here _))))

theorem served_forward : Serving Serves ordersCluster ordersLog ordersAfter :=
  .served (Serves.classified _ _) (.served (Serves.read _ _ _ _) (.served (Serves.accepted _ _ _ _ _)
    (.served (Serves.read _ _ _ _) (.still _))))

theorem answered_of_forall {log : Log} {group : String} (answered : ∀ e ∈ log, ¬ Failed e) :
    Answered log group := fun e member _ => answered e member

theorem answered_rollbackLog : Answered rollbackLog "orders" := by
  refine answered_of_forall ?_
  simp [rollbackLog, Failed, found, reading, sent, emptyGroup]

theorem forward_then_back_orders : ∃ s₂ records',
    Traced (applyPlan ordersRollback wide) rollbackLog (.done records') ∧
      Serving Serves ordersAfter rollbackLog s₂ ∧ s₂.positions "orders" orders = some 5 := by
  have traced' : Traced (applyPlan ordersRollback wide) rollbackLog (.done
      [acceptedRecord ordersBack (compared ordersBack emptyGroup false [(orders, some 20)])
        [(orders, some 20)] false (some [(orders, some 5)])]) :=
    .asked (.asked (.asked (.asked (.here _))))
  have serving' : Serving Serves ordersAfter rollbackLog
      (ordersAfter.land "orders" emptyGroup emptyGroup_settled [(orders, 5)]) :=
    .served (Serves.classified _ _) (.served (Serves.read _ _ _ _)
      (.served (Serves.accepted _ _ _ _ _) (.served (Serves.read _ _ _ _) (.still _))))
  refine ⟨_, _, traced', serving', ?_⟩
  have within : PriorsWithin wide ordersRecord := by
    intro p member prior had
    rw [List.mem_singleton.mp member] at had ⊢
    cases had
    exact ⟨0, 100, rfl, by decide, by decide⟩
  have back := (forward_then_back ordersPlan_valid traced_forward served_forward "run-1").2.1
    ordersRef ordersRollback _ rfl
  exact ((back.2.2 wide rollbackLog _ _ traced' serving').1 ordersRecord (List.mem_singleton_self _)
    rfl answered_rollbackLog within _ List.mem_cons_self 5 rfl).2

def freshGroup : PlanGroup where
  source := "orders"
  target := "orders"
  topics := SortedMap.empty.insert "restored-orders"
    { offsets := SortedMap.empty.insert 0 20, expected := .word }

def freshPlan : SwitchoverPlan := { ordersPlan with groups := [freshGroup] }

def untypedCluster : Cluster where
  typesGroups := false
  kind := fun _ => .absent
  positions := fun _ _ => none
  none_of_absent := fun _ _ _ => rfl
  typed := fun _ _ _ _ consumer => by cases consumer

def freshLog : Log :=
  [found freshGroup .absent, reading freshGroup false (.ok [(orders, none)]),
    sent freshGroup (.ok ()), reading freshGroup true (.ok [(orders, some 20)])]

def timedOut : CommitFailure := .failed true "timed out"

def timedOutLog : Log :=
  [found ordersGroup emptyGroup, reading ordersGroup true (.ok [(orders, some 5)]),
    sent ordersGroup (.error timedOut), reading ordersGroup true (.ok [(orders, some 20)])]

/-- A prior below the log start is not committed again; a group that brokers cannot type is not
classified again; a group whose commit failed and landed is not taken back. -/
theorem roundtrip_fails :
    (∃ s₂ records', validate ordersPlan = .ok () ∧
      Traced (applyPlan ordersPlan trimmed) ordersLog (.done [ordersRecord]) ∧
      Serving Serves ordersCluster ordersLog ordersAfter ∧ ordersRecord.outcome = APPLIED ∧
      ordersRecord.partitions.map PartitionRecord.prior = [some 5] ∧
      (∃ notes, rollbackPlan (recordOf "run-1" ordersPlan [ordersRecord]) ordersRef =
        .ok (ordersRollback, notes)) ∧
      Traced (applyPlan ordersRollback trimmed) [found ordersBack emptyGroup] (.done records') ∧
      Serving Serves ordersAfter [found ordersBack emptyGroup] s₂ ∧
      Answered [found ordersBack emptyGroup] "orders" ∧
      s₂.positions "orders" orders = some 20) ∧
    (∃ s₁ r r', validate freshPlan = .ok () ∧
      Traced (applyPlan freshPlan wide) freshLog (.done [r]) ∧
      Serving Serves untypedCluster freshLog s₁ ∧ r.outcome = APPLIED ∧
      Traced (applyPlan freshPlan wide) [found freshGroup .typeUnproven] (.done [r']) ∧
      Serving Serves s₁ [found freshGroup .typeUnproven] s₁ ∧ r'.outcome = REFUSED) ∧
    ∃ s₁ r why, Traced (applyPlan ordersPlan wide) timedOutLog (.done [r]) ∧
      Serving Serves ordersCluster timedOutLog s₁ ∧
      r.partitions.map PartitionRecord.applied = [.known true] ∧
      r.partitions.map PartitionRecord.prior = [some 5] ∧
      rollbackPlan (recordOf "run-1" ordersPlan [r]) ordersRef = .error why ∧
      s₁.positions "orders" orders = some 20 := by
  refine ⟨⟨_, _, ordersPlan_valid, .asked (.asked (.asked (.asked (.here _)))), served_forward, rfl, rfl,
    ⟨_, rfl⟩, .asked (.here _), .served (Serves.classified _ _) (.still _), ?_, rfl⟩, ?_, ?_⟩
  · refine answered_of_forall ?_
    simp [Failed, found, emptyGroup]
  · exact ⟨untypedCluster.land "orders" .typeUnproven rfl [(orders, 20)], _, _, rfl,
      .asked (.asked (.asked (.asked (.here _)))),
      .served (Serves.classified _ _) (.served (Serves.read _ _ _ _)
        (.served (Serves.accepted _ _ _ _ _) (.served (Serves.read _ _ _ _) (.still _)))),
      rfl, .asked (.here _), .served (Serves.classified _ _) (.still _), rfl⟩
  · exact ⟨ordersAfter, _, _, .asked (.asked (.asked (.asked (.here _)))),
      .served (Serves.classified _ _) (.served (Serves.read _ _ _ _)
        (.served (Serves.cut _ _ _ _ _ _ _ (List.Sublist.refl _))
          (.served (Serves.read _ _ _ _) (.still _)))), rfl, rfl, rfl, rfl⟩

end Logweir.Switchover
