import Logweir.Library.Served
import Logweir.Switchover.Reversed

/-!
# A target that no one else touches

The target's groups and their committed positions, changed by the run's own commits only; any
call may fail, and a commit that fails may have landed in part.  From how such a target answers:
what a group that is applied leaves behind, and what a group meets that was applied before.
-/

set_option autoImplicit false

namespace Logweir.Switchover

open Logweir.Results Logweir.SortedMaps Logweir.Programs Program

/-- How a group that took a commit is classified: by brokers that type groups, as an inactive
consumer group without members. -/
def Settled (typesGroups : Bool) (kind : TargetGroup) : Prop :=
  if typesGroups then ∃ groupType state, kind = .consumer groupType state 0 ∧ state ∈ INACTIVE_STATES
  else kind = .typeUnproven

/-- The target cluster.  An absent group holds no position, and brokers that cannot type groups
name no group a consumer group. -/
structure Cluster where
  typesGroups : Bool
  kind : String → TargetGroup
  positions : String → Part → Option Int
  none_of_absent : ∀ group, kind group = .absent → ∀ part, positions group part = none
  typed : ∀ group groupType state members, kind group = .consumer groupType state members →
    typesGroups = true

def Cluster.group (s : Cluster) (group : String) : TargetGroup × (Part → Option Int) :=
  (s.kind group, s.positions group)

theorem Settled.ne_absent {typesGroups : Bool} {kind : TargetGroup}
    (settled : Settled typesGroups kind) : kind ≠ .absent := by
  rintro rfl
  unfold Settled at settled
  split_ifs at settled
  obtain ⟨groupType, state, same, -⟩ := settled
  cases same

theorem Settled.typed {typesGroups : Bool} {groupType state : String} {members : Nat}
    (settled : Settled typesGroups (.consumer groupType state members)) : typesGroups = true := by
  unfold Settled at settled
  split_ifs at settled with types
  exact types

theorem Settled.vacant {kind : TargetGroup} (settled : Settled true kind) : Vacant kind := by
  obtain ⟨groupType, state, rfl, inactive⟩ := settled
  exact ⟨rfl, inactive⟩

/-- The cluster once positions of a commit landed. -/
def Cluster.land (s : Cluster) (group : String) (kind : TargetGroup)
    (settled : Settled s.typesGroups kind) (landed : List (Part × Int)) : Cluster where
  typesGroups := s.typesGroups
  kind := fun g => if g = group then kind else s.kind g
  positions := fun g part =>
    if g = group then (landed.lookup part).or (s.positions g part) else s.positions g part
  none_of_absent := by
    intro g absent part
    split_ifs at absent ⊢ with same
    · exact absurd absent settled.ne_absent
    · exact s.none_of_absent g absent part
  typed := by
    intro g groupType state members consumer
    split_ifs at consumer with same
    · subst consumer
      exact settled.typed
    · exact s.typed g groupType state members consumer

def Cluster.read (s : Cluster) (group : String) (partitions : List Part) : Positions :=
  partitions.map fun part => (part, s.positions group part)

inductive Serves : Server Cluster Call Answer where
  | classified (s : Cluster) (group : String) : Serves s (Call.classify group) (s.kind group) s
  | hidden (s : Cluster) (group : String) : Serves s (Call.classify group) TargetGroup.notVisible s
  | unreachable (s : Cluster) (group why : String) :
      Serves s (Call.classify group) (TargetGroup.unreachable why) s
  | read (s : Cluster) (group : String) (partitions : List Part) (listed : Bool) :
      Serves s (Call.committed group partitions listed) (Except.ok (s.read group partitions)) s
  | unread (s : Cluster) (group : String) (partitions : List Part) (listed : Bool) (e : ReadFailure) :
      Serves s (Call.committed group partitions listed) (Except.error e) s
  | accepted (s : Cluster) (group : String) (positions : List (Part × Int)) (kind : TargetGroup)
      (settled : Settled s.typesGroups kind) :
      Serves s (Call.commit group positions) (Except.ok ()) (s.land group kind settled positions)
  | refused (s : Cluster) (group : String) (positions : List (Part × Int)) (failure : CommitFailure) :
      Serves s (Call.commit group positions) (Except.error failure) s
  | cut (s : Cluster) (group : String) (positions landed : List (Part × Int)) (kind : TargetGroup)
      (settled : Settled s.typesGroups kind) (failure : CommitFailure)
      (part : landed.Sublist positions) :
      Serves s (Call.commit group positions) (Except.error failure)
        (s.land group kind settled landed)

def Failed : Event Call Answer → Prop
  | ⟨Call.classify _, classified⟩ => classified = .notVisible ∨ ∃ why, classified = .unreachable why
  | ⟨Call.committed _ _ _, read⟩ => ∃ e, read = Except.error e
  | ⟨Call.commit _ _, answer⟩ => ∃ failure, answer = Except.error failure

/-- Every call that was made for a group was answered. -/
def Answered (log : Log) (group : String) : Prop :=
  ∀ e ∈ log, e.call.group = group → ¬ Failed e

section

variable {s s' t : Cluster} {g : PlanGroup} {marks : Marks} {log : Log} {r : GroupRecord}
  {group : String} {part : Part} {c : Call} {answer : Answer c}

theorem land_other {kind : TargetGroup} {settled : Settled s.typesGroups kind}
    {landed : List (Part × Int)} {other : String} (apart : other ≠ group) :
    (s.land group kind settled landed).group other = s.group other := by
  simp [Cluster.land, Cluster.group, apart]

theorem land_positions {kind : TargetGroup} {settled : Settled s.typesGroups kind}
    {landed : List (Part × Int)} : (s.land group kind settled landed).positions group part =
      (landed.lookup part).or (s.positions group part) := by
  simp [Cluster.land]

theorem land_kind {kind : TargetGroup} {settled : Settled s.typesGroups kind}
    {landed : List (Part × Int)} : (s.land group kind settled landed).kind group = kind := by
  simp [Cluster.land]

theorem serves_other (served : Serves s c answer s') (apart : ¬ c.group = group) :
    s'.group group = s.group group := by
  cases served with
  | accepted => exact land_other fun same => apart same.symm
  | cut => exact land_other fun same => apart same.symm
  | _ => rfl

theorem serves_typesGroups (served : Serves s c answer s') : s'.typesGroups = s.typesGroups := by
  cases served <;> rfl

theorem land_uncommitted {other : String} {positions landed : List (Part × Int)} {kind : TargetGroup}
    {settled : Settled s.typesGroups kind} (within : landed.Sublist positions)
    (apart : ∀ positions', Call.commit other positions = Call.commit group positions' →
      part ∉ positions'.map Prod.fst) :
    (s.land other kind settled landed).positions group part = s.positions group part := by
  by_cases same : group = other
  · subst same
    have absent : landed.lookup part = none := List.lookup_eq_none_iff.mpr fun e member =>
      bne_iff_ne.mpr fun equal =>
        apart positions rfl (equal ▸ List.mem_map_of_mem (within.subset member))
    rw [land_positions, absent, Option.none_or]
  · simp [Cluster.land, same]

theorem serves_uncommitted (served : Serves s c answer s')
    (apart : ∀ positions, c = Call.commit group positions → part ∉ positions.map Prod.fst) :
    s'.positions group part = s.positions group part := by
  cases served with
  | accepted => exact land_uncommitted (List.Sublist.refl _) apart
  | cut _ _ _ _ _ _ _ within => exact land_uncommitted within apart
  | _ => rfl

theorem serves_classify {classified : TargetGroup}
    (served : Serves s (Call.classify group) classified s') :
    s = s' ∧ (classified = s.kind group ∨ Failed ⟨Call.classify group, classified⟩) := by
  cases served with
  | classified => exact ⟨rfl, .inl rfl⟩
  | hidden => exact ⟨rfl, .inr (.inl rfl)⟩
  | unreachable _ _ why => exact ⟨rfl, .inr (.inr ⟨why, rfl⟩)⟩

theorem serves_committed {partitions : List Part} {listed : Bool} {read : Except ReadFailure Positions}
    (served : Serves s (Call.committed group partitions listed) read s') :
    s = s' ∧ ∀ positions, read = .ok positions → positions = s.read group partitions := by
  cases served with
  | read => exact ⟨rfl, fun _ same => (Except.ok.inj same).symm⟩
  | unread => exact ⟨rfl, fun _ same => not_ok same⟩

theorem serves_commit {positions : List (Part × Int)}
    (served : Serves s (Call.commit group positions) (Except.ok ()) s') :
    ∃ kind settled, s' = s.land group kind settled positions := by
  cases served with
  | accepted _ _ _ kind settled => exact ⟨kind, settled, rfl⟩

theorem held_read {partitions : List Part} (member : part ∈ partitions) :
    (s.read group partitions).held part = s.positions group part := by
  unfold Positions.held Cluster.read
  induction partitions with
  | nil => exact absurd member List.not_mem_nil
  | cons first partitions ih =>
      rw [List.map_cons, List.lookup_cons]
      by_cases same : part = first
      · subst same
        rw [beq_self_eq_true]
        rfl
      · rw [beq_eq_false_iff_ne.mpr same]
        exact ih ((List.mem_cons.mp member).resolve_left same)

theorem lookup_plannedOffsets {p : PlannedPartition} (member : p ∈ planned g) :
    (plannedOffsets g).lookup p.part = some p.planned := by
  have distinct : ((plannedOffsets g).map Prod.fst).Nodup := map_fst_plannedOffsets ▸ parts_nodup g
  exact Grouping.lookup_of_mem distinct (List.mem_map_of_mem member)

end

end Logweir.Switchover

/-!
## Forward, and back

A plan applied, its rollback built from the record and applied: each position that was taken
over is back where it was.  The plan applied twice commits once.
-/

namespace Logweir.Switchover

open Logweir.Results Logweir.SortedMaps Logweir.Programs Program

section

variable {s s' t : Cluster} {g : PlanGroup} {marks : Marks} {log : Log} {r : GroupRecord} {d : Decided}

/-- What an applied group was, and what it has become. -/
structure Took (g : PlanGroup) (s s' : Cluster) : Prop where
  vacant : Vacant (s.kind g.target)
  before : ∀ p ∈ planned g, s.positions g.target p.part = p.expected
  after : ∃ kind settled, s' = s.land g.target kind settled (plannedOffsets g)

theorem took_of_confirmed (confirmed : Confirmed g marks log r) (serving : Serving Serves s log s') :
    Took g s s' ∧ Recorded g r := by
  obtain ⟨classified, listed, priors, back, rfl, may, -, source, target, partitions⟩ := confirmed
  cases serving with
  | served first serving =>
  cases serving with
  | served second serving =>
  cases serving with
  | served third serving =>
  cases serving with
  | served fourth serving =>
  cases serving
  obtain ⟨rfl, kind⟩ := serves_classify first
  obtain ⟨rfl, read⟩ := serves_committed second
  obtain ⟨kind', settled, landed⟩ := serves_commit third
  obtain ⟨rfl, -⟩ := serves_committed fourth
  have priors_ := read priors rfl
  have held : ∀ p ∈ planned g, priors.held p.part = s.positions g.target p.part := by
    intro p member
    rw [priors_]
    exact held_read (List.mem_map_of_mem member)
  have known : classified = s.kind g.target := by
    refine kind.resolve_right ?_
    rintro (rfl | ⟨why, rfl⟩)
    · exact may.vacant
    · exact may.vacant
  refine ⟨⟨known ▸ may.vacant, fun p member => ?_, kind', settled, landed⟩, source, target, ?_⟩
  · rw [← held p member, may.expected p member]
  · rw [partitions]
    refine List.map_congr_left fun p member => ?_
    rw [appliedPartition, may.expected p member]
    rfl

theorem Took.planned (took : Took g s s') : ∀ p ∈ planned g,
    s'.positions g.target p.part = some p.planned := by
  intro p member
  obtain ⟨kind, settled, rfl⟩ := took.after
  rw [land_positions, lookup_plannedOffsets member]
  rfl

theorem admitted_of_vacant {classified : TargetGroup} (vacant : Vacant classified) :
    ∃ creates, admitGroup classified = .ok creates := by
  cases classified with
  | absent => exact ⟨true, rfl⟩
  | consumer groupType state members =>
      obtain ⟨rfl, inactive⟩ := vacant
      have idle : ¬ (0 < 0 ∨ state ∉ INACTIVE_STATES) := by simpa using inactive
      exact ⟨false, if_neg idle⟩
  | _ => exact absurd vacant id

theorem decided_of_answered (traced : Traced (decideGroup g marks) log (.done d))
    (serving : Serving Serves s log s') (answered : Answered log g.target)
    (vacant : Vacant (s.kind g.target)) (within : ∀ p ∈ planned g, Within marks p.part p.planned) :
    s = s' ∧ (∀ e ∈ log, e.call.isCommit = false) ∧
      ∃ classified creates, d = compared g classified creates (s.read g.target (parts g)) := by
  unfold decideGroup at traced
  obtain ⟨classified, log, rfl, checked⟩ := traced_ask traced
  cases serving with
  | served first serving =>
  obtain ⟨rfl, kind⟩ := serves_classify first
  have known : classified = s.kind g.target :=
    kind.resolve_right (answered _ List.mem_cons_self rfl)
  obtain ⟨creates, admitted⟩ := admitted_of_vacant (known ▸ vacant : Vacant classified)
  rw [admitted, checkBounds_ok.mpr within] at checked
  obtain ⟨read, log, rfl, ended⟩ := traced_ask checked
  cases serving with
  | served second serving =>
  obtain ⟨rfl, priors_⟩ := serves_committed second
  cases read with
  | error e => exact absurd ⟨e, rfl⟩ (answered _ (List.mem_cons_of_mem _ List.mem_cons_self) rfl)
  | ok priors =>
      obtain ⟨rfl, rfl⟩ := traced_pure ended
      cases serving
      refine ⟨rfl, ?_, classified, creates, by rw [priors_ priors rfl]⟩
      intro e member
      rcases List.mem_cons.mp member with rfl | member
      · rfl
      · rw [List.mem_singleton.mp member]
        rfl

theorem held_parts {p : PlannedPartition} (member : p ∈ planned g) :
    (s.read g.target (parts g)).held p.part = s.positions g.target p.part :=
  held_read (List.mem_map_of_mem member)

theorem already_of_answered (some_ : planned g ≠ [])
    (traced : Traced (applyGroup g marks) log (.done r)) (serving : Serving Serves s log s')
    (answered : Answered log g.target) (vacant : Vacant (s.kind g.target))
    (within : ∀ p ∈ planned g, Within marks p.part p.planned)
    (there : ∀ p ∈ planned g, s.positions g.target p.part = some p.planned) :
    s = s' ∧ (∀ e ∈ log, e.call.isCommit = false) ∧ r.target = g.target ∧
      r.outcome = ALREADY_APPLIED := by
  unfold applyGroup at traced
  obtain ⟨first, rest, d, rfl, decides, goesOn⟩ := traced_bind traced
  obtain ⟨middle, early, late⟩ := serving_append serving
  obtain ⟨rfl, uncommitted, classified, creates, rfl⟩ := decided_of_answered decides early
    (fun e member => answered e (List.mem_append_left _ member)) vacant within
  have already : compare (withPriors g (s.read g.target (parts g))) = .alreadyApplied :=
    (compare_alreadyApplied some_).mpr fun p member => (held_parts member).trans (there p member)
  simp only [compared, already] at goesOn
  obtain ⟨rfl, rfl⟩ := traced_pure goesOn
  cases late
  rw [List.append_nil]
  exact ⟨rfl, uncommitted, rfl, rfl⟩

theorem planned_of_answered (some_ : planned g ≠ [])
    (traced : Traced (applyGroup g marks) log (.done r)) (serving : Serving Serves s log s')
    (answered : Answered log g.target) (vacant : Vacant (s.kind g.target))
    (within : ∀ p ∈ planned g, Within marks p.part p.planned)
    (there : ∀ p ∈ planned g, s.positions g.target p.part = p.expected) :
    ∀ p ∈ planned g, s'.positions g.target p.part = some p.planned := by
  by_cases done : ∀ p ∈ planned g, s.positions g.target p.part = some p.planned
  · obtain ⟨rfl, -⟩ := already_of_answered some_ traced serving answered vacant within done
    exact done
  · unfold applyGroup at traced
    obtain ⟨first, rest, d, rfl, decides, goesOn⟩ := traced_bind traced
    obtain ⟨middle, early, late⟩ := serving_append serving
    obtain ⟨rfl, -, classified, creates, rfl⟩ := decided_of_answered decides early
      (fun e member => answered e (List.mem_append_left _ member)) vacant within
    have applies : compare (withPriors g (s.read g.target (parts g))) = .apply := by
      refine (compare_apply some_).mpr ⟨fun p member => (held_parts member).trans (there p member), ?_⟩
      push Not at done
      obtain ⟨p, member, differs⟩ := done
      exact ⟨p, member, fun same => differs ((held_parts member).symm.trans same)⟩
    simp only [compared, applies] at goesOn
    unfold commitGroup at goesOn
    rw [map_planned_withPriors] at goesOn
    obtain ⟨answer, log, rfl, reads⟩ := traced_ask goesOn
    obtain ⟨read, log, rfl, ended⟩ := traced_ask reads
    cases answer with
    | error failure =>
        exact absurd ⟨failure, rfl⟩
          (answered _ (List.mem_append_right _ List.mem_cons_self) rfl)
    | ok u =>
        obtain ⟨rfl, rfl⟩ := traced_pure ended
        cases late with
        | served third late =>
        cases late with
        | served fourth late =>
        cases late
        obtain ⟨kind, settled, rfl⟩ := serves_commit third
        obtain ⟨rfl, -⟩ := serves_committed fourth
        intro p member
        rw [land_positions, lookup_plannedOffsets member]
        rfl

theorem own_calls (some_ : planned g ≠ []) {rest : Run GroupRecord}
    (traced : Traced (applyGroup g marks) log rest) {e : Event Call Answer} (member : e ∈ log) :
    e.call.group = g.target ∧
      ∀ group positions, e.call = Call.commit group positions → positions = plannedOffsets g := by
  obtain ⟨before, after, rfl⟩ := List.append_of_mem member
  have justified := (meets_applyGroup marks some_).justified traced
  obtain ⟨call, answer⟩ := e
  cases call with
  | classify group => exact ⟨justified, fun _ _ same => by cases same⟩
  | committed group partitions listed => exact ⟨justified, fun _ _ same => by cases same⟩
  | commit group positions =>
      refine ⟨justified.1, fun _ _ same => ?_⟩
      cases same
      exact justified.2.1

/-- A group of a run: the calls made for it, and the cluster as it met it and left it. -/
structure Visited (marks : Marks) (s t : Cluster) (log : Log) (g : PlanGroup) (own : Log)
    (r : GroupRecord) : Prop where
  traced : Traced (applyGroup g marks) own (.done r)
  inside : ∀ e ∈ own, e ∈ log
  whole : ∀ e ∈ log, e.call.group = g.target → e ∈ own
  served : ∃ met left, Serving Serves met own left ∧ met.group g.target = s.group g.target ∧
    t.group g.target = left.group g.target ∧ met.typesGroups = s.typesGroups

theorem typesGroups_kept (serving : Serving Serves s log t) : t.typesGroups = s.typesGroups :=
  Serving.kept (fun _ => False) (fun _ _ _ _ served _ => serves_typesGroups served) serving
    fun _ _ none => none

theorem group_kept {group : String} (serving : Serving Serves s log t)
    (apart : ∀ e ∈ log, ¬ e.call.group = group) : t.group group = s.group group :=
  Serving.kept (fun c => c.group = group) (fun _ _ _ _ => serves_other) serving apart

theorem visited_of_run {plan : SwitchoverPlan} {records : List GroupRecord} (accepted : Accepted plan)
    (traced : Traced (applyPlan plan marks) log (.done records)) (serving : Serving Serves s log t) :
    ∃ runs : List (PlanGroup × Log × GroupRecord), runs.map Prod.fst = plan.groups ∧
      records = runs.map (fun run => run.2.2) ∧ (∀ e ∈ log, ∃ run ∈ runs, e ∈ run.2.1) ∧
      ∀ run ∈ runs, Visited marks s t log run.1 run.2.1 run.2.2 := by
  obtain ⟨runs, groups, rfl, rfl, each⟩ := traced_mapM traced
  have covered : ∀ e ∈ (runs.map fun run => run.2.1).flatten, ∃ run ∈ runs, e ∈ run.2.1 := by
    intro e called
    obtain ⟨_, found, called⟩ := List.mem_flatten.mp called
    obtain ⟨run, among, rfl⟩ := List.mem_map.mp found
    exact ⟨run, among, called⟩
  refine ⟨runs, groups, rfl, covered, fun run member => ?_⟩
  have distinct : (runs.map fun run => run.1.target).Nodup := by
    have names := accepted.distinct
    rwa [← groups, List.map_map] at names
  have own : ∀ run ∈ runs, ∀ e ∈ run.2.1, e.call.group = run.1.target := by
    intro run among e called
    have named : run.1 ∈ plan.groups := groups ▸ List.mem_map_of_mem among
    exact (own_calls (planned_ne_nil (accepted.each _ named)) (each run among) called).1
  obtain ⟨before, after, rfl⟩ := List.append_of_mem member
  have apart : ∀ other ∈ before ++ after, other.1.target ≠ run.1.target := by
    have perm : (run :: (before ++ after)).map (fun run => run.1.target) |>.Nodup :=
      (List.perm_middle.map _).nodup_iff.mp distinct
    rw [List.map_cons, List.nodup_cons] at perm
    exact fun other among same => perm.1 (same ▸ List.mem_map_of_mem among)
  have foreign : ∀ some_ : List (PlanGroup × Log × GroupRecord), (∀ x ∈ some_, x ∈ before ++ after) →
      ∀ e ∈ (some_.map fun run => run.2.1).flatten, ¬ e.call.group = run.1.target := by
    intro some_ among e called
    obtain ⟨_, found, called⟩ := List.mem_flatten.mp called
    obtain ⟨other, within, rfl⟩ := List.mem_map.mp found
    have here : other ∈ before ++ run :: after := by
      rcases List.mem_append.mp (among other within) with early | late
      · exact List.mem_append_left _ early
      · exact List.mem_append_right _ (List.mem_cons_of_mem _ late)
    rw [own other here e called]
    exact apart other (among other within)
  rw [List.map_append, List.map_cons, List.flatten_append, List.flatten_cons] at serving ⊢
  obtain ⟨met, early, serving⟩ := serving_append serving
  obtain ⟨left, during, late⟩ := serving_append serving
  have front := foreign before fun x among => List.mem_append_left _ among
  have back := foreign after fun x among => List.mem_append_right _ among
  refine ⟨each run member, ?_, ?_, met, left, during, group_kept early front,
    group_kept late back, typesGroups_kept early⟩
  · exact fun e called => List.mem_append_right _ (List.mem_append_left _ called)
  · intro e called about
    rcases List.mem_append.mp called with first | rest
    · exact absurd about (front e first)
    · rcases List.mem_append.mp rest with here | last
      · exact here
      · exact absurd about (back e last)

theorem positions_of_group {group : String} (same : s.group group = t.group group) (part : Part) :
    s.positions group part = t.positions group part :=
  congrFun (congrArg Prod.snd same) part

theorem kind_of_group {group : String} (same : s.group group = t.group group) :
    s.kind group = t.kind group :=
  congrArg Prod.fst same

/-- What a run says of a group that it reports applied: how it is recorded, where it was before
and where it is after. -/
structure Brought (s t : Cluster) (g : PlanGroup) (r : GroupRecord) : Prop where
  recorded : Recorded g r
  before : ∀ p ∈ planned g, s.positions g.target p.part = p.expected
  after : ∀ p ∈ planned g, t.positions g.target p.part = some p.planned
  settled : Settled s.typesGroups (t.kind g.target)
  untyped : s.typesGroups = false → ∀ p ∈ planned g, p.expected = none

theorem brought_of_visited {own : Log} (some_ : planned g ≠ [])
    (visited : Visited marks s t log g own r) (applied : r.outcome = APPLIED) : Brought s t g r := by
  obtain ⟨met, left, serving, same, same', types⟩ := visited.served
  have confirmed := (meets_applyGroup marks some_).ended visited.traced applied
  obtain ⟨took, recorded⟩ := took_of_confirmed confirmed serving
  have before : ∀ p ∈ planned g, s.positions g.target p.part = p.expected := fun p member =>
    (positions_of_group same p.part).symm.trans (took.before p member)
  refine ⟨recorded, before, fun p member => ?_, ?_, fun bare p member => ?_⟩
  · exact (positions_of_group same' p.part).trans (took.planned p member)
  · obtain ⟨kind, settled, rfl⟩ := took.after
    rw [kind_of_group same', land_kind, ← types]
    exact settled
  · have vacant := took.vacant
    rw [kind_of_group same] at vacant
    rw [← before p member]
    cases is : s.kind g.target with
    | absent => exact s.none_of_absent g.target is p.part
    | consumer groupType state members =>
        rw [s.typed _ _ _ _ is] at bare
        cases bare
    | _ =>
        rw [is] at vacant
        exact absurd vacant id

theorem brought_of_run {plan : SwitchoverPlan} {records : List GroupRecord} (accepted : Accepted plan)
    (traced : Traced (applyPlan plan marks) log (.done records)) (serving : Serving Serves s log t)
    (member : r ∈ records) (applied : r.outcome = APPLIED) :
    ∃ g ∈ plan.groups, Brought s t g r := by
  obtain ⟨runs, groups, rfl, -, each⟩ := visited_of_run accepted traced serving
  obtain ⟨run, among, rfl⟩ := List.mem_map.mp member
  have named : run.1 ∈ plan.groups := groups ▸ List.mem_map_of_mem among
  exact ⟨run.1, named,
    brought_of_visited (planned_ne_nil (accepted.each _ named)) (each run among) applied⟩

theorem records_of_run {plan : SwitchoverPlan} {records : List GroupRecord} (accepted : Accepted plan)
    (traced : Traced (applyPlan plan marks) log (.done records)) (serving : Serving Serves s log t) :
    Records plan.groups records := by
  obtain ⟨runs, groups, rfl, -, each⟩ := visited_of_run accepted traced serving
  unfold Records
  rw [← groups, List.forall₂_map_left_iff, List.forall₂_map_right_iff, List.forall₂_same]
  intro run among applied
  have named : run.1 ∈ plan.groups := groups ▸ List.mem_map_of_mem among
  exact (brought_of_visited (planned_ne_nil (accepted.each _ named)) (each run among) applied).recorded

end

end Logweir.Switchover
