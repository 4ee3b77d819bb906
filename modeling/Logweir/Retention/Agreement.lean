import Logweir.Retention.Worker
import Logweir.Retention.Written
import Mathlib.Data.List.Pairwise

/-!
# What an accepted plan is

The checks of the worker as one fact: the points and the object keys of the plan are
distinct, every key is under its line's bound, the manifest is first, and the ceilings hold.
-/

set_option autoImplicit false

namespace Logweir.Retention

open Logweir.Text Logweir.Results

/-- A key a line may name: under the line's bound, and not under the evidence root. -/
def Fits (expected key : String) : Prop :=
  startsWith key EVIDENCE_ROOT = false ∧ startsWith key expected = true

/-- A line on its own: the manifest first, and every key under the bound of its set. -/
structure LineFits (scope : String) (line : PlanLine) : Prop where
  first : line.objectKeys.head? = some line.manifestKey
  bound : line.setPrefix = setBound scope line.backupId
  keys : ∀ key ∈ line.objectKeys, Fits line.setPrefix key

structure Accepted (plan : Plan) (binding : RunBinding) : Prop where
  policy : plan.policyUid = binding.policyUid
  scope : trimEnd '/' plan.scopePrefix = trimEnd '/' binding.scopePrefix
  points : plan.points.Nodup
  deletions : pointCount plan ≤ binding.maxDeletionsPerRun
  lines : ∀ line ∈ plan.lines, LineFits binding.scopePrefix line
  once : plan.objectKeys.Nodup
  objects : min (plan.objectKeys.length : Int) I64_MAX ≤ binding.maxObjectsPerRun

theorem checkPoints_ok {points named : List String} : checkPoints named points = .ok () ↔
    points.Nodup ∧ ∀ p ∈ points, p ∉ named := by
  induction points generalizing named with
  | nil => simp [checkPoints]
  | cons p points ih =>
      unfold checkPoints
      by_cases repeated : p ∈ named
      · simp [repeated]
      · rw [if_neg (by simpa using repeated), ih, List.nodup_cons]
        constructor
        · rintro ⟨distinct, apart⟩
          refine ⟨⟨fun again => ?_, distinct⟩, fun q member => ?_⟩
          · exact (apart p again) List.mem_cons_self
          · rcases List.mem_cons.mp member with rfl | later
            · exact repeated
            · exact fun held => apart q later (List.mem_cons_of_mem p held)
        · rintro ⟨⟨fresh, distinct⟩, apart⟩
          refine ⟨distinct, fun q later held => ?_⟩
          rcases List.mem_cons.mp held with rfl | held
          · exact fresh later
          · exact apart q (List.mem_cons_of_mem p later) held

def Tally.seen (t : Tally) : List String := t.owners.map Prod.fst

def Tally.add (t : Tally) (line : PlanLine) (keys : List String) : Tally where
  objects := min (t.objects + keys.length) I64_MAX
  owners := (keys.map fun key => (key, line.pointId)).reverse ++ t.owners

variable {line : PlanLine} {scope expected key : String} {t t' : Tally}

@[simp]
theorem seen_add (keys : List String) : (t.add line keys).seen = keys.reverse ++ t.seen := by
  simp [Tally.seen, Tally.add, Function.comp_def]

theorem add_nil (small : t.objects ≤ I64_MAX) : t.add line [] = t := by
  simp [Tally.add, small]

theorem add_add (keys : List String) :
    (t.add line [key]).add line keys = t.add line (key :: keys) := by
  simp only [Tally.add, List.map_cons, List.map_nil, List.reverse_cons, List.reverse_nil,
    List.nil_append, List.append_assoc, List.length_cons, List.length_nil, Tally.mk.injEq, and_true]
  push_cast
  unfold I64_MAX
  omega

theorem small_add (keys : List String) : (t.add line keys).objects ≤ I64_MAX :=
  Int.min_le_right _ _

theorem checkKey_ok : checkKey line expected t key = .ok t' ↔
    Fits expected key ∧ key ∉ t.seen ∧ t' = t.add line [key] := by
  unfold checkKey Fits
  cases startsWith key EVIDENCE_ROOT with
  | true => simp
  | false =>
      cases startsWith key expected with
      | false => simp
      | true =>
          rw [Tally.seen, ← Grouping.lookup_eq_none]
          cases t.owners.lookup key with
          | some first => simp
          | none => simp [Tally.add, saturatingAdd, eq_comm]

/-- Keys that are distinct, and that the tally has not seen. -/
def Fresh (t : Tally) (keys : List String) : Prop := keys.Nodup ∧ ∀ key ∈ keys, key ∉ t.seen

theorem fresh_cons (line : PlanLine) {keys : List String} :
    Fresh t (key :: keys) ↔ key ∉ t.seen ∧ Fresh (t.add line [key]) keys := by
  unfold Fresh
  rw [List.nodup_cons, List.forall_mem_cons, seen_add, List.reverse_singleton, List.singleton_append]
  simp only [List.mem_cons, not_or]
  constructor
  · rintro ⟨⟨fresh, distinct⟩, unseen, apart⟩
    exact ⟨unseen, distinct, fun k member => ⟨fun same => fresh (same ▸ member), apart k member⟩⟩
  · rintro ⟨unseen, distinct, apart⟩
    exact ⟨⟨fun again => (apart key again).1 rfl, distinct⟩, unseen, fun k member => (apart k member).2⟩

theorem checkKeys_ok {keys : List String} (small : t.objects ≤ I64_MAX) :
    keys.foldlM (checkKey line expected) t = .ok t' ↔
      (∀ key ∈ keys, Fits expected key) ∧ Fresh t keys ∧ t' = t.add line keys := by
  induction keys generalizing t with
  | nil =>
      rw [add_nil small]
      simp [Fresh, eq_comm, pure, Except.pure]
  | cons key keys ih =>
      rw [List.foldlM_cons, bind_eq_ok, fresh_cons line, List.forall_mem_cons]
      constructor
      · rintro ⟨middle, here, later⟩
        obtain ⟨fits, unseen, rfl⟩ := checkKey_ok.mp here
        obtain ⟨all, fresh, rfl⟩ := (ih (small_add [key])).mp later
        exact ⟨⟨fits, all⟩, ⟨unseen, fresh⟩, add_add keys⟩
      · rintro ⟨⟨fits, all⟩, ⟨unseen, fresh⟩, rfl⟩
        exact ⟨t.add line [key], checkKey_ok.mpr ⟨fits, unseen, rfl⟩,
          (ih (small_add [key])).mpr ⟨all, fresh, (add_add keys).symm⟩⟩

theorem checkLine_ok (small : t.objects ≤ I64_MAX) : checkLine scope t line = .ok t' ↔
    LineFits scope line ∧ Fresh t line.objectKeys ∧ t' = t.add line line.objectKeys := by
  unfold checkLine
  cases listed : line.objectKeys with
  | nil =>
      simp only [reduceCtorEq, false_iff, not_and]
      intro fits
      have first := fits.first
      rw [listed] at first
      cases first
  | cons first rest =>
      by_cases manifest : first = line.manifestKey
      · by_cases bound : line.setPrefix = setBound scope line.backupId
        · simp only [manifest, ne_eq, not_true_eq_false, if_false, bound]
          rw [← manifest, ← listed, checkKeys_ok small]
          constructor
          · rintro ⟨keys, rest⟩
            exact ⟨⟨by rw [listed, manifest, List.head?_cons], bound, bound ▸ keys⟩, rest⟩
          · rintro ⟨fits, rest⟩
            exact ⟨bound ▸ fits.keys, rest⟩
        · simp only [manifest, ne_eq, not_true_eq_false, if_false, bound, not_false_eq_true, if_true,
            reduceCtorEq, false_iff, not_and]
          exact fun fits => absurd fits.bound bound
      · simp only [ne_eq, manifest, not_false_eq_true, if_true, reduceCtorEq, false_iff, not_and]
        intro fits
        have head := fits.first
        rw [listed, List.head?_cons, Option.some.injEq] at head
        exact absurd head manifest

def Tally.addAll (t : Tally) (lines : List PlanLine) : Tally :=
  lines.foldl (fun t line => t.add line line.objectKeys) t

theorem objects_addAll (lines : List PlanLine) (small : t.objects ≤ I64_MAX) :
    (t.addAll lines).objects = min (t.objects + (lines.flatMap PlanLine.objectKeys).length) I64_MAX := by
  induction lines generalizing t with
  | nil => simp [Tally.addAll, small]
  | cons line lines ih =>
      have later := ih (small_add line.objectKeys : (t.add line line.objectKeys).objects ≤ I64_MAX)
      rw [Tally.addAll] at later ⊢
      rw [List.foldl_cons, later, List.flatMap_cons, List.length_append]
      simp only [Tally.add]
      push_cast
      unfold I64_MAX
      omega

theorem fresh_append (line : PlanLine) {keys more : List String} :
    Fresh t (keys ++ more) ↔ Fresh t keys ∧ Fresh (t.add line keys) more := by
  unfold Fresh
  rw [List.nodup_append', List.forall_mem_append, seen_add, List.disjoint_left]
  simp only [List.mem_append, List.mem_reverse, not_or]
  constructor
  · rintro ⟨⟨distinct, distinct', apart⟩, unseen, unseen'⟩
    exact ⟨⟨distinct, unseen⟩, distinct', fun k member => ⟨fun here => apart here member, unseen' k member⟩⟩
  · rintro ⟨⟨distinct, unseen⟩, distinct', apart⟩
    exact ⟨⟨distinct, distinct', fun k here member => (apart k member).1 here⟩, unseen,
      fun k member => (apart k member).2⟩

theorem checkLines_ok {lines : List PlanLine} (small : t.objects ≤ I64_MAX) :
    lines.foldlM (checkLine scope) t = .ok t' ↔
      (∀ line ∈ lines, LineFits scope line) ∧ Fresh t (lines.flatMap PlanLine.objectKeys) ∧
        t' = t.addAll lines := by
  induction lines generalizing t with
  | nil => simp [Fresh, Tally.addAll, eq_comm, pure, Except.pure]
  | cons line lines ih =>
      rw [List.foldlM_cons, bind_eq_ok, List.flatMap_cons, fresh_append line,
        List.forall_mem_cons]
      constructor
      · rintro ⟨middle, here, later⟩
        obtain ⟨fits, fresh, rfl⟩ := (checkLine_ok small).mp here
        obtain ⟨all, fresh', rfl⟩ := (ih (small_add _)).mp later
        exact ⟨⟨fits, all⟩, ⟨fresh, fresh'⟩, rfl⟩
      · rintro ⟨⟨fits, all⟩, ⟨fresh, fresh'⟩, rfl⟩
        exact ⟨_, (checkLine_ok small).mpr ⟨fits, fresh, rfl⟩, (ih (small_add _)).mpr ⟨all, fresh', rfl⟩⟩

theorem validatePlan_ok {plan : Plan} {binding : RunBinding} :
    validatePlan plan binding = .ok () ↔ Accepted plan binding := by
  have zero : ({} : Tally).objects ≤ I64_MAX := by decide
  have fresh : Fresh {} plan.objectKeys ↔ plan.objectKeys.Nodup := by simp [Fresh, Tally.seen]
  have counted : (({} : Tally).addAll plan.lines).objects =
      min (plan.objectKeys.length : Int) I64_MAX := by
    rw [objects_addAll _ zero, Plan.objectKeys, Int.zero_add]
  unfold validatePlan
  rw [seq_eq_ok, seq_eq_ok, seq_eq_ok, seq_eq_ok, bind_eq_ok]
  simp only [refuseIf_eq_ok, ne_eq, not_not, Int.not_lt, checkPoints_ok,
    List.not_mem_nil, not_false_eq_true, implies_true, and_true, checkLines_ok zero]
  constructor
  · rintro ⟨policy, scope, points, deletions, tally, ⟨lines, once, rfl⟩, objects⟩
    exact ⟨policy, scope, points, deletions, lines, fresh.mp once, counted ▸ objects⟩
  · rintro ⟨policy, scope, points, deletions, lines, once, objects⟩
    exact ⟨policy, scope, points, deletions, _, ⟨lines, fresh.mpr once, rfl⟩, counted ▸ objects⟩

end Logweir.Retention

/-!
## The writer and the worker

When the worker accepts what the writer wrote: always, but for a ceiling below nothing and for
keys that the writer's lines name twice.
-/

namespace Logweir.Retention

open Logweir.Text

/-- `PlanDocument::object_count` -/
def objectCount (plan : Plan) : Int :=
  plan.lines.foldl (fun n l => saturatingAdd n (min (l.objectKeys.length : Int) I64_MAX)) 0

/-- No key is named twice: the first candidate of a set and manifest repeats none, and two
manifests of one set share none. -/
structure KeysApart (cs : List Candidate) : Prop where
  once : ∀ front c back, cs = front ++ c :: back →
    (∀ d ∈ front, ¬ (d.backupId = c.backupId ∧ d.manifestKey = c.manifestKey)) → c.keys.Nodup
  apart : ∀ c ∈ cs, ∀ d ∈ cs, c.backupId = d.backupId → c.manifestKey ≠ d.manifestKey →
    ∀ key ∈ c.keys, key ∉ d.keys

theorem objectCount_eq (plan : Plan) : objectCount plan = min (plan.objectKeys.length : Int) I64_MAX := by
  have counted : ∀ (lines : List PlanLine) (n : Int), 0 ≤ n → n ≤ I64_MAX →
      lines.foldl (fun n l => saturatingAdd n (min (l.objectKeys.length : Int) I64_MAX)) n =
        min (n + (lines.flatMap PlanLine.objectKeys).length) I64_MAX := by
    intro lines
    induction lines with
    | nil =>
        intro n _ small
        simp [small]
    | cons line lines ih =>
        intro n positive small
        have next : 0 ≤ saturatingAdd n (min (line.objectKeys.length : Int) I64_MAX) ∧
            saturatingAdd n (min (line.objectKeys.length : Int) I64_MAX) ≤ I64_MAX := by
          unfold saturatingAdd I64_MAX
          omega
        rw [List.foldl_cons, ih _ next.1 next.2, List.flatMap_cons, List.length_append]
        unfold saturatingAdd I64_MAX
        push_cast
        omega
  have all := counted plan.lines 0 (by decide) (by decide)
  rwa [Int.zero_add] at all

theorem pointCount_bounds (plan : Plan) : 0 ≤ pointCount plan ∧ pointCount plan ≤ plan.points.length := by
  have counted : ∀ (lines : List PlanLine) (n : Nat),
      lines.foldl (fun n l => min (n + (1 + l.coPointIds.length)) USIZE_MAX) n ≤
        n + (lines.flatMap linePoints).length := by
    intro lines
    induction lines with
    | nil => simp
    | cons line lines ih =>
        intro n
        have next := ih (min (n + (1 + line.coPointIds.length)) USIZE_MAX)
        rw [List.foldl_cons, List.flatMap_cons, List.length_append, linePoints, List.length_cons]
        omega
  have all := counted plan.lines 0
  rw [Nat.zero_add] at all
  unfold pointCount Plan.points I64_MAX
  omega

theorem set_of_bound {scope key b b' : String} (plain : '/' ∉ b.toList) (plain' : '/' ∉ b'.toList)
    (under : startsWith key (setBound scope b) = true)
    (under' : startsWith key (setBound scope b') = true) : b = b' := by
  have chars : ∀ d : String, (setBound scope d).toList =
      (trimEnd '/' scope ++ "/").toList ++ (d.toList ++ ['/']) := fun d => by
    simp [setBound, String.toList_append]
  have inner : ∀ {d d' : String}, '/' ∉ d.toList → '/' ∉ d'.toList →
      (setBound scope d).toList <+: (setBound scope d').toList → d = d' := by
    intro d d' plain plain' starts
    rw [chars, chars, List.prefix_append_right_inj] at starts
    obtain ⟨rest, same⟩ := starts
    rw [List.append_assoc, List.singleton_append] at same
    have read := (List.append_cons_inj_of_notMem plain' List.not_mem_nil).mp same.symm
    exact String.toList_inj.mp read.1.symm
  rcases List.prefix_or_prefix_of_prefix (startsWith_iff.mp under) (startsWith_iff.mp under') with
    outer | outer
  · exact inner plain plain' outer
  · exact (inner plain' plain outer).symm

variable {input : Input} {scope : String} {cs : List Candidate} {lines : List PlanLine}

theorem nodup_lines_iff (written : LinesOf scope cs lines)
    (under : ∀ c ∈ cs, '/' ∉ c.backupId.toList ∧
      ∀ key ∈ c.keys, startsWith key (setBound scope c.backupId) = true) :
    (lines.flatMap PlanLine.objectKeys).Nodup ↔ KeysApart cs := by
  rw [List.nodup_flatMap]
  constructor
  · rintro ⟨each, disjoint⟩
    constructor
    · intro front c back split none
      obtain ⟨line, member, joined⟩ := written.own c (split ▸ List.mem_append_right _ List.mem_cons_self)
      obtain ⟨front', d, back', split', joined', none', decides⟩ := written.first line member
      have found : cs.find? (joins · line) = some c := by
        refine List.find?_eq_some_iff_append.mpr ⟨joined, front, back, split, fun e early => ?_⟩
        by_contra mine
        rw [Bool.not_eq_true, Bool.not_eq_false'] at mine
        obtain ⟨set, manifest⟩ := joins_iff.mp mine
        obtain ⟨set', manifest'⟩ := joins_iff.mp joined
        exact none e early ⟨set.symm.trans set', manifest.symm.trans manifest'⟩
      have found' : cs.find? (joins · line) = some d := List.find?_eq_some_iff_append.mpr
        ⟨joined', front', back', split', fun e early => by rw [none' e early, Bool.not_false]⟩
      rw [found] at found'
      cases found'
      exact decides.mp (each line member)
    · intro c listed d listed' set other key named named'
      obtain ⟨line, member, joined⟩ := written.own c listed
      obtain ⟨line', member', joined'⟩ := written.own d listed'
      have differ : line ≠ line' := fun same => by
        subst same
        exact other ((joins_iff.mp joined).2.symm.trans (joins_iff.mp joined').2)
      have symmetric : Std.Symm (Function.onFun List.Disjoint PlanLine.objectKeys) :=
        ⟨fun l l' h => h.symm⟩
      have apart := disjoint.forall member member' differ
      exact apart ((written.keys line member key).mpr ⟨c, listed, joined, named⟩)
        ((written.keys line' member' key).mpr ⟨d, listed', joined', named'⟩)
  · intro apart
    constructor
    · intro line member
      obtain ⟨front, c, back, split, joined, none, decides⟩ := written.first line member
      refine decides.mpr (apart.once front c back split fun d early same => ?_)
      obtain ⟨set, manifest⟩ := joins_iff.mp joined
      have mine : joins d line = true := joins_iff.mpr
        ⟨set.trans same.1.symm, manifest.trans same.2.symm⟩
      rw [none d early] at mine
      cases mine
    · refine written.apart.imp_of_mem fun {l l'} member member' differ => ?_
      refine List.disjoint_left.mpr fun key named named' => ?_
      obtain ⟨c, listed, joined, mine⟩ := (written.keys l member key).mp named
      obtain ⟨d, listed', joined', yours⟩ := (written.keys l' member' key).mp named'
      obtain ⟨set, manifest⟩ := joins_iff.mp joined
      obtain ⟨set', manifest'⟩ := joins_iff.mp joined'
      have one : c.backupId = d.backupId := set_of_bound (under c listed).1 (under d listed').1
        ((under c listed).2 key mine) ((under d listed').2 key yours)
      by_cases twin : c.manifestKey = d.manifestKey
      · exact differ ⟨set.trans (one.trans set'.symm), manifest.trans (twin.trans manifest'.symm)⟩
      · exact apart.apart c listed d listed' one twin key mine yours

variable {identity : PlanIdentity} {destination : Destination} {rules : Rules} {plan : Plan}
  {binding : RunBinding}

/-- The worker accepts a written plan, under the binding the controller gives it, exactly if the
ceiling is not below nothing and the candidates name no key twice. -/
theorem validate_written_iff (distinct : (input.points.map PointFacts.pointId).Nodup)
    (written : planDocument identity destination rules (evaluate input) = .ok plan)
    (policy : binding.policyUid = identity.uid) (scope : binding.scopePrefix = destination.scopePrefix)
    (deletions : binding.maxDeletionsPerRun = input.maxDeletionsPerRun)
    (objects : objectCount plan ≤ binding.maxObjectsPerRun) :
    validatePlan plan binding = .ok () ↔
      0 ≤ input.maxDeletionsPerRun ∧ KeysApart (evaluate input).candidates := by
  obtain ⟨all, lines, uid, scope'⟩ := planDocument_ok written
  have lines_ := linesOf_buildLines destination.scopePrefix (evaluate input).candidates
  have under : ∀ c ∈ (evaluate input).candidates, '/' ∉ c.backupId.toList ∧
      ∀ key ∈ c.keys, startsWith key (setBound destination.scopePrefix c.backupId) = true :=
    fun c listed => ⟨(candidate_plain listed).2, fun key named => ((all c listed).keys key named).2⟩
  have keys := nodup_lines_iff lines_ under
  rw [← lines] at lines_ keys
  have points : plan.points.Perm ((evaluate input).candidates.map Candidate.pointId) := lines_.points
  obtain ⟨low, high⟩ := pointCount_bounds plan
  rw [validatePlan_ok]
  constructor
  · intro accepted
    exact ⟨deletions ▸ low.trans accepted.deletions, keys.mp accepted.once⟩
  · rintro ⟨ceiling, apart⟩
    constructor
    · rw [uid, policy]
    · rw [scope', scope]
    · exact points.nodup_iff.mpr (candidates_nodup distinct)
    · have few := length_candidates_le input
      have count := points.length_eq
      rw [List.length_map] at count
      unfold capOf at few
      rw [deletions]
      omega
    · intro line member
      obtain ⟨front, c, back, split, joined, -, -⟩ := lines_.first line member
      refine ⟨lines_.head line member, scope ▸ lines_.bound line member, fun key named => ?_⟩
      obtain ⟨d, listed, joined', mine⟩ := (lines_.keys line member key).mp named
      rw [lines_.bound line member, (joins_iff.mp joined').1]
      exact (all d listed).keys key mine
    · exact keys.mpr apart
    · rwa [← objectCount_eq]

theorem keysApart_one {c : Candidate} (once : c.keys.Nodup) : KeysApart [c] where
  once := by
    intro front d back split _
    have member : d ∈ [c] := split ▸ List.mem_append_right _ List.mem_cons_self
    rw [List.mem_singleton.mp member]
    exact once
  apart := by
    intro d listed e listed' _ differ
    rw [List.mem_singleton.mp listed, List.mem_singleton.mp listed'] at differ
    exact absurd rfl differ

/-- A candidate that names one segment twice: the writer writes it, and the worker refuses it. -/
theorem repeated_segment_refused : ∃ plan,
    writtenFor [nightly "p" "old" 1 ["a/old/s", "a/old/s"], nightly "q" "new" 2 []] = .ok plan ∧
    validatePlan plan ⟨"uid", "a", 10, objectCount plan⟩ =
      .error (.duplicateKey "a/old/s" "p" "p") := by
  refine ⟨_, rfl, ?_⟩
  decide +kernel

theorem validate_written_two : ∃ plan,
    writtenFor [nightly "p" "old" 1 ["a/old/s"], nightly "q" "new" 2 []] = .ok plan ∧
    validatePlan plan ⟨"uid", "a", 10, objectCount plan⟩ = .ok () := by
  refine ⟨_, rfl, ?_⟩
  have apart : KeysApart (evaluate (keepingOne
      [nightly "p" "old" 1 ["a/old/s"], nightly "q" "new" 2 []])).candidates :=
    keysApart_one (c := candidateOf (nightly "p" "old" 1 ["a/old/s"]) .beyondKeepLast) (by decide)
  exact (validate_written_iff (by decide) (rfl : writtenFor
    [nightly "p" "old" 1 ["a/old/s"], nightly "q" "new" 2 []] = .ok _) rfl rfl rfl
    (by decide +kernel)).mpr ⟨by decide, apart⟩

end Logweir.Retention
