import Logweir.Retention.Evaluated
import Mathlib.Data.List.Induction

/-!
# The lines of a written plan

What the writer's lines are in terms of the candidates: one line for each set and manifest,
with the points and the keys of all the candidates that name them.  A written plan spares
what the evaluation retained, and removes a group whole or not at all.
-/

set_option autoImplicit false

namespace Logweir.Retention

open Logweir.Text Logweir.Results

/-- The candidate may be planned: its keys are in scope, and nothing retained is under them. -/
structure Plannable (retained : RetainedObjects) (scope : String) (c : Candidate) : Prop where
  keys : ∀ key ∈ c.keys, startsWith key EVIDENCE_ROOT = false ∧
    startsWith key (setBound scope c.backupId) = true
  set : c.backupId ∉ retained.backupIds
  spared : ∀ key ∈ retained.keys, startsWith key (setBound scope c.backupId) = false ∧ key ∉ c.keys

def buildLines (scope : String) (cs : List Candidate) : List PlanLine :=
  cs.foldl (fun lines c => addCandidate scope c lines) []

variable {retained : RetainedObjects} {scope key : String} {c : Candidate} {cs : List Candidate}
  {lines lines' : List PlanLine} {line : PlanLine} {identity : PlanIdentity}
  {destination : Destination} {rules : Rules} {evaluation : Evaluation} {plan : Plan}

theorem validateKey_ok {backupId : String} : validateKey scope backupId key = .ok () ↔
    startsWith key EVIDENCE_ROOT = false ∧ startsWith key (setBound scope backupId) = true := by
  unfold validateKey
  cases startsWith key EVIDENCE_ROOT <;> cases startsWith key (setBound scope backupId) <;> simp

theorem planCandidate_ok : planCandidate retained scope lines c = .ok lines' →
    Plannable retained scope c ∧ lines' = addCandidate scope c lines := by
  unfold planCandidate
  intro planned
  cases valid : c.keys.forM (validateKey scope c.backupId) with
  | error violation =>
      rw [valid] at planned
      cases planned
  | ok done =>
      rw [valid] at planned
      dsimp only at planned
      split_ifs at planned with shared
      cases named : sharedKey retained scope c with
      | some key =>
          rw [named] at planned
          cases planned
      | none =>
          rw [named] at planned
          cases planned
          refine ⟨⟨fun key member => validateKey_ok.mp (ok_of_forM c.keys valid key member),
            by simpa using shared, fun key member => ?_⟩, rfl⟩
          have free := List.find?_eq_none.mp named key member
          simpa using free

theorem foldlM_planCandidate (planned : cs.foldlM (planCandidate retained scope) lines = .ok lines') :
    (∀ c ∈ cs, Plannable retained scope c) ∧
      lines' = cs.foldl (fun lines c => addCandidate scope c lines) lines := by
  induction cs generalizing lines with
  | nil =>
      cases planned
      exact ⟨by simp, rfl⟩
  | cons c cs ih =>
      rw [List.foldlM_cons, bind_eq_ok] at planned
      obtain ⟨middle, first, rest⟩ := planned
      obtain ⟨plannable, rfl⟩ := planCandidate_ok first
      obtain ⟨all, rfl⟩ := ih rest
      exact ⟨List.forall_mem_cons.mpr ⟨plannable, all⟩, rfl⟩

theorem planDocument_ok (written : planDocument identity destination rules evaluation = .ok plan) :
    (∀ c ∈ evaluation.candidates, Plannable evaluation.retained destination.scopePrefix c) ∧
      plan.lines = buildLines destination.scopePrefix evaluation.candidates ∧
      plan.policyUid = identity.uid ∧ plan.scopePrefix = destination.scopePrefix := by
  unfold planDocument at written
  rw [bind_eq_ok] at written
  obtain ⟨lines, planned, same⟩ := written
  cases same
  obtain ⟨all, rfl⟩ := foldlM_planCandidate planned
  exact ⟨all, rfl, rfl, rfl⟩

theorem addCandidate_cases (scope : String) (c : Candidate) (lines : List PlanLine) :
    (∃ front line back, lines = front ++ line :: back ∧ joins c line = true ∧
      addCandidate scope c lines = front ++ joinLine c line :: back) ∨
    ((∀ line ∈ lines, joins c line = false) ∧
      addCandidate scope c lines = lines ++ [lineOf scope c]) := by
  induction lines with
  | nil => exact .inr ⟨by simp, rfl⟩
  | cons line lines ih =>
      unfold addCandidate
      cases joined : joins c line with
      | true => exact .inl ⟨[], line, lines, rfl, joined, rfl⟩
      | false =>
          rcases ih with ⟨front, line', back, rfl, joined', added⟩ | ⟨none, added⟩
          · exact .inl ⟨line :: front, line', back, rfl, joined', by simp [added]⟩
          · exact .inr ⟨List.forall_mem_cons.mpr ⟨joined, none⟩, by simp [added]⟩

theorem mem_pushKeys {more : List String} {keys : List String} :
    key ∈ more.foldl pushKey keys ↔ key ∈ keys ∨ key ∈ more := by
  induction more generalizing keys with
  | nil => simp
  | cons k more ih =>
      rw [List.foldl_cons, ih, List.mem_cons]
      unfold pushKey
      split_ifs with held
      · have inside : k ∈ keys := by simpa using held
        constructor
        · rintro (old | new)
          · exact .inl old
          · exact .inr (.inr new)
        · rintro (old | rfl | new)
          · exact .inl old
          · exact .inl inside
          · exact .inr new
      · rw [List.mem_append, List.mem_singleton, or_assoc]

theorem nodup_pushKeys {more : List String} {keys : List String} :
    (more.foldl pushKey keys).Nodup ↔ keys.Nodup := by
  induction more generalizing keys with
  | nil => rfl
  | cons k more ih =>
      rw [List.foldl_cons, ih]
      unfold pushKey
      split_ifs with held
      · rfl
      · have outside : k ∉ keys := by simpa using held
        simp [List.nodup_append', outside]

theorem head?_pushKeys {more : List String} {keys : List String} (filled : keys ≠ []) :
    (more.foldl pushKey keys).head? = keys.head? := by
  induction more generalizing keys with
  | nil => rfl
  | cons k more ih =>
      have still : pushKey keys k ≠ [] := by
        unfold pushKey
        split_ifs <;> simp [filled]
      rw [List.foldl_cons, ih still]
      unfold pushKey
      split_ifs
      · rfl
      · rw [List.head?_append_of_ne_nil _ filled]

theorem joins_iff : joins c line = true ↔
    line.backupId = c.backupId ∧ line.manifestKey = c.manifestKey := by
  simp [joins]

/-- The lines that these candidates have been given. -/
structure LinesOf (scope : String) (cs : List Candidate) (lines : List PlanLine) : Prop where
  points : (lines.flatMap linePoints).Perm (cs.map Candidate.pointId)
  head : ∀ line ∈ lines, line.objectKeys.head? = some line.manifestKey
  bound : ∀ line ∈ lines, line.setPrefix = setBound scope line.backupId
  keys : ∀ line ∈ lines, ∀ key, key ∈ line.objectKeys ↔ ∃ c ∈ cs, joins c line = true ∧ key ∈ c.keys
  own : ∀ c ∈ cs, ∃ line ∈ lines, joins c line = true
  apart : lines.Pairwise fun l l' => ¬ (l.backupId = l'.backupId ∧ l.manifestKey = l'.manifestKey)
  /-- The first candidate of a line decides whether its keys are distinct. -/
  first : ∀ line ∈ lines, ∃ front c back, cs = front ++ c :: back ∧ joins c line = true ∧
    (∀ c' ∈ front, joins c' line = false) ∧ (line.objectKeys.Nodup ↔ c.keys.Nodup)

theorem joins_joinLine (c d : Candidate) (line : PlanLine) : joins d (joinLine c line) = joins d line := rfl

theorem LinesOf.joined (written : LinesOf scope cs lines) {front back : List PlanLine}
    (split : lines = front ++ line :: back) (joined : joins c line = true) :
    LinesOf scope (cs ++ [c]) (front ++ joinLine c line :: back) := by
  subst split
  have member : line ∈ front ++ line :: back := List.mem_append_right _ List.mem_cons_self
  have filled : line.objectKeys ≠ [] := fun none => by
    have head := written.head line member
    rw [none] at head
    cases head
  obtain ⟨set, manifest⟩ := joins_iff.mp joined
  have others : ∀ l ∈ front ++ joinLine c line :: back,
      l = joinLine c line ∨ (l ∈ front ++ line :: back ∧ joins c l = false) := by
    intro l member'
    have apart := List.pairwise_append.mp written.apart
    rcases List.mem_append.mp member' with early | late
    · refine .inr ⟨List.mem_append_left _ early, ?_⟩
      by_contra joins_
      rw [Bool.not_eq_false, joins_iff] at joins_
      exact apart.2.2 l early line List.mem_cons_self ⟨joins_.1.trans set.symm, joins_.2.trans manifest.symm⟩
    · rcases List.mem_cons.mp late with rfl | late
      · exact .inl rfl
      · refine .inr ⟨List.mem_append_right _ (List.mem_cons_of_mem _ late), ?_⟩
        by_contra joins_
        rw [Bool.not_eq_false, joins_iff] at joins_
        exact (List.pairwise_cons.mp apart.2.1).1 l late
          ⟨set.trans joins_.1.symm, manifest.trans joins_.2.symm⟩
  constructor
  · rw [List.map_append, List.flatMap_append, List.flatMap_cons]
    have before := written.points
    rw [List.flatMap_append, List.flatMap_cons] at before
    have moved : linePoints (joinLine c line) = linePoints line ++ [c.pointId] := rfl
    rw [moved, List.append_assoc, List.map_singleton]
    rw [← List.append_assoc]
    refine (List.Perm.append_left _ List.perm_append_comm).trans ?_
    rw [← List.append_assoc, List.append_assoc (front.flatMap linePoints)]
    exact before.append_right _
  · intro l member'
    rcases others l member' with rfl | ⟨old, -⟩
    · exact (head?_pushKeys filled).trans (written.head line member)
    · exact written.head l old
  · intro l member'
    rcases others l member' with rfl | ⟨old, -⟩
    · exact written.bound line member
    · exact written.bound l old
  · intro l member' key
    rcases others l member' with rfl | ⟨old, apart⟩
    · have pushed : key ∈ (joinLine c line).objectKeys ↔ key ∈ line.objectKeys ∨ key ∈ c.segmentKeys :=
        mem_pushKeys
      rw [pushed, written.keys line member]
      constructor
      · rintro (⟨d, listed, mine, named⟩ | segment)
        · exact ⟨d, List.mem_append_left _ listed, mine, named⟩
        · exact ⟨c, by simp, joined, List.mem_cons_of_mem _ segment⟩
      · rintro ⟨d, listed, mine, named⟩
        rcases List.mem_append.mp listed with early | late
        · exact .inl ⟨d, early, mine, named⟩
        · rw [List.mem_singleton.mp late] at named
          rcases List.mem_cons.mp named with rfl | segment
          · left
            rw [← written.keys line member, ← manifest]
            exact List.mem_of_mem_head? (written.head line member)
          · exact .inr segment
    · rw [written.keys l old]
      constructor
      · rintro ⟨d, listed, mine, named⟩
        exact ⟨d, List.mem_append_left _ listed, mine, named⟩
      · rintro ⟨d, listed, mine, named⟩
        rcases List.mem_append.mp listed with early | late
        · exact ⟨d, early, mine, named⟩
        · rw [List.mem_singleton.mp late, apart] at mine
          cases mine
  · intro d listed
    have moved : ∀ l ∈ front ++ line :: back, joins d l = true →
        ∃ l' ∈ front ++ joinLine c line :: back, joins d l' = true := by
      intro l old mine
      rcases List.mem_append.mp old with early | late
      · exact ⟨l, List.mem_append_left _ early, mine⟩
      · rcases List.mem_cons.mp late with rfl | late
        · exact ⟨joinLine c l, List.mem_append_right _ List.mem_cons_self, mine⟩
        · exact ⟨l, List.mem_append_right _ (List.mem_cons_of_mem _ late), mine⟩
    rcases List.mem_append.mp listed with early | late
    · obtain ⟨l, old, mine⟩ := written.own d early
      exact moved l old mine
    · obtain rfl := List.mem_singleton.mp late
      exact moved line member joined
  · have apart := written.apart
    rw [List.pairwise_append, List.pairwise_cons] at apart ⊢
    exact ⟨apart.1, apart.2.1, fun l early l' late => by
      rcases List.mem_cons.mp late with rfl | late
      · exact apart.2.2 l early line List.mem_cons_self
      · exact apart.2.2 l early l' (List.mem_cons_of_mem _ late)⟩
  · have widen : ∀ l ∈ front ++ line :: back, ∃ front d back, cs ++ [c] = front ++ d :: back ∧
        joins d l = true ∧ (∀ d' ∈ front, joins d' l = false) ∧
        (l.objectKeys.Nodup ↔ d.keys.Nodup) := fun l old => by
      obtain ⟨before, d, after, rfl, rest⟩ := written.first l old
      exact ⟨before, d, after ++ [c], by simp, rest⟩
    intro l member'
    rcases others l member' with rfl | ⟨old, -⟩
    · obtain ⟨before, d, after, split, mine, none, decides⟩ := widen line member
      refine ⟨before, d, after, split, mine, none, ?_⟩
      rw [← decides]
      exact nodup_pushKeys
    · exact widen l old

theorem LinesOf.begun (written : LinesOf scope cs lines) (none : ∀ line ∈ lines, joins c line = false) :
    LinesOf scope (cs ++ [c]) (lines ++ [lineOf scope c]) := by
  have self : joins c (lineOf scope c) = true := by simp [joins, lineOf]
  have alone : ∀ d ∈ cs, joins d (lineOf scope c) = false := by
    intro d listed
    by_contra mine
    rw [Bool.not_eq_false, joins_iff] at mine
    obtain ⟨line, member, own⟩ := written.own d listed
    obtain ⟨set, manifest⟩ := joins_iff.mp own
    have joined : joins c line = true := joins_iff.mpr
      ⟨set.trans mine.1.symm, manifest.trans mine.2.symm⟩
    rw [none line member] at joined
    cases joined
  have cases_ : ∀ l ∈ lines ++ [lineOf scope c], l ∈ lines ∨ l = lineOf scope c := fun l member => by
    rcases List.mem_append.mp member with old | new
    · exact .inl old
    · exact .inr (List.mem_singleton.mp new)
  constructor
  · rw [List.map_append, List.flatMap_append]
    exact written.points.append_right _
  · intro l member
    rcases cases_ l member with old | rfl
    · exact written.head l old
    · rfl
  · intro l member
    rcases cases_ l member with old | rfl
    · exact written.bound l old
    · rfl
  · intro l member key
    rcases cases_ l member with old | rfl
    · rw [written.keys l old]
      constructor
      · rintro ⟨d, listed, rest⟩
        exact ⟨d, List.mem_append_left _ listed, rest⟩
      · rintro ⟨d, listed, mine, named⟩
        rcases List.mem_append.mp listed with early | late
        · exact ⟨d, early, mine, named⟩
        · rw [List.mem_singleton.mp late, none l old] at mine
          cases mine
    · constructor
      · exact fun named => ⟨c, by simp, self, named⟩
      · rintro ⟨d, listed, mine, named⟩
        rcases List.mem_append.mp listed with early | late
        · rw [alone d early] at mine
          cases mine
        · rwa [List.mem_singleton.mp late] at named
  · intro d listed
    rcases List.mem_append.mp listed with early | late
    · obtain ⟨l, old, mine⟩ := written.own d early
      exact ⟨l, List.mem_append_left _ old, mine⟩
    · rw [List.mem_singleton.mp late]
      exact ⟨_, List.mem_append_right _ (List.mem_singleton_self _), self⟩
  · rw [List.pairwise_append]
    refine ⟨written.apart, List.pairwise_singleton _ _, fun l old l' new same => ?_⟩
    rw [List.mem_singleton.mp new] at same
    have joined : joins c l = true := joins_iff.mpr same
    rw [none l old] at joined
    cases joined
  · intro l member
    rcases cases_ l member with old | rfl
    · obtain ⟨before, d, after, rfl, rest⟩ := written.first l old
      exact ⟨before, d, after ++ [c], by simp, rest⟩
    · exact ⟨cs, c, [], rfl, self, alone, Iff.rfl⟩

theorem linesOf_buildLines (scope : String) (cs : List Candidate) :
    LinesOf scope cs (buildLines scope cs) := by
  induction cs using List.reverseRecOn with
  | nil => exact ⟨by simp [buildLines], by simp [buildLines], by simp [buildLines],
      by simp [buildLines], by simp, by simp [buildLines], by simp [buildLines]⟩
  | append_singleton cs c ih =>
      rw [buildLines, List.foldl_append]
      rw [buildLines] at ih
      rcases addCandidate_cases scope c (cs.foldl (fun lines c => addCandidate scope c lines) []) with
        ⟨front, line, back, split, joined, added⟩ | ⟨none, added⟩
      · rw [List.foldl_cons, List.foldl_nil, added]
        exact ih.joined split joined
      · rw [List.foldl_cons, List.foldl_nil, added]
        exact ih.begun none

variable {input : Input}

theorem mem_points (written : planDocument identity destination rules (evaluate input) = .ok plan)
    {p : PointFacts} : p.pointId ∈ plan.points ↔ Chosen input p := by
  obtain ⟨-, lines, -, -⟩ := planDocument_ok written
  rw [Plan.points, lines]
  exact (linesOf_buildLines _ _).points.mem_iff

theorem line_spares (written : planDocument identity destination rules evaluation = .ok plan)
    (member : line ∈ plan.lines) : line.backupId ∉ evaluation.retained.backupIds ∧
      ∀ key ∈ evaluation.retained.keys, startsWith key line.setPrefix = false ∧ key ∉ line.objectKeys := by
  obtain ⟨all, lines, -, -⟩ := planDocument_ok written
  rw [lines] at member
  have lines_ := linesOf_buildLines destination.scopePrefix evaluation.candidates
  obtain ⟨front, c, back, split, joined, -, -⟩ := lines_.first line member
  have listed : c ∈ evaluation.candidates := split ▸ List.mem_append_right _ List.mem_cons_self
  obtain ⟨set, -⟩ := joins_iff.mp joined
  refine ⟨set ▸ (all c listed).set, fun key kept => ⟨?_, fun named => ?_⟩⟩
  · rw [lines_.bound line member, set]
    exact ((all c listed).spared key kept).1
  · obtain ⟨d, listed', -, named'⟩ := (lines_.keys line member key).mp named
    exact ((all d listed').spared key kept).2 named'

/-- The next point of a chain of points that are seen and share. -/
def LinkedNext (input : Input) (p q : PointFacts) : Prop :=
  q ∈ input.points ∧ Seen input q ∧ Shares p q

/-- A written plan spares every point that is seen and not a candidate: neither its set nor one of
its keys is removed. Points linked by what they share are removed together or not at all. -/
theorem plan_spares (distinct : (input.points.map PointFacts.pointId).Nodup)
    (written : planDocument identity destination rules (evaluate input) = .ok plan) :
    (∀ line ∈ plan.lines, ∀ p ∈ input.points, Seen input p → ¬ Chosen input p →
      p.backupId ≠ line.backupId ∧
        ∀ key ∈ p.keys, startsWith key line.setPrefix = false ∧ key ∉ line.objectKeys) ∧
    ∀ p ∈ input.points, Seen input p → ∀ q, Relation.ReflTransGen (LinkedNext input) p q →
      (p.pointId ∈ plan.points ↔ q.pointId ∈ plan.points) := by
  constructor
  · intro line member p listed seen left
    obtain ⟨set, keys⟩ := retained_of_not_chosen listed seen left
    obtain ⟨other, spared⟩ := line_spares written member
    exact ⟨fun same => other (same ▸ set), fun key named => spared key (keys key named)⟩
  · intro p listed seen q linked
    have kept : q ∈ input.points ∧ Seen input q ∧ (Chosen input p ↔ Chosen input q) := by
      induction linked with
      | refl => exact ⟨listed, seen, Iff.rfl⟩
      | tail _ next ih =>
          obtain ⟨member, seen', shares⟩ := next
          exact ⟨member, seen', ih.2.2.trans (chosen_of_shares distinct ih.1 ih.2.1 member seen' shares)⟩
    rw [mem_points written, mem_points written]
    exact kept.2.2

def nightly (pointId backupId : String) (at_ : Int) (segmentKeys : List String) : PointFacts where
  pointId
  backupId
  recoveryPointAtMs := at_
  locations := ["s3://bucket"]
  availability := .available
  verification := .verified
  manifestKey := some ("a/" ++ backupId ++ "/m")
  segmentKeys
  bytes := none
  refusedByController := false

def keepingOne (points : List PointFacts) : Input where
  destination := ⟨"s3://bucket", "a"⟩
  points
  rules := ⟨some 1, none, 1⟩
  now := 0
  maxDeletionsPerRun := 10

def nightlyIdentity : PlanIdentity := ⟨"ns", "policy", "uid"⟩

def writtenFor (points : List PointFacts) : Except PlanError Plan :=
  planDocument nightlyIdentity (keepingOne points).destination (keepingOne points).rules
    (evaluate (keepingOne points))

theorem plan_spares_two : ∃ plan, writtenFor [nightly "p" "old" 1 [], nightly "q" "new" 2 []] = .ok plan ∧
    plan.points = ["p"] ∧ ∀ line ∈ plan.lines, "new" ≠ line.backupId := by
  refine ⟨_, rfl, by decide +kernel, fun line member => ?_⟩
  have spared := (plan_spares (by decide) (rfl : writtenFor
    [nightly "p" "old" 1 [], nightly "q" "new" 2 []] = .ok _)).1 line member
    (nightly "q" "new" 2 []) (by decide) (.inl (by decide)) (by unfold Chosen; decide +kernel)
  exact spared.1

end Logweir.Retention
