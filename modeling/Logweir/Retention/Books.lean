import Logweir.Retention.Safety
import Mathlib.Algebra.BigOperators.Group.List.Basic
import Mathlib.Algebra.Ring.Int.Defs

/-!
# The accounts of a run

What a run that came to its end reports, against what it was told: one outcome for every point of
the plan, the objects counted once, and for a line whose check came back clean the keys that are
left, which with the ones answered gone are the keys the line came to mean.
-/

set_option autoImplicit false

namespace Logweir.Retention

open Logweir.Programs Program

/-- The line's check was written, and came back without a version id. -/
def CheckedClean (run : RunAttribution) (log : Log) (line : PlanLine) : Prop :=
  Written log line (tombstoneKey run line.pointId "check")

/-- The line names its manifest first and no key twice. -/
def NamesManifest (line : PlanLine) : Prop :=
  line.objectKeys.head? = some line.manifestKey ∧ line.objectKeys.Nodup

/-- These are the keys the line came to mean without those that were answered gone for it. -/
def LeftOf (log : Log) (line : PlanLine) (keys remaining : List String) : Prop :=
  remaining.Sublist keys ∧ ∀ key ∈ keys, (key ∈ remaining ↔ ¬ Gone log line key)

structure Books (plan : Plan) (run : RunAttribution) (limits : Limits) (log : Log) (out : Outcome) :
    Prop where
  points : out.points.map PointOutcome.pointId = plan.points
  sum : (out.points.map PointOutcome.objectsDeleted).sum = out.objectsDeleted
  deleted : limits.dryRun = false → ∀ p ∈ out.points,
    (p.state = PointState.deleted.asStr ↔ p.remainingKeys = [])
  left : ∀ line ∈ plan.lines, ∀ keys, Resolved log line keys → CheckedClean run log line →
    ∀ p ∈ out.points, p.pointId ∈ linePoints line → LeftOf log line keys p.remainingKeys

structure EndedRun where
  plan : Plan
  run : RunAttribution
  limits : Limits
  log : Log
  out : Outcome
  points : plan.points.Nodup
  fits : limits.maxObjects ≤ I64_MAX
  traced : Traced (execute plan run limits) log (.done out)

def EndedRun.Accounts (r : EndedRun) : Prop := Books r.plan r.run r.limits r.log r.out

section

variable {run : RunAttribution} {limits : Limits} {line l : PlanLine} {key : String}
  {keys remaining : List String} {log log' more : Log} {front : List PlanLine} {out out' : Outcome}

/-- The logs hold the same calls of the line. -/
def SameFor (l : PlanLine) (log log' : Log) : Prop := ∀ e, e.call.line = l → (e ∈ log ↔ e ∈ log')

theorem sameFor_left (others : ∀ e ∈ more, e.call.line ≠ l) : SameFor l (log ++ more) log := by
  intro e own
  rw [List.mem_append, or_iff_left fun late => others e late own]

theorem sameFor_right (others : ∀ e ∈ log, e.call.line ≠ l) : SameFor l (log ++ more) more := by
  intro e own
  rw [List.mem_append, or_iff_right fun early => others e early own]

theorem SameFor.resolved (same : SameFor l log log') : Resolved log l keys ↔ Resolved log' l keys := by
  unfold Resolved
  refine or_congr_right (and_congr_right fun _ => exists_congr fun listed => ?_)
  exact and_congr_left fun _ => same _ rfl

theorem SameFor.gone (same : SameFor l log log') : Gone log l key ↔ Gone log' l key := by
  unfold Gone
  rw [same _ rfl, same _ rfl, same _ rfl]

theorem SameFor.clean (same : SameFor l log log') :
    CheckedClean run log l ↔ CheckedClean run log' l := by
  unfold CheckedClean Written
  refine exists_congr fun bytes => exists_congr fun version => ?_
  rw [same _ rfl]

theorem SameFor.leftOf (same : SameFor l log log') :
    LeftOf log l keys remaining ↔ LeftOf log' l keys remaining := by
  unfold LeftOf
  simp only [same.gone]

theorem zipIdx_zero {n : Int} {coPoints : List String} {state : String} {code : Option String}
    {start : Nat} (later : 0 < start) :
    (((coPoints.zipIdx start).map fun (point, i) =>
      (⟨point, state, if i = 0 then n else 0, remaining, code⟩ : PointOutcome)).map
        PointOutcome.objectsDeleted).sum = 0 := by
  induction coPoints generalizing start with
  | nil => rfl
  | cons point coPoints ih =>
      rw [List.zipIdx_cons, List.map_cons, List.map_cons, List.sum_cons, ih (Nat.succ_pos start)]
      simp [Nat.ne_of_gt later]

theorem pushLine_ids {state : PointState} {n : Int} {code : Option String} :
    (pushLine out line state n remaining code).points.map PointOutcome.pointId =
      out.points.map PointOutcome.pointId ++ linePoints line := by
  rw [pushLine, List.map_append, List.map_map]
  exact congrArg _ (List.zipIdx_map_fst 0 (linePoints line))

theorem pushLine_sum {state : PointState} {n : Int} {code : Option String} :
    ((pushLine out line state n remaining code).points.map PointOutcome.objectsDeleted).sum =
      (out.points.map PointOutcome.objectsDeleted).sum + n := by
  rw [pushLine, List.map_append, List.sum_append, linePoints, List.zipIdx_cons, List.map_cons,
    List.map_cons, List.sum_cons, zipIdx_zero (Nat.succ_pos 0)]
  simp

theorem pushed {state : PointState} {n : Int} {code : Option String} {p : PointOutcome}
    (member : p ∈ (pushLine out line state n remaining code).points) :
    p ∈ out.points ∨
      p.pointId ∈ linePoints line ∧ p.state = state.asStr ∧ p.remainingKeys = remaining := by
  rcases List.mem_append.mp member with early | late
  · exact .inl early
  · obtain ⟨⟨point, i⟩, listed, rfl⟩ := List.mem_map.mp late
    exact .inr ⟨(List.mem_zipIdx' listed).2 ▸ List.getElem_mem _, rfl, rfl⟩

theorem stateAfter_deleted : (stateAfter remaining).asStr = PointState.deleted.asStr ↔
    remaining = [] := by
  unfold stateAfter
  cases remaining with
  | nil => exact iff_of_true rfl rfl
  | cons key rest =>
      have other : PointState.orphaned.asStr ≠ PointState.deleted.asStr := by decide
      exact iff_of_false other (List.cons_ne_nil _ _)

theorem resolved_head (named : NamesManifest line) (resolved : Resolved log line keys) :
    keys.head? = some line.manifestKey ∧ keys.Nodup := by
  rcases resolved with ⟨-, rfl⟩ | ⟨-, listed, -, passed⟩
  · exact named
  · unfold checkListed at passed
    split at passed
    · exact Results.not_ok passed
    · obtain rfl := Except.ok.inj passed
      exact ⟨rfl, orderKeys_nodup listed⟩

theorem LineEnd.deleted (ended : LineEnd run line more out out') (named : NamesManifest line)
    (before : ∀ p ∈ out.points, (p.state = PointState.deleted.asStr ↔ p.remainingKeys = [])) :
    ∀ p ∈ out'.points, (p.state = PointState.deleted.asStr ↔ p.remainingKeys = []) := by
  have some_ {keys : List String} (means : keys = line.objectKeys ∨ Resolved more line keys) :
      keys ≠ [] := by
    have head : keys.head? = some line.manifestKey := by
      rcases means with rfl | resolved
      · exact named.1
      · exact (resolved_head named resolved).1
    exact List.ne_nil_of_mem (List.mem_of_mem_head? head)
  intro p member
  cases ended with
  | kept keys code kept points count =>
      rcases pushed member with early | ⟨-, state, remaining⟩
      · exact before p (points ▸ early)
      · rw [state, remaining]
        exact iff_of_false (by decide) (some_ kept.means)
  | verified keys rest removed answer code finished clean number points count =>
      rcases pushed member with early | ⟨-, state, remaining⟩
      · exact before p (points ▸ early)
      · rw [state, remaining]
        exact stateAfter_deleted
  | unverified keys rest answer code finished unclean points count =>
      rcases pushed member with early | ⟨-, state, remaining⟩
      · exact before p (points ▸ early)
      · rw [state, remaining]
        exact stateAfter_deleted

theorem unverified_of_written {version : Option String} (plain : isVersioned version = false) :
    unverified (.ok version) = none := by
  simp [unverified, plain]

theorem LineEnd.leftOf (ended : LineEnd run line more out out') (named : NamesManifest line)
    (resolved : Resolved more line keys) (clean : CheckedClean run more line) :
    ∀ p ∈ out'.points, p ∈ out.points ∨ LeftOf more line keys p.remainingKeys := by
  intro p member
  obtain ⟨bytes, version, written, plain⟩ := clean
  cases ended with
  | kept keys code kept points count => exact absurd rfl (kept.unchecked _ written bytes)
  | @verified _ keys' rest removed answer code finished clean number points count =>
      rcases pushed member with early | ⟨-, state, remaining⟩
      · exact .inl (points ▸ early)
      · obtain rfl : keys = keys' := finished.resolved.2 keys resolved
        obtain ⟨head, nodup⟩ := resolved_head named resolved
        obtain ⟨manifest, segments, rfl⟩ : ∃ manifest segments, keys = manifest :: segments :=
          List.exists_cons_of_ne_nil (List.ne_nil_of_mem (List.mem_of_mem_head? head))
        obtain rfl := Option.some.inj head
        have gone := finished.gone nodup
        have fresh := (List.nodup_cons.mp nodup).1
        rw [remaining]
        refine .inr ⟨finished.left.cons _, List.forall_mem_cons.mpr ⟨?_, gone⟩⟩
        exact iff_of_false (fun again => fresh (finished.left.mem again)) (not_not.mpr finished.manifest)
  | unverified keys rest answer code finished unclean points count =>
      have same := finished.once bytes _ written
      exact absurd (same ▸ unverified_of_written plain) unclean

theorem LineEnd.ids (ended : LineEnd run line more out out') :
    out'.points.map PointOutcome.pointId = out.points.map PointOutcome.pointId ++ linePoints line := by
  cases ended with
  | kept keys code kept points count => rw [pushLine_ids, points]
  | verified keys rest removed answer code finished clean number points count =>
      rw [pushLine_ids, points]
  | unverified keys rest answer code finished unclean points count => rw [pushLine_ids, points]

theorem LineEnd.earlier (ended : LineEnd run line more out out') :
    ∀ p ∈ out'.points, p.pointId ∉ linePoints line → p ∈ out.points := by
  intro p member other
  cases ended with
  | kept keys code kept points count =>
      exact points ▸ (pushed member).resolve_right fun mine => other mine.1
  | verified keys rest removed answer code finished clean number points count =>
      exact points ▸ (pushed member).resolve_right fun mine => other mine.1
  | unverified keys rest answer code finished unclean points count =>
      exact points ▸ (pushed member).resolve_right fun mine => other mine.1

theorem LineEnd.made (ended : LineEnd run line more out out') : ∀ e ∈ more, e.call.line = line := by
  cases ended with
  | kept keys code kept points count => exact kept.made
  | verified keys rest removed answer code finished clean number points count => exact finished.made
  | unverified keys rest answer code finished unclean points count => exact finished.made

theorem LineEnd.sum (ended : LineEnd run line more out out')
    (before : (out.points.map PointOutcome.objectsDeleted).sum = out.objectsDeleted) :
    (out'.points.map PointOutcome.objectsDeleted).sum = out'.objectsDeleted := by
  cases ended with
  | kept keys code kept points count =>
      rw [pushLine_sum, points, before, Int.add_zero]
      exact count.symm
  | verified keys rest removed answer code finished clean number points count =>
      rw [pushLine_sum, points, before]
      exact count.symm
  | unverified keys rest answer code finished unclean points count =>
      rw [pushLine_sum, points, before, Int.add_zero]
      exact count.symm

structure Entered (run : RunAttribution) (limits : Limits) (front : List PlanLine) (log : Log)
    (out : Outcome) : Prop where
  made : ∀ e ∈ log, e.call.line ∈ front
  charged : Charged run log out
  points : out.points.map PointOutcome.pointId = front.flatMap linePoints
  sum : (out.points.map PointOutcome.objectsDeleted).sum = out.objectsDeleted
  deleted : limits.dryRun = false → (∀ line ∈ front, NamesManifest line) → ∀ p ∈ out.points,
    (p.state = PointState.deleted.asStr ↔ p.remainingKeys = [])
  left : (∀ line ∈ front, NamesManifest line) → ∀ line ∈ front, ∀ keys, Resolved log line keys →
    CheckedClean run log line → ∀ p ∈ out.points, p.pointId ∈ linePoints line →
      LeftOf log line keys p.remainingKeys

theorem Entered.next (entered : Entered run limits front log out)
    (ended : LineEnd run line more out out') (once : (front ++ [line]).flatMap linePoints |>.Nodup) :
    Entered run limits (front ++ [line]) (log ++ more) out' := by
  rw [List.flatMap_append, List.flatMap_cons, List.flatMap_nil, List.append_nil,
    List.nodup_append'] at once
  have apart : ∀ l ∈ front, ∀ point ∈ linePoints l, point ∉ linePoints line :=
    fun l here point own => List.disjoint_left.mp once.2.2 (List.mem_flatMap.mpr ⟨l, here, own⟩)
  have own : line.pointId ∈ linePoints line := List.mem_cons_self
  have fresh : line ∉ front := fun here => apart line here _ own own
  refine ⟨fun e member => ?_, ended.charged entered.charged, ?_, ended.sum entered.sum,
    fun real named => ?_, fun named l here keys resolved clean p member point => ?_⟩
  · rcases List.mem_append.mp member with early | late
    · exact List.mem_append_left _ (entered.made e early)
    · rw [ended.made e late]
      exact List.mem_append_right _ (List.mem_singleton_self line)
  · rw [ended.ids, entered.points, List.flatMap_append, List.flatMap_cons, List.flatMap_nil,
      List.append_nil]
  · refine ended.deleted (named line (List.mem_append_right _ (List.mem_singleton_self line))) ?_
    exact entered.deleted real fun l here => named l (List.mem_append_left _ here)
  · have known : ∀ p ∈ out.points, ∃ l ∈ front, p.pointId ∈ linePoints l := fun p early =>
      List.mem_flatMap.mp (entered.points ▸ List.mem_map_of_mem early)
    rcases List.mem_append.mp here with early | late
    · -- An earlier line: nothing of the new one's calls or outcomes is about it.
      have same : SameFor l (log ++ more) log := sameFor_left fun e made => by
        rw [ended.made e made]
        exact fun equal => fresh (equal ▸ early)
      rw [same.leftOf]
      refine entered.left (fun l here => named l (List.mem_append_left _ here)) l early keys
        (same.resolved.mp resolved) (same.clean.mp clean) p ?_ point
      exact ended.earlier p member fun mine => apart l early _ point mine
    · obtain rfl := List.mem_singleton.mp late
      have same : SameFor l (log ++ more) more := sameFor_right fun e made equal =>
        fresh (equal ▸ entered.made e made)
      rw [same.leftOf]
      refine (ended.leftOf (named l here) (same.resolved.mp resolved) (same.clean.mp clean) p
        member).resolve_left fun old => ?_
      obtain ⟨l', earlier, own'⟩ := known p old
      exact apart l' earlier _ own' point

end

theorem meets_books {plan : Plan} {run : RunAttribution} {limits : Limits}
    (once : plan.points.Nodup) (fits : limits.maxObjects ≤ I64_MAX) :
    (execute plan run limits).Meets (Ceiling run limits)
      (fun log out => Entered run limits plan.lines log out) [] := by
  have each : ∀ front line back log out, front ++ line :: back = plan.lines →
      Entered run limits front log out → (executeLine run limits out line).Meets
        (Ceiling run limits) (fun log out => Entered run limits (front ++ [line]) log out) log := by
    intro front line back log out split entered
    refine meets_mono (meets_line fits entered.charged.nonneg entered.charged.counted)
      fun log' out' ⟨more, grown, ended⟩ => ?_
    subst grown
    refine entered.next ended ?_
    rw [Plan.points, ← split, List.append_cons, List.flatMap_append] at once
    exact (List.nodup_append'.mp once).1
  have start : Entered run limits [] [] { dryRun := limits.dryRun } :=
    ⟨by simp, ⟨Int.le_refl 0, fun _ => Int.le_refl 0⟩, rfl, rfl, by simp, by simp⟩
  exact meets_foldlM each (List.nil_append plan.lines) start

/-- A run of a plan whose lines name their manifests first and no key twice, as the worker's checks
of a plan require. -/
structure NamedRun extends EndedRun where
  named : ∀ line ∈ plan.lines, NamesManifest line

theorem accounts_kept (r : NamedRun) : r.Accounts := by
  have entered : Entered r.run r.limits r.plan.lines r.log r.out :=
    (meets_books r.points r.fits).ended r.traced
  exact ⟨entered.points, entered.sum, fun real => entered.deleted real r.named,
    entered.left r.named⟩

/-- A line without keys that is not begun: kept, with nothing remaining. -/
theorem keyless_line_kept : ∃ r : EndedRun, ¬ r.Accounts := by
  let line : PlanLine := { setLine "p" "a/b/m" with enumerateSet := false, objectKeys := [] }
  let out : Outcome := pushLine {} line .kept 0 [] (some DeleteError.budgetExhausted.asStr)
  refine ⟨⟨planOf [line], sampleRun, ⟨false, 0⟩, [], out, by decide, by decide, .here _⟩, ?_⟩
  intro books
  have deleted := books.deleted rfl _ List.mem_cons_self
  exact absurd (deleted.mpr rfl) (by decide)

end Logweir.Retention
