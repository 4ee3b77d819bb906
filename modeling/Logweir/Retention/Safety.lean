import Logweir.Retention.Lines
import Mathlib.Data.List.Dedup

/-!
# What a run may delete

Whatever the store, the sink and the listings answer: a run of an accepted plan deletes only
within the approved bound, after the intents, after the manifest, a bounded number of times,
and reports deleted only what it was told is gone.  The number of tries holds for a plan in
which no line lists what another one names.
-/

set_option autoImplicit false

namespace Logweir.Retention

open Logweir.Text Logweir.Programs Program

/-- A delete of this key for this line, with what came before it. -/
def Deleting (log before : Log) (line : PlanLine) (key : String) : Prop :=
  ∃ answer after, log = before ++ (⟨Call.delete line key, answer⟩ : Event Call Answer) :: after

/-- A run, under way or at its end, that deletes only as it may. -/
structure SafeRun (plan : Plan) (binding : RunBinding) (run : RunAttribution) (limits : Limits)
    (log : Log) (left : Run Outcome) : Prop where
  bounded : ∀ before line key, Deleting log before line key → line ∈ plan.lines ∧
    startsWith key (setBound binding.scopePrefix line.backupId) = true ∧
    startsWith key EVIDENCE_ROOT = false
  real : ∀ before line key, Deleting log before line key → limits.dryRun = false
  intended : ∀ before line key, Deleting log before line key → Intended run before line
  manifest : ∀ before line key, Deleting log before line key → key ≠ line.manifestKey →
    Gone before line line.manifestKey
  tried : ∀ before line key, Deleting log before line key →
    ∀ answer ∈ deletesOf key before, Retryable answer
  attempts : ∀ key, (deletesOf key log).length ≤ MAX_ATTEMPTS
  sound : ∀ out, left = .done out → Sound plan run log out

variable {plan : Plan} {binding : RunBinding} {run : RunAttribution} {limits : Limits}
  {log : Log} {left : Run Outcome}

theorem warranted (accepted : Accepted plan binding) (traced : Traced (execute plan run limits) log left)
    {before : Log} {line : PlanLine} {key : String} (deleting : Deleting log before line key) :
    Ready plan run limits before line key ∧ (Apart plan → MayTry before key) := by
  obtain ⟨answer, after, rfl⟩ := deleting
  exact (meets_execute accepted).justified traced

theorem length_deletesOf_le (key : String)
    (may : ∀ before line, Deleting log before line key → MayTry before key) :
    (deletesOf key log).length ≤ MAX_ATTEMPTS := by
  induction log using List.reverseRecOn with
  | nil => simp [deletesOf]
  | append_singleton log e ih =>
      have earlier := ih fun before line deleting => by
        obtain ⟨answer, after, rfl⟩ := deleting
        exact may before line ⟨answer, after ++ [e], by simp⟩
      obtain ⟨call, answer⟩ := e
      cases call with
      | delete l k =>
          by_cases same : k = key
          · subst same
            rw [deletesOf_delete, List.length_append, List.length_singleton]
            exact (may log l ⟨answer, [], rfl⟩).1
          · rwa [deletesOf_other (by simp [Event.deleteOf, same])]
      | list l under => rwa [deletesOf_other rfl]
      | probe l k => rwa [deletesOf_other rfl]
      | put l k bytes => rwa [deletesOf_other rfl]
      | sleep l seconds => rwa [deletesOf_other rfl]

/-- However it is answered, a run of an accepted plan whose lines are apart is safe, at every
moment and at its end. -/
theorem execute_safe (accepted : validatePlan plan binding = .ok ()) (apart : Apart plan)
    (traced : Traced (execute plan run limits) log left) :
    SafeRun plan binding run limits log left where
  bounded := by
    intro before line key deleting
    have ready := (warranted (validatePlan_ok.mp accepted) traced deleting).1
    have fits := (validatePlan_ok.mp accepted).lines line ready.named
    exact ⟨ready.named, fits.bound ▸ ready.bound.1.2, ready.bound.1.1⟩
  real := fun before line key deleting =>
    (warranted (validatePlan_ok.mp accepted) traced deleting).1.real
  intended := fun before line key deleting =>
    (warranted (validatePlan_ok.mp accepted) traced deleting).1.intended
  manifest := fun before line key deleting =>
    (warranted (validatePlan_ok.mp accepted) traced deleting).1.manifest
  tried := fun before line key deleting =>
    ((warranted (validatePlan_ok.mp accepted) traced deleting).2 apart).2
  attempts := fun key => length_deletesOf_le key fun before line deleting =>
    (warranted (validatePlan_ok.mp accepted) traced deleting).2 apart
  sound := by
    rintro out rfl
    exact ((meets_execute (validatePlan_ok.mp accepted)).ended traced).2

def setLine (pointId manifestKey : String) : PlanLine where
  pointId
  backupId := "b"
  reason := "BeyondKeepLast"
  recoveryPointAtMs := 0
  manifestKey
  setPrefix := "a/b/"
  enumerateSet := true
  objectKeys := [manifestKey]

def planOf (lines : List PlanLine) : Plan where
  policyNamespace := "ns"
  policyName := "policy"
  policyUid := "uid"
  locationId := "s3://bucket"
  scopePrefix := "a"
  keepLast := some 1
  keepDays := none
  minUsablePoints := 1
  lines

def sampleBinding : RunBinding := ⟨"uid", "a", 10, 10⟩

def sampleRun : RunAttribution := ⟨"run", "uid", "sha256:"⟩

def sampleLimits : Limits := ⟨false, 10⟩

def timingOut : Unit → (c : Call) → Answer c × Unit
  | _, .list _ _ => (.ok ["a/b/x"], ())
  | _, .probe _ _ => (.ok .unversioned, ())
  | _, .delete _ key => (if key = "a/b/x" then .error .timeout else .ok (), ())
  | _, .put _ _ _ => (.ok none, ())
  | _, .sleep _ _ => ((), ())

/-- One line over the set: its run is safe. -/
theorem execute_safe_one : ∃ left, SafeRun (planOf [setLine "p" "a/b/m"]) sampleBinding sampleRun
    sampleLimits ((execute (planOf [setLine "p" "a/b/m"]) sampleRun sampleLimits).logOf timingOut ())
    left := by
  obtain ⟨left, traced⟩ := traced_logOf timingOut
    (execute (planOf [setLine "p" "a/b/m"]) sampleRun sampleLimits) ()
  exact ⟨left, execute_safe (by decide +kernel) (List.pairwise_singleton _ _) traced⟩

def sharedSet : Plan := planOf [setLine "p" "a/b/m", setLine "q" "a/b/n"]

/-- The worker accepts the plan, and tries the one segment once more for each of the lines. -/
theorem shared_set_retried : validatePlan sharedSet sampleBinding = .ok () ∧
    ∃ log left, Traced (execute sharedSet sampleRun sampleLimits) log left ∧
      ¬ SafeRun sharedSet sampleBinding sampleRun sampleLimits log left := by
  refine ⟨by decide +kernel, ?_⟩
  obtain ⟨left, traced⟩ := traced_logOf timingOut
    (execute sharedSet sampleRun sampleLimits) ()
  refine ⟨_, left, traced, fun safe => ?_⟩
  have few := safe.attempts "a/b/x"
  revert few
  decide +kernel

end Logweir.Retention

/-!
## The object ceiling

A run deletes no more keys than its ceiling, as long as no key goes after a check that did not
come back clean.  Behind such a check the worker counts the line's keys as not removed and has
its ceiling once more.
-/

namespace Logweir.Retention

open Logweir.Programs Program

def deletedKeys (log : Log) : List String := (delivered log).dedup

structure WorkerRun where
  plan : Plan
  run : RunAttribution
  limits : Limits
  log : Log
  left : Run Outcome
  traced : Traced (execute plan run limits) log left
  nonneg : 0 ≤ limits.maxObjects
  fits : limits.maxObjects ≤ I64_MAX

def WorkerRun.WithinCeiling (r : WorkerRun) : Prop :=
  ((deletedKeys r.log).length : Int) ≤ r.limits.maxObjects

/-- No delete is answered `Ok` behind a check that did not come back clean. -/
def WorkerRun.ChecksFirst (r : WorkerRun) : Prop :=
  ∀ before line key after,
    r.log = before ++ (⟨Call.delete line key, .ok ()⟩ : Event Call Answer) :: after →
      Verified r.run before

/-- While the checks come back clean, what was delivered is counted. -/
structure Charged (run : RunAttribution) (log : Log) (out : Outcome) : Prop where
  nonneg : 0 ≤ out.objectsDeleted
  counted : Verified run log → ((delivered log).length : Int) ≤ out.objectsDeleted

theorem LineEnd.charged {run : RunAttribution} {line : PlanLine} {log more : Log}
    {out out' : Outcome} (ended : LineEnd run line more out out') (charged : Charged run log out) :
    Charged run (log ++ more) out' := by
  have nonneg := charged.nonneg
  cases ended with
  | kept keys code kept points count =>
      refine ⟨count ▸ nonneg, fun verified => ?_⟩
      have before := charged.counted verified.of_append
      rw [delivered_append, kept.delivered, List.append_nil]
      exact count ▸ before
  | verified keys rest removed answer code finished clean number points count =>
      have left := finished.left.length_le
      have few := finished.delivered
      refine ⟨?_, fun verified => ?_⟩
      · simp only [pushLine, count]
        omega
      · have before := charged.counted verified.of_append
        simp only [pushLine, count, delivered_append, List.length_append]
        omega
  | unverified keys rest answer code finished unclean points count =>
      refine ⟨count ▸ nonneg, fun verified => ?_⟩
      obtain ⟨bytes, check⟩ := finished.checked
      exact absurd (verified line bytes answer (List.mem_append_right _ check)) unclean

theorem meets_run (plan : Plan) (run : RunAttribution) {limits : Limits}
    (fits : limits.maxObjects ≤ I64_MAX) :
    (execute plan run limits).Meets (Ceiling run limits) (fun log out => Charged run log out) [] := by
  have each : ∀ front line back log out, front ++ line :: back = plan.lines →
      Charged run log out → (executeLine run limits out line).Meets (Ceiling run limits)
        (fun log out => Charged run log out) log := by
    intro front line back log out _ charged
    refine meets_mono (meets_line fits charged.nonneg charged.counted)
      fun log' out' ⟨more, grown, ended⟩ => ?_
    subst grown
    exact ended.charged charged
  have start : Charged run [] { dryRun := limits.dryRun } :=
    ⟨Int.le_refl 0, fun _ => Int.le_refl 0⟩
  exact meets_foldlM each (List.nil_append plan.lines) start

/-- A run deletes no more keys than its ceiling where its checks come first. -/
theorem ceiling_held (r : WorkerRun) (first : r.ChecksFirst) : r.WithinCeiling := by
  have bound : ((delivered r.log).length : Int) ≤ r.limits.maxObjects := by
    have below : ∀ before line key after,
        r.log = before ++ (⟨Call.delete line key, .ok ()⟩ : Event Call Answer) :: after →
          ((delivered before).length : Int) < r.limits.maxObjects := by
      intro before line key after split
      have verified := first before line key after split
      have traced := r.traced
      rw [split] at traced
      exact (meets_run r.plan r.run r.fits).justified traced verified
    have nonneg := r.nonneg
    generalize r.log = log at below
    induction log using List.reverseRecOn with
    | nil => exact nonneg
    | append_singleton log e ih =>
        have earlier := ih fun before line key after split =>
          below before line key (after ++ [e]) (by rw [split]; simp)
        rw [delivered_append, List.length_append]
        cases one : Event.delivered e with
        | none => simpa [delivered, one] using earlier
        | some key =>
            obtain ⟨call, answer⟩ := e
            cases call with
            | delete l k =>
                cases answer with
                | ok done_ =>
                    cases done_
                    have := below log l k [] rfl
                    simp only [delivered, List.filterMap_cons, one, List.filterMap_nil,
                      List.length_singleton] at this ⊢
                    omega
                | error e => cases one
            | list l under => cases one
            | probe l k => cases one
            | put l k bytes => cases one
            | sleep l seconds => cases one
  have few := (List.dedup_sublist (delivered r.log)).length_le
  unfold WorkerRun.WithinCeiling deletedKeys
  omega

/-- One set under a ceiling of ten: a store that times out, and checks that come back clean. -/
theorem ceiling_held_one : ∃ r : WorkerRun, r.plan = planOf [setLine "p" "a/b/m"] ∧
    r.log = (execute r.plan sampleRun sampleLimits).logOf timingOut () ∧ r.WithinCeiling := by
  obtain ⟨left, traced⟩ := traced_logOf timingOut
    (execute (planOf [setLine "p" "a/b/m"]) sampleRun sampleLimits) ()
  let r : WorkerRun := ⟨_, _, _, _, left, traced, by decide, by decide⟩
  refine ⟨r, rfl, rfl, ceiling_held r fun before line key after split l bytes answer member => ?_⟩
  have logged : (⟨Call.put l _ bytes, answer⟩ : Event Call Answer) ∈ r.log :=
    split ▸ List.mem_append_left _ member
  obtain ⟨⟨⟩, same⟩ := answered_logOf logged
  obtain rfl : answer = .ok none := same
  rfl

/-- A store that deletes what it is asked to, with one segment in every set; the first line's check
is refused. -/
def slowSink : Unit → (c : Call) → Answer c × Unit
  | _, .list line under => (.ok [line.manifestKey, under ++ "x"], ())
  | _, .probe _ _ => (.ok .unversioned, ())
  | _, .delete _ _ => (.ok (), ())
  | _, .put _ key _ =>
      (if key = tombstoneKey sampleRun "p" "check" then .error "SlowDown" else .ok none, ())
  | _, .sleep _ _ => ((), ())

def twoSets : Plan := planOf [setLine "p" "a/b/m",
  { setLine "q" "a/c/m" with backupId := "c", setPrefix := "a/c/" }]

/-- The run of a plan that the worker accepts deletes four keys under a ceiling of two. -/
theorem ceiling_charged_twice :
    validatePlan twoSets ⟨"uid", "a", 2, 2⟩ = .ok () ∧
      ∃ r : WorkerRun, r.plan = twoSets ∧ r.limits = ⟨false, 2⟩ ∧ ¬ r.WithinCeiling := by
  refine ⟨by decide +kernel, ?_⟩
  obtain ⟨left, traced⟩ := traced_logOf slowSink (execute twoSets sampleRun ⟨false, 2⟩) ()
  refine ⟨⟨twoSets, sampleRun, ⟨false, 2⟩, _, left, traced, by decide, by decide⟩, rfl, rfl, ?_⟩
  change ¬ ((deletedKeys (logOf slowSink (execute twoSets sampleRun ⟨false, 2⟩) ())).length : Int) ≤ 2
  decide +kernel

end Logweir.Retention
