import Logweir.Schedule.Edits

/-!
# The revision in force

A pass that finds no policy block of its revision reserves the late slot where there is
no run of it, so the condition on passes is the one under which no catch-up reaches
behind the first observation of its revision.
-/

set_option autoImplicit false

namespace Logweir.Schedule

open Logweir.Programs Logweir.Programs.Program

variable (S : Surroundings) (crd : Crd)

def nothing : (c : Call) → c.Answer
  | .getBackup _ => (none : Option Backup)
  | .listBackups _ _ => (⟨[], none⟩ : Page)
  | .patchBackup _ _ => MigrationOutcome.retry
  | .postBackup _ => (none : Option Backup)
  | .patchStatus _ _ => (none : Option BackupSchedule)

/-- A program comes to be another one where there is no run, writing nothing. -/
inductive Quietly {α : Type} : Api α → Api α → Prop where
  | here (p : Api α) : Quietly p p
  | asked {c : Call} {next : c.Answer → Api α} {q : Api α} (quiet : ∀ n patch, c ≠ .patchStatus n patch)
      (later : Quietly (next (nothing c)) q) : Quietly (.ask c next) q

section

variable {S} {crd} {α β : Type}

theorem Quietly.bind {p : Api α} {a : α} {f : α → Api β} {q : Api β}
    (first : Quietly p (.done a)) (rest : Quietly (f a) q) : Quietly (p >>= f) q := by
  generalize ended : (Program.done a : Api α) = done at first
  induction first with
  | here p =>
      subst ended
      exact rest
  | asked quiet later ih => exact .asked quiet (ih ended)

theorem quietly_getOpt {name : String} {f : Option Backup → Api α} {q : Api α}
    (rest : Quietly (f none) q) : Quietly (Api.getOpt name >>= f) q :=
  .asked (fun _ _ same => by cases same) rest

/-- The program comes to ask `c` where there is no run, writing nothing before. -/
def Reaches (p : Api α) (c : Call) : Prop := ∃ next, Quietly p (.ask c next)

theorem Reaches.bind {p : Api α} {a : α} {f : α → Api β} {c : Call}
    (first : Quietly p (.done a)) (rest : Reaches (f a) c) : Reaches (p >>= f) c :=
  rest.imp fun _ rest => first.bind rest

theorem bounded_nil : bounded [] = [] := by
  unfold bounded sortByName
  rw [List.mergeSort_nil]
  rfl

theorem quietly_steadyRecorded {name uid : String} {pending : Option String} :
    ∀ {recorded active : List ActiveRun} {child : Option Backup},
      Quietly (steadyRecorded name uid pending recorded active child) (.done (active, child))
  | [], active, child => .here _
  | entry :: rest, active, child => by
      rw [steadyRecorded]
      exact quietly_getOpt quietly_steadyRecorded

theorem quietly_inventory {stored : Option BackupScheduleStatus} {name uid : String}
    {now : Instant} : ∃ history, Quietly (inventory S stored name uid none now)
      (.done ⟨[], none, history, true⟩) := by
  refine ⟨({} : Inventory).history (mayUseLabelSelector stored) now, ?_⟩
  have page : Quietly (inventoryPages S name uid
      (if mayUseLabelSelector stored then some uid else none) none maxInventoryPages none {})
      (.done {}) := .asked (fun _ _ same => by cases same) (.here _)
  unfold inventory
  refine page.bind ?_
  rw [bounded_nil]
  exact .here _

theorem quietly_observe {stored : Option BackupScheduleStatus} {name uid : String} {now : Instant} :
    ∃ history inventoried, Quietly (observe S stored name uid none now)
      (.done ⟨[], none, history, inventoried⟩) := by
  obtain ⟨counted, inventoried⟩ := @quietly_inventory S stored name uid now
  unfold observe
  split
  · rename_i history _
    split
    · refine ⟨history, false, quietly_steadyRecorded.bind ?_⟩
      simp only [bounded_nil]
      exact .here _
    · exact ⟨counted, true, inventoried⟩
  · exact ⟨counted, true, inventoried⟩

theorem reaches_reservation {schedule : BackupSchedule} {now due : Instant}
    (late : Late S schedule now due) (unrecorded : schedule.recorded = none)
    (free : schedule.status.bind (reservedRun S schedule.name) = none) :
    ∃ decision plan, plan.kind = .catchUp ∧ S.slotInstant plan.slot = some due ∧
      Reaches (reconcileScheduleWithArchiveAt S schedule now)
        (.patchStatus schedule.resourceVersion (reservationPatch S schedule decision plan now)) := by
  obtain ⟨name, next, decided, named⟩ := late.decisionAt unrecorded
  obtain ⟨cadence, -, latest⟩ := late.latestDue
  obtain ⟨history, inventoried, observed⟩ :=
    @quietly_observe S schedule.status schedule.name schedule.uid now
  have unfired : (schedule.status.bind BackupScheduleStatus.lastFireTime).filter
      (fun last => due ≤ last) = none := by
    refine Option.filter_eq_none_iff.mpr fun last known => ?_
    simpa using late.unfired last known
  have unblocked : blockingRuns schedule [] = [] := by
    unfold blockingRuns
    split
    · rfl
    · exact if_neg (by decide)
  refine ⟨.catchUpDue due (S.slotName due) name next, ⟨S.slotName due, name, .catchUp, 0, none⟩,
    rfl, S.slotInstant_slotName cadence now due latest, ?_⟩
  unfold reconcileScheduleWithArchiveAt
  simp only [free, decided, Option.map_none]
  refine Reaches.bind observed ?_
  simp only
  unfold decideDueSlot
  simp only [SlotDecision.dueSlot]
  have walked : Quietly (observeAttemptChain schedule.name schedule.uid (S.slotName due)
      (walkRetries schedule schedule.status [])) (.done ⟨[], none⟩) := by
    unfold observeAttemptChain
    rw [walkAttempts]
    have named' : scheduledBackupNameForAttempt schedule.name (S.slotName due) 0 = .ok name := named
    rw [named']
    exact quietly_getOpt (.here _)
  refine Reaches.bind walked ?_
  unfold decideFromAttempts
  simp only [decideAttempt, List.getLast?_nil, slotNameIsUnavailable, Option.isSome_none,
    Bool.false_and, Bool.false_eq_true, if_false, unblocked]
  unfold admitSlotRun
  rw [unfired]
  simp only [ne_eq, not_true_eq_false, if_false, if_true]
  exact ⟨_, .here _⟩

theorem run_append {s : State} : ∀ {front back : List Action},
    run S crd s (front ++ back) = (run S crd s front).bind fun s' => run S crd s' back := by
  intro front
  induction front generalizing s with
  | nil => exact fun {back} => rfl
  | cons a front ih =>
      intro back
      rw [List.cons_append, run, run]
      cases s.step S crd a with
      | none => rfl
      | some s' => exact ih

theorem run_quietly {i : Nat} {p q : Api ScheduleOutcome} (quietly : Quietly p q) :
    ∀ {s : State} {pass : Pass}, s.passes[i]? = some pass → pass.rest = p →
      ∃ actions s' pass', run S crd s actions = some s' ∧ s'.server = s.server ∧
        s'.passes[i]? = some pass' ∧ pass'.rest = q := by
  induction quietly with
  | here p => exact fun {s pass} flying left => ⟨[], s, pass, rfl, rfl, flying, left⟩
  | @asked c next q quiet later ih =>
      intro s pass flying left
      have asked : pass.next? = some c := by
        unfold Flight.next?
        rw [left]
      have served : s.server.serve crd nothing c = (nothing c, s.server) := by
        cases c with
        | patchStatus number patch => exact absurd rfl (quiet number patch)
        | _ => rfl
      have moved : (pass.advance fun c => (s.server.serve crd nothing c).1).rest =
          next (nothing c) := by
        unfold Flight.advance
        rw [left]
        simp only [served]
      have within : i < s.passes.length := (List.getElem?_eq_some_iff.mp flying).1
      obtain ⟨actions, s', pass', ran, server, flying', left'⟩ := ih
        (s := ⟨s.server, s.passes.set i (pass.advance fun c => (s.server.serve crd nothing c).1)⟩)
        (List.getElem?_set_self within) moved
      refine ⟨.calls i nothing :: actions, s', pass', ?_, server, flying', left'⟩
      rw [run]
      simp only [State.step, flying, asked, served]
      exact ran

theorem PastDeadline.past {scheduleName : String} {spec : BackupScheduleSpec} {now due : Instant}
    (late : PastDeadline S scheduleName spec now due) : due < now := by
  have valid := late.deadlines
  have after := late.late
  have positive : 0 ≤ spec.startingDeadlineSeconds.getD defaultStartingDeadlineSeconds := by
    unfold validateDeadlines checkDeadline at valid
    cases given : spec.startingDeadlineSeconds with
    | none => exact (by decide : (0 : Int) ≤ 3600)
    | some got =>
        rw [given] at valid
        by_cases outside : got < minStartingDeadlineSeconds ∨ maxStartingDeadlineSeconds < got
        · simp only [if_pos outside] at valid
          cases valid
        · have least : minStartingDeadlineSeconds = 60 := rfl
          change 0 ≤ got
          omega
  have beyond : 0 ≤ seconds (spec.startingDeadlineSeconds.getD defaultStartingDeadlineSeconds) :=
    Int.mul_nonneg positive (by decide)
  exact Int.lt_of_sub_pos (Int.lt_of_le_of_lt beyond after)

end

structure ClearRun where
  schedule : BackupSchedule
  actions : List Action
  final : State
  ran : run S crd (Schedule.created schedule) actions = some final
  clear : AllClear S crd (Schedule.created schedule) actions

/-- A pass over the current version that does not meet it, and has no reservation to
take up. -/
structure UnclearPass where
  state : State
  now : Instant
  unclear : ¬ state.Clear S (.begins state.server.current now)
  free : state.server.current.status.bind (reservedRun S state.server.current.name) = none

theorem UnclearPass.admits (d : UnclearPass S) : ∃ actions final,
    run S crd d.state (.begins d.state.server.current d.now :: actions) = some final ∧
      ¬ NeverPast S final := by
  obtain ⟨s, now, unclear, free⟩ := d
  obtain ⟨due, unrecorded, late, unobserved⟩ : ∃ due, s.server.current.recorded = none ∧
      Late S s.server.current now due ∧ ¬ s.server.ObservedBy s.server.current.revision due := by
    refine Classical.byContradiction fun clear => unclear fun _ unrecorded due late => ?_
    exact Classical.byContradiction fun unobserved => clear ⟨due, unrecorded, late, unobserved⟩
  obtain ⟨decision, plan, caught, here, next, quietly⟩ := reaches_reservation late unrecorded free
  let pass : Pass := ⟨(s.server.current, now), [], reconcileScheduleWithArchiveAt S s.server.current now⟩
  let begun : State := ⟨{ s.server with
    observed := (s.server.current.revision, now) :: s.server.observed }, s.passes ++ [pass]⟩
  have flying : begun.passes[s.passes.length]? = some pass := List.getElem?_concat_length
  obtain ⟨actions, s', pass', ran, server, flying', left⟩ :=
    @run_quietly S crd _ _ _ quietly _ _ flying rfl
  have asked : pass'.next? = some (.patchStatus s.server.current.resourceVersion
      (reservationPatch S s.server.current decision plan now)) := by
    unfold Flight.next?
    rw [left]
  have number : s.server.current.resourceVersion = s'.server.current.resourceVersion := by
    rw [server]
  let final : State :=
    { server := s'.server.patched crd (reservationPatch S s.server.current decision plan now)
      passes := s'.passes.set s.passes.length
        (pass'.advance fun c => (s'.server.serve crd nothing c).1) }
  have stepped : s'.step S crd (.calls s.passes.length nothing) = some final := by
    simp only [State.step, flying', asked, Server.serve, if_pos number, final]
  refine ⟨actions ++ [.calls s.passes.length nothing], final, ?_, fun never => ?_⟩
  · rw [run]
    simp only [State.step, Server.Knows, true_or, if_true]
    rw [run_append]
    have ran' : run S crd begun actions = some s' := ran
    rw [ran', Option.bind_some, run, stepped]
    rfl
  · have observed := never.admitted s'.server.current.revision _ List.mem_cons_self
      (congrArg TriggerKind.kindName caught) due here
    obtain ⟨at_, member, early⟩ := observed
    change (s'.server.current.revision, at_) ∈ s'.server.observed at member
    rw [server] at member
    rcases List.mem_cons.mp member with same | before
    · cases same
      exact absurd late.past (Int.not_lt.mpr early)
    · exact unobserved ⟨at_, before, early⟩

/-- In every run whose passes meet the condition no catch-up is admitted or created of a
slot from before the revision in force was observed; and a pass that does not meet it
admits one, where there is no run of the slot. -/
theorem catch_ups_after_observation : (∀ r : ClearRun S crd, NeverPast S r.final) ∧
    ∀ d : UnclearPass S, ∃ actions final,
      run S crd d.state (.begins d.state.server.current d.now :: actions) = some final ∧
        ¬ NeverPast S final :=
  ⟨fun r => ((sound_created r.schedule).run r.clear r.ran).neverPast, fun d => d.admits S crd⟩

def threeOClock : Instant := seconds 1789009200

/-- A nightly cadence at 03:00, asked on that day. -/
def nightlySurroundings : Surroundings where
  Cadence := Unit
  parse _ _ := .ok ()
  nextFireAfter _ _ := some (seconds 1789095600)
  latestDueSlot _ _ := some threeOClock
  nextRuns _ _ _ := []
  skippedSlots _ _ _ _ := ⟨0, false, false⟩
  slotName _ := "20260910-030000"
  slotInstant _ := some threeOClock
  slotInstant_slotName _ _ _ latest := latest
  length_slotName _ _ _ _ := by decide
  validateTopicSelection _ := .ok ()
  validateRunPolicy _ := .ok ()
  runPolicySha256 _ := ""
  serializedBytes _ := 0
  message _ := ""
  historyMessage _ := ""

def wholeCrd : Crd := ⟨id, fun _ => .inl rfl, fun _ => .inl rfl⟩

def nightly (topics : List String) (generation : Int) (resourceVersion : Nat)
    (catchUpPolicy : CatchUpPolicy) : BackupSchedule where
  name := "nightly"
  namespace_ := "prod"
  uid := "1"
  generation := some generation
  resourceVersion := resourceVersion
  creationTimestamp := some (seconds 1788220800)
  labels := []
  spec :=
    { schedule := "0 3 * * *", sourceRef := ⟨"prod"⟩, topics := topics, allUserTopics := none
      consumerGroups := none, archive := ⟨"s3://backups", none⟩, destinationRef := none
      concurrencyPolicy := .forbid, timeZone := none, startingDeadlineSeconds := none
      catchUpPolicy := some catchUpPolicy, retry := none, activeDeadlineSeconds := none
      retention := none, suspend := false }
  status := none

/-- A schedule that a pass observed at 01:00 is edited, and the first pass over the edit,
at noon, admits a catch-up of 03:00. -/
theorem noon_edit_backs_up_the_morning : ∃ actions final,
    run nightlySurroundings wholeCrd (created (nightly ["orders"] 1 1 .none))
      (.begins (nightly ["orders"] 1 1 .none) (seconds 1789002000) :: .fails 0 false ::
        .writes (nightly ["orders", "payments"] 2 2 .latest) ::
        .begins (nightly ["orders", "payments"] 2 2 .latest) (seconds 1789041600) :: actions) =
      some final ∧ ¬ NeverPast nightlySurroundings final := by
  let edited : State := ⟨⟨nightly ["orders", "payments"] 2 2 .latest, [nightly ["orders"] 1 1 .none],
    [(1, seconds 1789002000)], []⟩, []⟩
  have late : Late nightlySurroundings edited.server.current (seconds 1789041600) threeOClock := by
    refine ⟨⟨rfl, rfl, rfl, ⟨(), rfl, rfl⟩, rfl, rfl, ⟨_, rfl⟩, rfl, by decide⟩, ?_, ?_⟩
    · intro at_ created
      cases created
      decide
    · intro last fired
      cases fired
  have unclear : ¬ edited.Clear nightlySurroundings
      (.begins edited.server.current (seconds 1789041600)) := by
    intro clear
    obtain ⟨at_, member, -⟩ := clear rfl rfl threeOClock late
    cases List.mem_singleton.mp member
  obtain ⟨actions, final, ran, past⟩ := UnclearPass.admits nightlySurroundings wholeCrd
    ⟨edited, seconds 1789041600, unclear, rfl⟩
  exact ⟨actions, final, ran, past⟩

end Logweir.Schedule
