import Logweir.Schedule.Reconcile

/-!
# What a pass says of a catch-up

When the decision is `CatchUpDue`, and every call of one pass that reserves or creates
a run of kind `CatchUp`, whatever the API server answers: it is the slot the pass
decided about, or the reservation the pass read.
-/

set_option autoImplicit false

namespace Logweir.Schedule

open Logweir.Programs Logweir.Programs.Program

def BackupSchedule.revision (schedule : BackupSchedule) : Int := schedule.generation.getD 0

def BackupSchedule.recorded (schedule : BackupSchedule) : Option PolicyStatus :=
  (schedule.status.bind BackupScheduleStatus.policy).filter fun p =>
    p.generation = schedule.revision

def BackupSchedule.reservation (schedule : BackupSchedule) : Option PendingRun :=
  schedule.status.bind BackupScheduleStatus.pendingRun

variable (S : Surroundings)

/-- `due` is the latest due slot at `now` of a policy that can run, past its starting
deadline under `catchUpPolicy: Latest`. -/
structure PastDeadline (scheduleName : String) (spec : BackupScheduleSpec) (now due : Instant) :
    Prop where
  running : spec.suspend = false
  topics : S.validateTopicSelection (runPolicySpec spec) = .ok ()
  policy : S.validateRunPolicy (runPolicySpec spec) = .ok ()
  latestDue : ∃ cadence, S.parse spec.schedule spec.timeZone = .ok cadence ∧
    S.latestDueSlot cadence now = some due
  deadlines : validateDeadlines spec.startingDeadlineSeconds spec.activeDeadlineSeconds = .ok ()
  retries : retryRefusal scheduleName spec.retry = none
  named : ∃ name, scheduledBackupName scheduleName (S.slotName due) = .ok name
  latest : spec.catchUpPolicy = some .latest
  late : seconds (spec.startingDeadlineSeconds.getD defaultStartingDeadlineSeconds) < now - due

/-- The slot past its deadline is the schedule's own, and its status does not record it
as fired. -/
structure Late (schedule : BackupSchedule) (now due : Instant) : Prop
    extends PastDeadline S schedule.name schedule.spec now due where
  own : ∀ created, schedule.creationTimestamp = some created → created ≤ due
  unfired : ∀ last, schedule.status.bind BackupScheduleStatus.lastFireTime = some last → last < due

section

variable {S} {schedule : BackupSchedule} {now due : Instant} {slot name : String}
  {next : Option Instant}

theorem admitSlot_catchUp {deadline : Int} {catchUp : CatchUpPolicy} :
    admitSlot due now deadline catchUp none = .catchUp ↔
      catchUp = .latest ∧ seconds deadline < now - due := by
  unfold admitSlot
  by_cases inside : now - due ≤ seconds deadline
  · rw [if_pos inside]
    exact ⟨fun h => SlotAdmission.noConfusion h, fun h => absurd h.2 (Int.not_lt.mpr inside)⟩
  · rw [if_neg inside]
    cases catchUp with
    | none => exact ⟨fun h => SlotAdmission.noConfusion h, fun h => CatchUpPolicy.noConfusion h.1⟩
    | latest => exact ⟨fun _ => ⟨rfl, Int.not_le.mp inside⟩, fun _ => rfl⟩

theorem refine_catchUpDue {decision : SlotDecision} {last since : Option Instant}
    (kept : refineAgainstStatus decision last since = .catchUpDue due slot name next) :
    decision = .catchUpDue due slot name next ∧ (∀ at_, last = some at_ → at_ < due) ∧
      ∀ at_, since = some at_ → at_ ≤ due := by
  unfold refineAgainstStatus at kept
  simp only at kept
  split at kept
  · split at kept <;> cases kept
  · rename_i due' slot' name' next'
    split at kept
    · cases kept
    rename_i unfired
    split at kept
    · cases kept
    rename_i inForce
    cases kept
    refine ⟨rfl, fun at_ known => ?_, fun at_ known => ?_⟩
    · have not_ := Option.filter_eq_none_iff.mp unfired at_ known
      simpa using not_
    · have not_ := Option.filter_eq_none_iff.mp inForce at_ known
      simpa using not_
  · cases kept
  · rename_i _ others _
    exact absurd kept (others due slot name next)

theorem boundByCreation_kept (decision : SlotDecision) (created : Option Instant) :
    boundByCreation decision created = decision ∨ ∃ due slot at_ next,
      boundByCreation decision created = .beforeCreation due slot at_ none next := by
  unfold boundByCreation
  split
  case h_4 => exact .inl rfl
  all_goals
    split
    · exact .inr ⟨_, _, _, _, rfl⟩
    · exact .inl rfl

theorem bound_catchUpDue {decision : SlotDecision} {created : Option Instant}
    (kept : boundByCreation decision created = .catchUpDue due slot name next) :
    decision = .catchUpDue due slot name next ∧ ∀ at_, created = some at_ → at_ ≤ due := by
  rcases boundByCreation_kept decision created with same | ⟨_, _, _, _, older⟩
  · rw [same] at kept
    subst kept
    refine ⟨rfl, fun at_ known => ?_⟩
    subst known
    unfold boundByCreation at same
    simp only at same
    split at same
    · cases same
    · rename_i own
      simpa [slotPredatesCreation] using own
  · rw [older] at kept
    cases kept

theorem pastDeadline_of_decide {spec : BackupScheduleSpec} {scheduleName : String}
    (decided : SlotDecision.decide S scheduleName spec now = .catchUpDue due slot name next) :
    PastDeadline S scheduleName spec now due ∧ slot = S.slotName due := by
  unfold SlotDecision.decide at decided
  split at decided
  · cases decided
  rename_i running
  split at decided
  · cases decided
  rename_i topics
  split at decided
  · cases decided
  rename_i policy
  split at decided
  · cases decided
  · cases decided
  rename_i cadence parsed
  split at decided
  · cases decided
  rename_i deadlines
  split at decided
  · rename_i refusal refused
    unfold retryRefusal at refused
    split at refused
    · cases refused
    · split at refused
      · cases refused
        cases decided
      · split at refused
        · cases refused
          cases decided
        · cases refused
  rename_i retries
  split at decided
  · cases decided
  rename_i latest here
  split at decided
  · cases decided
  rename_i objectName named
  split at decided
  · cases decided
  · rename_i admitted
    cases decided
    obtain ⟨chosen, late⟩ := admitSlot_catchUp.mp admitted
    refine ⟨⟨Bool.eq_false_iff.mpr running, topics, policy, ⟨cadence, parsed, here⟩, deadlines,
      retries, ⟨name, named⟩, ?_, late⟩, rfl⟩
    cases catchUp : spec.catchUpPolicy with
    | none =>
        rw [catchUp] at chosen
        cases chosen
    | some policy' =>
        rw [catchUp] at chosen
        exact congrArg some chosen
  · cases decided

theorem PastDeadline.decide {spec : BackupScheduleSpec} {scheduleName : String}
    (late : PastDeadline S scheduleName spec now due) : ∃ name next,
      SlotDecision.decide S scheduleName spec now = .catchUpDue due (S.slotName due) name next ∧
        scheduledBackupName scheduleName (S.slotName due) = .ok name := by
  obtain ⟨cadence, parsed, here⟩ := late.latestDue
  obtain ⟨name, named⟩ := late.named
  have latest : spec.catchUpPolicy.getD .none = .latest := by
    rw [late.latest]
    rfl
  have admitted : admitSlot due now
      (spec.startingDeadlineSeconds.getD defaultStartingDeadlineSeconds)
      (spec.catchUpPolicy.getD .none) none = .catchUp :=
    admitSlot_catchUp.mpr ⟨latest, late.late⟩
  refine ⟨name, S.nextFireAfter cadence now, ?_, named⟩
  unfold SlotDecision.decide
  simp only [late.running, Bool.false_eq_true, if_false, late.topics, late.policy, parsed,
    late.deadlines, late.retries, here, named, admitted]

theorem late_of_decisionAt (decided : decisionAt S schedule now = .catchUpDue due slot name next) :
    Late S schedule now due ∧ slot = S.slotName due ∧
      ∀ p, schedule.recorded = some p → p.effectiveSince ≤ due := by
  obtain ⟨bounded, unfired, since⟩ := refine_catchUpDue decided
  obtain ⟨decided, own⟩ := bound_catchUpDue bounded
  obtain ⟨late, named⟩ := pastDeadline_of_decide decided
  refine ⟨⟨late, own, unfired⟩, named, fun p recorded => since _ ?_⟩
  exact congrArg (Option.map PolicyStatus.effectiveSince) recorded

theorem Late.decisionAt (late : Late S schedule now due) (unrecorded : schedule.recorded = none) :
    ∃ name next, decisionAt S schedule now = .catchUpDue due (S.slotName due) name next ∧
      scheduledBackupName schedule.name (S.slotName due) = .ok name := by
  obtain ⟨name, next, decided, named⟩ := late.toPastDeadline.decide
  refine ⟨name, next, ?_, named⟩
  have bounded : boundByCreation (.catchUpDue due (S.slotName due) name next)
      schedule.creationTimestamp = .catchUpDue due (S.slotName due) name next := by
    unfold boundByCreation
    cases created : schedule.creationTimestamp with
    | none => rfl
    | some at_ =>
        have own : ¬ due < at_ := Int.not_lt.mpr (late.own at_ created)
        simp only [slotPredatesCreation, Option.any_some, own, decide_false, Bool.false_eq_true,
          if_false]
  have unfired : (schedule.status.bind BackupScheduleStatus.lastFireTime).filter
      (fun last => due ≤ last) = none := by
    refine Option.filter_eq_none_iff.mpr fun last known => ?_
    simpa using late.unfired last known
  have none_ : (schedule.status.bind BackupScheduleStatus.policy).filter
      (fun p => p.generation = schedule.generation.getD 0) = none := unrecorded
  unfold Schedule.decisionAt
  rw [decided, bounded, none_]
  unfold refineAgainstStatus
  simp only [unfired, Option.map_none, Option.filter_none]

end

abbrev Told := List (Event Call Call.Answer)

/-- A run of kind `CatchUp`. -/
def Backup.CatchesUp (backup : Backup) : Prop :=
  backup.spec.trigger.map Trigger.kind = some .catchUp

/-- A status write that was answered with the version it left. -/
def Landed (log : Told) (patch : StatusPatch) (next : BackupSchedule) : Prop :=
  ∃ number, (⟨.patchStatus number patch, (some next : Option BackupSchedule)⟩ :
    Event Call Call.Answer) ∈ log

/-- What a status write is made against: the version the pass read, or the answer to
its reservation. -/
def Base (schedule : BackupSchedule) (log : Told) (base : BackupSchedule) : Prop :=
  base = schedule ∨ ∃ patch, Landed log patch base

/-- A status write reserves the slot that was decided about, against the version the
pass read; and it records the revision of the version it is made against. -/
structure Writes (schedule : BackupSchedule) (now : Instant) (log : Told) (number : Nat)
    (patch : StatusPatch) : Prop where
  reads : ∀ p, patch.pendingRun = some (some p) → number = schedule.resourceVersion ∧
    p.generation = schedule.revision
  late : ∀ p, patch.pendingRun = some (some p) → p.kind = TriggerKind.catchUp.kindName →
    ∀ due, S.slotInstant p.slot = some due → Late S schedule now due ∧
      ∀ q, schedule.recorded = some q → q.effectiveSince ≤ due
  records : ∃ base, Base schedule log base ∧ number = base.resourceVersion ∧
    ∀ p, patch.policy = some p → p.generation = base.revision ∧
      (p.effectiveSince = now ∨ ∃ q, base.recorded = some q ∧ q.effectiveSince = p.effectiveSince)

/-- The run was reserved: by the version the pass read, or by the pass. -/
def Reserved (schedule : BackupSchedule) (log : Told) (backup : Backup) : Prop :=
  ∃ p, (schedule.reservation = some p ∨
      ∃ patch next, Landed log patch next ∧ patch.pendingRun = some (some p)) ∧
    p.kind = TriggerKind.catchUp.kindName ∧ p.name = backup.name ∧ backup.spec.slot = some p.slot

/-- A run of kind `CatchUp` is planned for a slot the pass may catch up. -/
def MayCatchUp (schedule : BackupSchedule) (now : Instant) (plan : RunPlan) : Prop :=
  plan.kind = .catchUp → ∀ due, S.slotInstant plan.slot = some due → Late S schedule now due ∧
    ∀ q, schedule.recorded = some q → q.effectiveSince ≤ due

/-- What a pass may ask, given what it was told. -/
def Asks (start : BackupSchedule × Instant) (log : Told) : Call → Prop
  | .patchStatus number patch => Writes S start.1 start.2 log number patch
  | .postBackup backup => backup.CatchesUp → Reserved start.1 log backup
  | _ => True

section

variable {S} {schedule : BackupSchedule} {now : Instant} {log : Told} {α : Type}
  {ends : Told → α → Prop}

theorem meets_getOpt {name : String} {f : Option Backup → Api α}
    (answered : ∀ answer log, (f answer).Meets (Asks S (schedule, now)) ends log) :
    (Api.getOpt name >>= f).Meets (Asks S (schedule, now)) ends log :=
  meets_ask trivial fun answer => answered answer _

theorem steadyRecorded_asks {name uid : String} {pending : Option String} :
    ∀ {recorded active : List ActiveRun} {child : Option Backup} {log : Told},
      (steadyRecorded name uid pending recorded active child).Meets (Asks S (schedule, now))
        (fun _ _ => True) log
  | [], _, _, _ => trivial
  | entry :: rest, active, child, log => by
      rw [steadyRecorded]
      refine meets_getOpt fun answer log => ?_
      cases answer with
      | none => exact steadyRecorded_asks
      | some backup => exact steadyRecorded_asks

theorem steadyPending_asks {name uid pending : String} {recorded active : List ActiveRun}
    {child : Option Backup} : (steadyPending name uid recorded pending active child).Meets
      (Asks S (schedule, now)) (fun _ _ => True) log := by
  unfold steadyPending
  split
  · refine meets_getOpt fun answer log => ?_
    cases answer with
    | none => trivial
    | some backup =>
        simp only
        split <;> trivial
  · trivial

theorem migrateOne_asks {backup : Backup} {name uid : String} :
    (migrateOne backup name uid).Meets (Asks S (schedule, now)) (fun _ _ => True) log := by
  unfold migrateOne
  split
  · trivial
  · exact ⟨trivial, fun _ => trivial⟩

theorem migrate_asks {name uid : String} : ∀ {candidates : List Backup} {inv : Inventory}
    {log : Told}, (migrate name uid candidates inv).Meets (Asks S (schedule, now))
      (fun _ _ => True) log
  | [], _, _ => trivial
  | backup :: rest, inv, log => by
      rw [migrate]
      split
      · exact migrate_asks
      · refine meets_bind migrateOne_asks fun log outcome _ => ?_
        cases outcome <;> exact migrate_asks

theorem inventoryPages_asks {name uid : String} {selector pending : Option String} :
    ∀ {pages : Nat} {token : Option String} {inv : Inventory} {log : Told},
      (inventoryPages S name uid selector pending pages token inv).Meets (Asks S (schedule, now))
        (fun _ _ => True) log
  | 0, _, _, _ => trivial
  | pages + 1, token, inv, log => by
      rw [inventoryPages]
      refine meets_ask trivial fun listed => ?_
      split
      · trivial
      · refine meets_bind migrate_asks fun log inv _ => ?_
        split
        · trivial
        · split
          · trivial
          · exact inventoryPages_asks

theorem observe_asks {stored : Option BackupScheduleStatus} {name uid : String}
    {pending : Option String} : (observe S stored name uid pending now).Meets
      (Asks S (schedule, now)) (fun _ _ => True) log := by
  have inventoried : (inventory S stored name uid pending now).Meets (Asks S (schedule, now))
      (fun _ _ => True) log := meets_bind inventoryPages_asks fun _ _ _ => trivial
  unfold observe
  split
  · split
    · refine meets_bind steadyRecorded_asks fun log seen _ => ?_
      cases pending with
      | none => trivial
      | some pending => exact meets_bind steadyPending_asks fun _ _ _ => trivial
    · exact inventoried
  · exact inventoried

theorem walkAttempts_asks {name uid slot : String} : ∀ {left attempt : Nat}
    {chain : List ObservedAttempt} {log : Told},
      (walkAttempts name uid slot left attempt chain).Meets (Asks S (schedule, now))
        (fun _ _ => True) log
  | 0, _, _, _ => trivial
  | left + 1, attempt, chain, log => by
      rw [walkAttempts]
      split
      · trivial
      · refine meets_getOpt fun answer log => ?_
        cases answer with
        | none => trivial
        | some backup =>
            simp only
            split
            · trivial
            · exact walkAttempts_asks

theorem accountSkipped_base (work : Reconcile) {decision : SlotDecision} {slot : String}
    {due : Instant} {final : Bool} :
    (work.accountSkipped S schedule decision slot due now final).statusWriteBase =
      work.statusWriteBase := by
  unfold Reconcile.accountSkipped
  simp only
  split <;> rfl

theorem finish_asks {decision : SlotDecision} {work : Reconcile}
    (base : Base schedule log work.statusWriteBase) :
    (finish S decision work now).Meets (Asks S (schedule, now)) (fun _ _ => True) log := by
  unfold finish
  simp only
  split
  · trivial
  · refine meets_ask ?_ fun answer => ?_
    · have unreserved : ∀ p, ((statusPatchWithRefs S work.statusWriteBase decision work
          now).evaluated now).pendingRun ≠ some (some p) := by
        intro p
        change (if work.pending = .clear then some none else none) ≠ some (some p)
        split <;> exact fun same => by cases same
      refine ⟨fun p same => absurd same (unreserved p), fun p same => absurd same (unreserved p),
        work.statusWriteBase, base, rfl, fun p same => ?_⟩
      cases same
      refine ⟨rfl, ?_⟩
      change (work.statusWriteBase.recorded.map PolicyStatus.effectiveSince).getD now = now ∨
        ∃ q, work.statusWriteBase.recorded = some q ∧
          q.effectiveSince = (work.statusWriteBase.recorded.map PolicyStatus.effectiveSince).getD now
      cases work.statusWriteBase.recorded with
      | none => exact .inl rfl
      | some q => exact .inr ⟨q, rfl, rfl⟩
    · cases answer <;> trivial

theorem createRun_asks {plan : RunPlan} {work : Reconcile}
    (reserved : plan.kind = .catchUp → Reserved schedule log (scheduledRun S schedule schedule.uid plan)) :
    (createRun S schedule schedule.uid plan work).Meets (Asks S (schedule, now))
      (fun log' done => log <+: log' ∧ done.statusWriteBase = work.statusWriteBase) log := by
  unfold createRun
  refine meets_ask ?_ fun answer => ?_
  · intro catchesUp
    exact reserved (Option.some.inj catchesUp)
  · cases answer with
    | some created =>
        simp only
        split
        · trivial
        · exact ⟨List.prefix_append _ _, rfl⟩
    | none =>
        refine meets_ask trivial fun existing => ?_
        cases existing with
        | none => trivial
        | some existing =>
            simp only
            split
            · trivial
            · exact ⟨(List.prefix_append _ _).trans (List.prefix_append _ _), rfl⟩

theorem kind_of_kindName {kind : TriggerKind} (same : kind.kindName = TriggerKind.catchUp.kindName) :
    kind = .catchUp := by
  cases kind <;> first | rfl | exact absurd same (by decide)

theorem admit_asks {plan : RunPlan} {due : Instant} {decision : SlotDecision} {work : Reconcile}
    (may : MayCatchUp S schedule now plan) :
    (admit_ S schedule schedule.uid plan due decision work now).Meets (Asks S (schedule, now))
      (fun log' done => Base schedule log' done.2.statusWriteBase) log := by
  unfold admit_
  refine meets_ask ⟨fun p same => ?_, fun p same caught due' here => ?_, schedule, .inl rfl, rfl,
    fun p same => ?_⟩ fun answer => ?_
  · cases same
    exact ⟨rfl, rfl⟩
  · cases same
    exact may (kind_of_kindName caught) due' here
  · cases same
  · cases answer with
    | none => trivial
    | some next =>
        simp only
        split
        · trivial
        · have landed : Landed (log ++ [⟨.patchStatus schedule.resourceVersion
              (reservationPatch S schedule decision plan now), some next⟩])
              (reservationPatch S schedule decision plan now) next :=
            ⟨_, List.mem_append_right log (List.mem_singleton_self _)⟩
          refine meets_bind (createRun_asks fun caught => ⟨_, .inr ⟨_, next, landed, rfl⟩, ?_, rfl,
            rfl⟩) fun log' done created => ?_
          · rw [caught]
          · obtain ⟨number, told⟩ := landed
            refine meets_pure ?_
            change Base schedule log' (Reconcile.accountSkipped S _ schedule _ plan.slot due now
              true).statusWriteBase
            rw [accountSkipped_base]
            have kept : done.statusWriteBase = next := created.2
            change Base schedule log' done.statusWriteBase
            rw [kept]
            exact .inr ⟨_, number, created.1.subset told⟩

theorem admit_finish_asks {plan : RunPlan} {due : Instant} {decision : SlotDecision}
    {work : Reconcile} (may : MayCatchUp S schedule now plan) :
    (admit_ S schedule schedule.uid plan due decision work now >>= fun done =>
      finish S done.1 done.2 now).Meets (Asks S (schedule, now)) (fun _ _ => True) log :=
  meets_bind (admit_asks may) fun _ _ base => finish_asks base

theorem reservedRun_catchUp {name : String} {status : BackupScheduleStatus}
    {reserved : Reservation} (read : reservedRun S name status = some reserved)
    (caught : reserved.plan.kind = .catchUp) : ∃ p, status.pendingRun = some p ∧
      p.kind = TriggerKind.catchUp.kindName ∧ p.name = reserved.plan.name ∧
      p.slot = reserved.plan.slot := by
  unfold reservedRun at read
  cases pending : status.pendingRun with
  | some p =>
      simp only [pending, Option.bind_eq_bind, Option.bind_some] at read
      obtain ⟨composed, -, read⟩ := Option.bind_eq_some_iff.mp read
      split at read
      · cases read
      obtain ⟨due, -, read⟩ := Option.bind_eq_some_iff.mp read
      cases read
      refine ⟨p, rfl, ?_, rfl, rfl⟩
      simp only [kindOfName] at caught
      split at caught
      · assumption
      · split at caught <;> cases caught
  | none =>
      simp only [pending, Option.bind_eq_bind] at read
      obtain ⟨ref, -, read⟩ := Option.bind_eq_some_iff.mp read
      obtain ⟨⟨slot, due, attempt⟩, -, read⟩ := Option.bind_eq_some_iff.mp read
      obtain ⟨_, made, read⟩ := Option.bind_eq_some_iff.mp read
      cases made
      obtain ⟨composed, -, read⟩ := Option.bind_eq_some_iff.mp read
      split at read
      all_goals
        split at read
        · cases read
        · obtain ⟨due, -, read⟩ := Option.bind_eq_some_iff.mp read
          cases read
          cases caught

theorem resumeReservation_asks {reserved : Reservation} {decision : SlotDecision}
    {work : Reconcile} (base : work.statusWriteBase = schedule)
    (read : schedule.status.bind (reservedRun S schedule.name) = some reserved) :
    (resumeReservation S schedule reserved decision work now).Meets (Asks S (schedule, now))
      (fun _ _ => True) log := by
  unfold resumeReservation
  split
  · exact finish_asks (.inl base)
  · refine meets_bind (createRun_asks fun caught => ?_) fun log' done created =>
      finish_asks (.inl (created.2.trans base))
    obtain ⟨status, here, read⟩ := Option.bind_eq_some_iff.mp read
    obtain ⟨p, pending, kind, name, slot⟩ := reservedRun_catchUp read caught
    refine ⟨p, .inl ?_, kind, name, congrArg some slot.symm⟩
    unfold BackupSchedule.reservation
    rw [here]
    exact pending

theorem mayCatchUp_of_decisionAt {due : Instant} {slot name : String} {next : Option Instant}
    (decided : decisionAt S schedule now = .catchUpDue due slot name next) {plan : RunPlan}
    (same : plan.slot = slot) : MayCatchUp S schedule now plan := by
  intro _ due' here
  obtain ⟨late, named, since⟩ := late_of_decisionAt decided
  obtain ⟨cadence, -, latest⟩ := late.latestDue
  rw [same, named, S.slotInstant_slotName cadence now due latest] at here
  cases here
  exact ⟨late, since⟩

theorem kind_of_retry {due : Instant} {observed : List ObservedAttempt}
    {retry : Option RetryPolicy} {plan : RunPlan} {retryOf name : String}
    (decided : decideAttempt S name due observed retry now = .retry plan retryOf) :
    plan.kind = .retry := by
  unfold decideAttempt at decided
  split at decided
  · cases decided
  split at decided
  · cases decided
  split at decided
  · cases decided
  split at decided
  all_goals first
    | cases decided
    | (split at decided
       · cases decided
         rfl
       · cases decided)

theorem admitSlotRun_asks {decision : SlotDecision} {work : Reconcile} {due : Instant}
    {slot : String} {blocked : List String} (base : work.statusWriteBase = schedule)
    (decided : decisionAt S schedule now = decision) (here : decision.dueSlot = some (due, slot)) :
    (admitSlotRun S schedule decision work due slot blocked now).Meets (Asks S (schedule, now))
      (fun _ _ => True) log := by
  unfold admitSlotRun
  split
  · exact finish_asks (.inl ((accountSkipped_base work).trans base))
  · split
    · exact finish_asks (.inl ((accountSkipped_base _).trans base))
    · cases here
      simp only
      split
      · exact finish_asks (.inl ((accountSkipped_base _).trans base))
      · exact admit_finish_asks fun caught => TriggerKind.noConfusion caught
    · cases here
      simp only
      split
      · exact finish_asks (.inl ((accountSkipped_base _).trans base))
      · exact admit_finish_asks (mayCatchUp_of_decisionAt decided rfl)
    · exact finish_asks (.inl base)

theorem decideFromAttempts_asks {decision : SlotDecision} {work : Reconcile} {due : Instant}
    {slot : String} {chain : ObservedChain} (base : work.statusWriteBase = schedule)
    (decided : decisionAt S schedule now = decision) (here : decision.dueSlot = some (due, slot)) :
    (decideFromAttempts S schedule decision work due slot chain now).Meets (Asks S (schedule, now))
      (fun _ _ => True) log := by
  have settles : ∀ {work' : Reconcile} {decision : SlotDecision} {final : Bool},
      work'.statusWriteBase = schedule →
      (finish S decision (work'.accountSkipped S schedule decision slot due now final) now).Meets
        (Asks S (schedule, now)) (fun _ _ => True) log :=
    fun kept => finish_asks (.inl ((accountSkipped_base _).trans kept))
  unfold decideFromAttempts
  simp only
  split
  · exact settles base
  · split
    · exact admitSlotRun_asks base decided here
    · exact settles base
    · exact settles base
    · exact settles base
    · exact settles base
    · exact settles base
    · exact settles base
    · rename_i plan retryOf retried
      split
      · exact settles base
      · refine admit_finish_asks fun caught => ?_
        rw [kind_of_retry retried] at caught
        cases caught

theorem decideDueSlot_asks {work : Reconcile} (base : work.statusWriteBase = schedule) :
    (decideDueSlot S schedule (decisionAt S schedule now) work now).Meets (Asks S (schedule, now))
      (fun _ _ => True) log := by
  unfold decideDueSlot
  split
  · exact finish_asks (.inl base)
  · rename_i here
    exact meets_bind walkAttempts_asks fun log chain _ => decideFromAttempts_asks base rfl here

theorem reconcile_asks : (reconcileScheduleWithArchiveAt S schedule now).Meets
    (Asks S (schedule, now)) (fun _ _ => True) [] := by
  unfold reconcileScheduleWithArchiveAt
  refine meets_bind observe_asks fun log observed _ => ?_
  simp only
  split
  · exact decideDueSlot_asks rfl
  · rename_i read _
    exact resumeReservation_asks rfl read
  · exact decideDueSlot_asks rfl

end

end Logweir.Schedule
