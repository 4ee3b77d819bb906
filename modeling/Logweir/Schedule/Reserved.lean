import Logweir.Library.Results
import Logweir.Schedule.Revision
import Logweir.Schedule.SlotNames

/-!
# Reserved names

`backup_schedule::reserved_slot` reads back what `scheduled_backup_name_for_attempt` wrote and
nothing else, so that a reservation resumes alike from its typed block and from its bare name.
-/

set_option autoImplicit false

namespace Logweir.Schedule

open Logweir.Results (toOption_eq_some)

theorem stripPrefix_append (front rest : List Char) : stripPrefix front (front ++ rest) = some rest := by
  unfold stripPrefix
  rw [if_pos (List.isPrefixOf_iff_prefix.mpr (List.prefix_append front rest)), List.drop_left]

theorem utf8ByteSize_cons (c : Char) (text : List Char) :
    (String.ofList (c :: text)).utf8ByteSize = c.utf8Size + (String.ofList text).utf8ByteSize := by
  rw [String.ofList_cons, String.utf8ByteSize_append, String.utf8ByteSize_singleton]

theorem splitAtChecked_append (front rest : List Char) :
    splitAtChecked (String.ofList front).utf8ByteSize (front ++ rest) = some (front, rest) := by
  induction front with
  | nil =>
      rw [show (String.ofList []).utf8ByteSize = 0 from rfl, splitAtChecked]
      rfl
  | cons c front ih =>
      have positive := c.utf8Size_pos
      obtain ⟨bytes, size⟩ : ∃ bytes, c.utf8Size + (String.ofList front).utf8ByteSize = bytes + 1 :=
        ⟨_, (Nat.succ_pred_eq_of_pos (by omega)).symm⟩
      have left : bytes + 1 - c.utf8Size = (String.ofList front).utf8ByteSize := by omega
      rw [utf8ByteSize_cons, size, List.cons_append, splitAtChecked, if_pos (by omega), left, ih]
      rfl

theorem utf8ByteSize_of_splitAtChecked {bytes : Nat} {text front rest : List Char}
    (split_ : splitAtChecked bytes text = some (front, rest)) :
    (String.ofList front).utf8ByteSize = bytes := by
  induction bytes, text using splitAtChecked.induct generalizing front rest with
  | case1 text =>
      rw [splitAtChecked] at split_
      cases split_
      rfl
  | case2 bytes =>
      rw [splitAtChecked] at split_
      cases split_
  | case3 bytes c text fits ih =>
      rw [splitAtChecked, if_pos fits] at split_
      obtain ⟨parts, inner, same⟩ := Option.map_eq_some_iff.mp split_
      obtain ⟨front', rest'⟩ := parts
      cases same
      rw [utf8ByteSize_cons, ih inner]
      omega
  | case4 bytes c text wide =>
      rw [splitAtChecked, if_neg wide] at split_
      cases split_

/-- A slot's text spells an instant: it is as long as a slot, and the calendar has the instant. -/
def Cadences.Spells (C : Cadences) (slot : String) (due : Instant) : Prop :=
  slot.utf8ByteSize = slotNameLen ∧ C.slotInstant slot = some due

variable {C : Cadences} {schedule name slot : String} {due : Instant} {attempt : Nat}

def slotAndAttempt (tail : List Char) : Option (String × Nat) :=
  if (String.ofList tail).utf8ByteSize = slotNameLen then some (String.ofList tail, 0)
  else do
    let (slot, suffix) ← splitAtChecked slotNameLen tail
    let digits ← stripPrefix ['-', 'r'] suffix
    let attempt ← parseU32 digits
    some (String.ofList slot, attempt)

theorem utf8ByteSize_of_slotAndAttempt {tail : List Char}
    (read : slotAndAttempt tail = some (slot, attempt)) : slot.utf8ByteSize = slotNameLen := by
  unfold slotAndAttempt at read
  split at read
  · rename_i whole
    cases read
    exact whole
  · obtain ⟨⟨front, suffix⟩, parts, read⟩ := Option.bind_eq_some_iff.mp read
    obtain ⟨digits, -, read⟩ := Option.bind_eq_some_iff.mp read
    obtain ⟨k, -, same⟩ := Option.bind_eq_some_iff.mp read
    cases same
    exact utf8ByteSize_of_splitAtChecked parts

theorem retry_suffix : ∀ k ≤ slotMaxRetries, k ≠ 0 → (attemptSuffix k).utf8ByteSize = 3 ∧
    ∃ digits, (attemptSuffix k).toList = ['-', 'r'] ++ digits ∧ parseU32 digits = some k := by
  intro k few later
  have small : k = 1 ∨ k = 2 ∨ k = 3 := by
    unfold slotMaxRetries at few
    omega
  rcases small with rfl | rfl | rfl
  · exact ⟨by decide, ['1'], by decide, by decide⟩
  · exact ⟨by decide, ['2'], by decide, by decide⟩
  · exact ⟨by decide, ['3'], by decide, by decide⟩

theorem slotAndAttempt_composed (size : slot.utf8ByteSize = slotNameLen)
    (few : attempt ≤ slotMaxRetries) :
    slotAndAttempt (slot.toList ++ (attemptSuffix attempt).toList) = some (slot, attempt) := by
  have bytes : (String.ofList (slot.toList ++ (attemptSuffix attempt).toList)).utf8ByteSize =
      slotNameLen + (attemptSuffix attempt).utf8ByteSize := by
    rw [String.ofList_append, String.utf8ByteSize_append, String.ofList_toList,
      String.ofList_toList, size]
  unfold slotAndAttempt
  by_cases first : attempt = 0
  · subst first
    have none_ : attemptSuffix 0 = "" := rfl
    rw [none_, show "".utf8ByteSize = 0 from rfl, Nat.add_zero] at bytes
    rw [none_, if_pos bytes, String.toList_empty, List.append_nil, String.ofList_toList]
  · obtain ⟨three, digits, suffix, parsed⟩ := retry_suffix attempt few first
    have split_ := splitAtChecked_append slot.toList (attemptSuffix attempt).toList
    rw [String.ofList_toList, size] at split_
    rw [three] at bytes
    rw [if_neg (by omega), split_, suffix]
    simp only [Option.bind_eq_bind, Option.bind_some, stripPrefix_append, parsed,
      String.ofList_toList]

theorem reservedSlot_eq (C : Cadences) (schedule name : String) : C.reservedSlot schedule name =
    (stripPrefix (scheduledBackupPrefix ++ schedule ++ "-").toList name.toList).bind fun tail =>
      (slotAndAttempt tail).bind fun read =>
        if slotMaxRetries < read.2 ∨
            (scheduledBackupNameForAttempt schedule read.1 read.2).toOption ≠ some name then none
        else (C.slotInstant read.1).bind fun due => some (read.1, due, read.2) := by
  unfold Cadences.reservedSlot
  refine congrArg (Option.bind _) (funext fun tail => ?_)
  unfold slotAndAttempt
  by_cases whole : (String.ofList tail).utf8ByteSize = slotNameLen
  · simp only [if_pos whole, Option.bind_eq_bind, Option.bind_some]
  · simp only [if_neg whole, Option.bind_eq_bind, Option.bind_assoc, Option.bind_some]

theorem reservedSlot_iff (C : Cadences) (schedule name slot : String) (due : Instant)
    (attempt : Nat) : C.reservedSlot schedule name = some (slot, due, attempt) ↔
      attempt ≤ slotMaxRetries ∧ C.Spells slot due ∧
        scheduledBackupNameForAttempt schedule slot attempt = .ok name := by
  rw [reservedSlot_eq]
  constructor
  · intro read
    obtain ⟨tail, -, read⟩ := Option.bind_eq_some_iff.mp read
    obtain ⟨parts, here, read⟩ := Option.bind_eq_some_iff.mp read
    split at read
    · cases read
    rename_i checked
    obtain ⟨few, composed⟩ := not_or.mp checked
    obtain ⟨due', spelled, same⟩ := Option.bind_eq_some_iff.mp read
    cases same
    exact ⟨Nat.le_of_not_lt few, ⟨utf8ByteSize_of_slotAndAttempt here, spelled⟩,
      (toOption_eq_some _ _).mp (not_not.mp composed)⟩
  · rintro ⟨few, ⟨size, spelled⟩, named⟩
    have tail : stripPrefix (scheduledBackupPrefix ++ schedule ++ "-").toList name.toList =
        some (slot.toList ++ (attemptSuffix attempt).toList) := by
      have text : name.toList = (scheduledBackupPrefix ++ schedule ++ "-").toList ++
          (slot.toList ++ (attemptSuffix attempt).toList) := by
        simp only [scheduledBackupNameForAttempt_ok named, composedName, String.toList_append,
          List.append_assoc]
      rw [text]
      exact stripPrefix_append _ _
    rw [tail, Option.bind_some, slotAndAttempt_composed size few, Option.bind_some,
      if_neg (not_or.mpr ⟨Nat.not_lt.mpr few, not_not.mpr ((toOption_eq_some _ _).mpr named)⟩)]
    rw [spelled]
    rfl

section

variable {S : Surroundings} {schedule : BackupSchedule} {now : Instant} {plan : RunPlan}

/-- A run a pass plans: attempt 0 of the slot its decision admits, or the retry that the attempts it
found of the slot call for. -/
inductive Planned (S : Surroundings) (schedule : BackupSchedule) (now : Instant) : RunPlan → Prop
  | due {due : Instant} {slot name : String} {next : Option Instant}
      (decided : decisionAt S schedule now = .due due slot name next) :
      Planned S schedule now ⟨slot, name, .scheduled, 0, none⟩
  | catchUp {due : Instant} {slot name : String} {next : Option Instant}
      (decided : decisionAt S schedule now = .catchUpDue due slot name next) :
      Planned S schedule now ⟨slot, name, .catchUp, 0, none⟩
  | retry {due : Instant} {slot retryOf : String} {plan : RunPlan} {observed : List ObservedAttempt}
      (here : (decisionAt S schedule now).dueSlot = some (due, slot))
      (decided : decideAttempt S schedule.name due observed
        (schedule.spec.retry.map RetrySpec.policy) now = .retry plan retryOf) :
      Planned S schedule now plan

/-- What a decision about a due slot rests on; the object it would create is the slot's. -/
structure DueSlot (S : Surroundings) (scheduleName : String) (spec : BackupScheduleSpec)
    (now due : Instant) (slot : String) : Prop where
  latest : ∃ cadence, S.latestDueSlot cadence now = some due
  slot_eq : slot = S.slotName due
  retries : retryRefusal scheduleName spec.retry = none

def SlotDecision.admits : SlotDecision → Option String
  | .due _ _ name _ | .catchUpDue _ _ name _ => some name
  | _ => none

theorem retryRefusal_dueSlot {name : String} {retry : Option RetrySpec} {refusal : SlotDecision}
    (refused : retryRefusal name retry = some refusal) : refusal.dueSlot = none := by
  unfold retryRefusal at refused
  split at refused
  · cases refused
  · split at refused
    · cases refused
      rfl
    · split at refused
      · cases refused
        rfl
      · cases refused

theorem maxRetries_le {name : String} {retry : Option RetrySpec} {policy : RetryPolicy}
    (configured : retry.map RetrySpec.policy = some policy)
    (accepted : retryRefusal name retry = none) : policy.maxRetries ≤ slotMaxRetries := by
  unfold retryRefusal at accepted
  rw [configured] at accepted
  simp only at accepted
  cases validated : policy.validate with
  | error problem =>
      rw [validated] at accepted
      cases accepted
  | ok =>
      unfold RetryPolicy.validate at validated
      split at validated
      · cases validated
      · omega

theorem dueSlot_of_decide {scheduleName : String} {spec : BackupScheduleSpec} {due : Instant}
    {slot : String} {decision : SlotDecision}
    (decided : SlotDecision.decide S scheduleName spec now = decision)
    (here : decision.dueSlot = some (due, slot)) : DueSlot S scheduleName spec now due slot ∧
      ∀ name, decision.admits = some name → scheduledBackupName scheduleName slot = .ok name := by
  unfold SlotDecision.decide at decided
  split at decided
  · subst decided
    cases here
  split at decided
  · subst decided
    cases here
  split at decided
  · subst decided
    cases here
  split at decided
  · subst decided
    cases here
  · subst decided
    cases here
  rename_i cadence parsed
  split at decided
  · subst decided
    cases here
  split at decided
  · rename_i refusal refused
    subst decided
    rw [retryRefusal_dueSlot refused] at here
    cases here
  rename_i retries
  split at decided
  · subst decided
    cases here
  rename_i latest known
  split at decided
  · subst decided
    cases here
  rename_i objectName named
  split at decided <;> subst decided <;> cases here
  all_goals
    refine ⟨⟨⟨cadence, known⟩, rfl, retries⟩, fun name admits => ?_⟩
    cases admits
  · exact named
  · exact named

theorem dueSlot_of_refine {decision refined : SlotDecision} {last since : Option Instant}
    {due : Instant} {slot : String} (made : refineAgainstStatus decision last since = refined)
    (here : refined.dueSlot = some (due, slot)) : decision.dueSlot = some (due, slot) ∧
      ∀ name, refined.admits = some name → decision.admits = some name := by
  unfold refineAgainstStatus at made
  simp only at made
  split at made
  · split at made <;> subst made <;> cases here <;>
      exact ⟨rfl, fun name admits => by cases admits⟩
  · split at made
    · subst made
      cases here
      exact ⟨rfl, fun name admits => by cases admits⟩
    · split at made <;> subst made <;> cases here
      · exact ⟨rfl, fun name admits => by cases admits⟩
      · exact ⟨rfl, fun name admits => admits⟩
  · subst made
    cases here
  · subst made
    exact ⟨here, fun name admits => admits⟩

theorem dueSlot_of_bound {decision : SlotDecision} {created : Option Instant} {due : Instant}
    {slot : String} (here : (boundByCreation decision created).dueSlot = some (due, slot)) :
    boundByCreation decision created = decision := by
  rcases boundByCreation_kept decision created with same | ⟨_, _, _, _, older⟩
  · exact same
  · rw [older] at here
    cases here

theorem dueSlot_of_decisionAt {due : Instant} {slot : String}
    (here : (decisionAt S schedule now).dueSlot = some (due, slot)) :
    DueSlot S schedule.name schedule.spec now due slot ∧
      ∀ name, (decisionAt S schedule now).admits = some name →
        scheduledBackupName schedule.name slot = .ok name := by
  obtain ⟨about, kept⟩ := dueSlot_of_refine rfl here
  have same := dueSlot_of_bound about
  rw [same] at about
  obtain ⟨rests, named⟩ := dueSlot_of_decide rfl about
  refine ⟨rests, fun name admits => named name ?_⟩
  have admitted := kept name admits
  rwa [same] at admitted

theorem retry_of_admitRetry {slot finishedAt : Instant} {latest : Option Instant}
    {attempt next : Nat} {retryable : Bool} {retry : Option RetryPolicy}
    (admitted : admitRetry slot latest attempt retryable finishedAt retry now = .due next) :
    ∃ policy, retry = some policy ∧ next ≤ policy.maxRetries := by
  unfold admitRetry at admitted
  split at admitted
  · cases admitted
  split at admitted
  · cases admitted
  dsimp only at admitted
  split at admitted
  · cases admitted
  rename_i below
  split at admitted
  · cases admitted
  cases admitted
  cases retry with
  | none => exact absurd (Nat.zero_le attempt) below
  | some policy => exact ⟨policy, rfl, Nat.lt_of_not_le below⟩

theorem retry_of_decideAttempt {name : String} {due : Instant} {observed : List ObservedAttempt}
    {retry : Option RetryPolicy} {retryOf : String}
    (decided : decideAttempt S name due observed retry now = .retry plan retryOf) :
    (∃ policy, retry = some policy ∧ plan.attempt ≤ policy.maxRetries) ∧
      plan.slot = S.slotName due ∧
        scheduledBackupNameForAttempt name (S.slotName due) plan.attempt = .ok plan.name := by
  unfold decideAttempt at decided
  split at decided
  · cases decided
  rename_i highest _
  split at decided
  · cases decided
  split at decided
  · cases decided
  rename_i outcome _
  split at decided
  · cases decided
  · cases decided
  · cases decided
  · rename_i attempt admitted
    split at decided
    · rename_i objectName named
      cases decided
      exact ⟨retry_of_admitRetry admitted, rfl, named⟩
    · cases decided
  · cases decided

/-- A planned run is an attempt of its slot, under the name that spells both. -/
structure Attempt (S : Surroundings) (scheduleName : String) (plan : RunPlan) : Prop where
  slot : ∃ cadence now due, S.latestDueSlot cadence now = some due ∧ plan.slot = S.slotName due
  attempt : plan.attempt ≤ slotMaxRetries
  named : scheduledBackupNameForAttempt scheduleName plan.slot plan.attempt = .ok plan.name

theorem Planned.is_attempt (planned : Planned S schedule now plan) :
    Attempt S schedule.name plan := by
  cases planned with
  | due decided =>
      obtain ⟨rests, named⟩ := dueSlot_of_decisionAt (congrArg SlotDecision.dueSlot decided)
      obtain ⟨cadence, latest⟩ := rests.latest
      exact ⟨⟨cadence, now, _, latest, rests.slot_eq⟩, Nat.zero_le _,
        named _ (congrArg SlotDecision.admits decided)⟩
  | catchUp decided =>
      obtain ⟨rests, named⟩ := dueSlot_of_decisionAt (congrArg SlotDecision.dueSlot decided)
      obtain ⟨cadence, latest⟩ := rests.latest
      exact ⟨⟨cadence, now, _, latest, rests.slot_eq⟩, Nat.zero_le _,
        named _ (congrArg SlotDecision.admits decided)⟩
  | retry here decided =>
      obtain ⟨rests, -⟩ := dueSlot_of_decisionAt here
      obtain ⟨cadence, latest⟩ := rests.latest
      obtain ⟨⟨policy, configured, within⟩, slot, named⟩ := retry_of_decideAttempt decided
      refine ⟨⟨cadence, now, _, latest, slot⟩, Nat.le_trans within ?_, slot ▸ named⟩
      exact maxRetries_le configured rests.retries

theorem reservedRun_typed {scheduleName : String} {status : BackupScheduleStatus}
    {pending : PendingRun} (held : status.pendingRun = some pending)
    (attempts : pending.attempt = plan.attempt) (slots : pending.slot = plan.slot)
    (names : pending.name = plan.name)
    (named : scheduledBackupNameForAttempt scheduleName plan.slot plan.attempt = .ok plan.name)
    (spelled : S.slotInstant plan.slot = some due) :
    reservedRun S scheduleName status = some ⟨plan.name, ⟨plan.slot, plan.name,
      kindOfName pending.kind, plan.attempt, if 0 < plan.attempt then
        (scheduledBackupNameForAttempt scheduleName plan.slot (plan.attempt - 1)).toOption
      else none⟩, due⟩ := by
  have count : (if pending.attempt < 0 then 0 else pending.attempt.toNat) = plan.attempt := by
    rw [attempts, if_neg (Int.not_lt.mpr (Int.natCast_nonneg _)), Int.toNat_natCast]
  unfold reservedRun
  simp only [held, count, slots, names, Option.bind_eq_bind, Option.bind_some,
    (toOption_eq_some _ _).mpr named, ne_eq, not_true_eq_false, if_false, spelled]

theorem reservedRun_bare {scheduleName : String} {status : BackupScheduleStatus}
    (untyped : status.pendingRun = none) (held : status.pendingBackupRef = some ⟨plan.name⟩)
    (few : plan.attempt ≤ slotMaxRetries)
    (named : scheduledBackupNameForAttempt scheduleName plan.slot plan.attempt = .ok plan.name)
    (spelled : S.Spells plan.slot due) :
    reservedRun S scheduleName status = some ⟨plan.name, ⟨plan.slot, plan.name,
      if plan.attempt = 0 then .scheduled else .retry, plan.attempt, if 0 < plan.attempt then
        (scheduledBackupNameForAttempt scheduleName plan.slot (plan.attempt - 1)).toOption
      else none⟩, due⟩ := by
  have read := (reservedSlot_iff S.toCadences scheduleName plan.name plan.slot due
    plan.attempt).mpr ⟨few, spelled, named⟩
  unfold reservedRun
  simp only [untyped, held, read, Option.bind_eq_bind, Option.bind_some,
    (toOption_eq_some _ _).mpr named, ne_eq, not_true_eq_false, if_false, spelled.2]

end

/-- A name is read as the slot and the attempt it was composed of and nothing else is read, so a
planned run is resumed alike from its typed reservation and from its bare name. -/
theorem reserved_names_read_back (S : Surroundings) :
    (∀ (schedule name slot : String) (due : Instant) (attempt : Nat),
      S.reservedSlot schedule name = some (slot, due, attempt) ↔
        attempt ≤ slotMaxRetries ∧ S.Spells slot due ∧
          scheduledBackupNameForAttempt schedule slot attempt = .ok name) ∧
    ((∀ t, S.slotName t = slotName (.ofInstant t)) →
      ∀ (schedule : BackupSchedule) (now : Instant) (plan : RunPlan),
      Planned S schedule now plan → ∀ (decision : SlotDecision) (status : BackupScheduleStatus),
      let typed := (reservationPatch S schedule decision plan now).apply status
      ∃ resumed bare, reservedRun S schedule.name typed = some resumed ∧
        reservedRun S schedule.name { typed with pendingRun := none } = some bare ∧
        resumed.plan.slot = plan.slot ∧ resumed.plan.attempt = plan.attempt ∧
        bare.plan.slot = resumed.plan.slot ∧ bare.plan.attempt = resumed.plan.attempt ∧
        bare.plan.retryOf = resumed.plan.retryOf) := by
  refine ⟨reservedSlot_iff S.toCadences, ?_⟩
  intro chrono schedule now plan planned decision status
  obtain ⟨⟨cadence, at_, due, latest, slot⟩, few, named⟩ := planned.is_attempt
  have spelled : S.Spells plan.slot due := by
    have long := S.length_slotName cadence at_ due latest
    rw [chrono] at long
    rw [slot]
    refine ⟨?_, S.slotInstant_slotName cadence at_ due latest⟩
    rw [chrono, utf8ByteSize_slotName, long]
  have small : (plan.attempt : Int) ≤ i32Max := by
    unfold slotMaxRetries at few
    unfold i32Max
    omega
  exact ⟨_, _, reservedRun_typed rfl (if_pos small) rfl rfl named spelled.2,
    reservedRun_bare rfl rfl few named spelled, rfl, rfl, rfl, rfl, rfl⟩

theorem length_spelling (c : nightlySurroundings.Cadence) (now due : Instant)
    (latest : nightlySurroundings.latestDueSlot c now = some due) :
    (slotName (.ofInstant due)).length = slotNameLen := by
  cases latest
  exact length_slotName ⟨by decide, by decide⟩

def spellingSurroundings : Surroundings :=
  { nightlySurroundings with
    slotName := fun t => slotName (.ofInstant t)
    slotInstant_slotName := fun _ _ _ latest => latest
    length_slotName := length_spelling }

/-- The three o'clock run of a nightly schedule, resumed either way. -/
theorem three_o_clock_read_back :
    let typed := (reservationPatch spellingSurroundings (nightly ["orders"] 1 1 .none) .suspended
      ⟨"20260910-030000", "logweir-backup-nightly-20260910-030000", .scheduled, 0, none⟩
      threeOClock).apply {}
    ∃ resumed bare, reservedRun spellingSurroundings "nightly" typed = some resumed ∧
      reservedRun spellingSurroundings "nightly" { typed with pendingRun := none } = some bare ∧
      resumed.plan.slot = "20260910-030000" ∧ resumed.plan.attempt = 0 ∧
      bare.plan.slot = resumed.plan.slot ∧ bare.plan.attempt = resumed.plan.attempt ∧
      bare.plan.retryOf = resumed.plan.retryOf := by
  have decided : decisionAt spellingSurroundings (nightly ["orders"] 1 1 .none) threeOClock =
      .due threeOClock "20260910-030000" "logweir-backup-nightly-20260910-030000"
        (some (seconds 1789095600)) := by decide
  exact (reserved_names_read_back spellingSurroundings).2 (fun _ => rfl) _ threeOClock _
    (.due decided) .suspended {}

end Logweir.Schedule
