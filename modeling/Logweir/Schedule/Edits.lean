import Logweir.Schedule.CatchUp

/-!
# Edits and catch-ups

Every interleaving of edits of one schedule and passes over it: a pass starts from a
version a cache may hold, its calls are answered in any order, and it may fail at any of
them, its write carried out or not.  While every pass that finds no policy block of its
revision is one with no late slot to catch up, no catch-up is admitted of a slot that
came due before the revision in force was observed.
-/

set_option autoImplicit false

namespace Logweir.Schedule

open Logweir.Programs Logweir.Programs.Program

def Keeps {α : Type} (old new : Option α) : Prop := new = old ∨ new = none

instance {α : Type} [DecidableEq α] (old new : Option α) : Decidable (Keeps old new) :=
  inferInstanceAs (Decidable (new = old ∨ new = none))

structure Crd where
  keep : BackupScheduleStatus → BackupScheduleStatus
  policy : ∀ s, Keeps s.policy (keep s).policy
  pendingRun : ∀ s, Keeps s.pendingRun (keep s).pendingRun

/-- What the API server holds of one schedule.  `observed` remembers the revision each
pass read and its instant, `admitted` the accepted reservations with the revision that
was in force. -/
structure Server where
  current : BackupSchedule
  past : List BackupSchedule
  observed : List (Int × Instant)
  admitted : List (Int × PendingRun)

def Server.Knows (s : Server) (v : BackupSchedule) : Prop := v = s.current ∨ v ∈ s.past

instance (s : Server) (v : BackupSchedule) : Decidable (s.Knows v) :=
  inferInstanceAs (Decidable (v = s.current ∨ v ∈ s.past))

/-- The revision had been observed when the slot came due. -/
def Server.ObservedBy (s : Server) (revision : Int) (due : Instant) : Prop :=
  ∃ at_, (revision, at_) ∈ s.observed ∧ at_ ≤ due

def Server.write (s : Server) (v : BackupSchedule) : Server :=
  { s with
    current := { v with resourceVersion := s.current.resourceVersion + 1 }
    past := s.current :: s.past }

variable (S : Surroundings) (crd : Crd)

def Server.patched (s : Server) (patch : StatusPatch) : Server :=
  { s.write { s.current with
      status := some (crd.keep (patch.apply (s.current.status.getD {}))) } with
    admitted := match patch.pendingRun with
      | some (some p) => (s.current.revision, p) :: s.admitted
      | _ => s.admitted }

/-- The answer to a call and what the call leaves.  The runs are not this object's:
calls about them are answered in any way. -/
def Server.serve (s : Server) (others : (c : Call) → c.Answer) : (c : Call) → c.Answer × Server
  | .patchStatus number patch =>
      if number = s.current.resourceVersion then
        (some (s.patched crd patch).current, s.patched crd patch)
      else ((none : Option BackupSchedule), s)
  | .getBackup name => (others (.getBackup name), s)
  | .listBackups selector token => (others (.listBackups selector token), s)
  | .patchBackup name patch => (others (.patchBackup name patch), s)
  | .postBackup backup => (others (.postBackup backup), s)

abbrev Pass := Flight (BackupSchedule × Instant) Call Call.Answer ScheduleError ScheduleOutcome

structure State where
  server : Server
  passes : List Pass

inductive Action where
  /-- A pass reads a version and the clock. -/
  | begins (version : BackupSchedule) (now : Instant)
  | calls (pass : Nat) (others : (c : Call) → c.Answer)
  /-- A call fails, and the pass with it. -/
  | fails (pass : Nat) (carriedOut : Bool)
  /-- Someone else writes the object: an edit, or another part of its status. -/
  | writes (next : BackupSchedule)

def State.step (s : State) : Action → Option State
  | .begins version now =>
      if s.server.Knows version then
        some { server := { s.server with
                 observed := (version.revision, now) :: s.server.observed }
               passes := s.passes ++
                 [⟨(version, now), [], reconcileScheduleWithArchiveAt S version now⟩] }
      else none
  | .calls i others =>
      match s.passes[i]? with
      | none => none
      | some pass =>
          match pass.next? with
          | none => none
          | some c =>
              some { server := (s.server.serve crd others c).2
                     passes := s.passes.set i
                       (pass.advance fun c => (s.server.serve crd others c).1) }
  | .fails i carriedOut =>
      match s.passes[i]? with
      | none => none
      | some pass =>
          some { server := match pass.next? with
                   | some (.patchStatus number patch) =>
                       if carriedOut ∧ number = s.server.current.resourceVersion then
                         s.server.patched crd patch
                       else s.server
                   | _ => s.server
                 passes := s.passes.eraseIdx i }
  | .writes next =>
      if Keeps (s.server.current.status.bind BackupScheduleStatus.policy)
          (next.status.bind BackupScheduleStatus.policy) ∧
          Keeps s.server.current.reservation next.reservation then
        some { s with server := s.server.write next }
      else none

def run (s : State) : List Action → Option State
  | [] => some s
  | a :: as =>
      match s.step S crd a with
      | none => none
      | some s' => run s' as

/-- A pass over the current version that finds no policy block of its revision finds no
late slot from before the revision was observed. -/
def State.Clear (s : State) : Action → Prop
  | .begins version now => version = s.server.current → version.recorded = none →
      ∀ due, Late S version now due → s.server.ObservedBy version.revision due
  | _ => True

/-- Every step of the run meets the condition. -/
def AllClear (s : State) : List Action → Prop
  | [] => True
  | a :: as => s.Clear S a ∧
      match s.step S crd a with
      | none => True
      | some s' => AllClear s' as

def created (schedule : BackupSchedule) : State :=
  ⟨⟨{ schedule with status := none }, [], [], []⟩, []⟩

/-- No catch-up is admitted of a slot from before the revision in force was observed,
and none is created that was not admitted. -/
structure NeverPast (s : State) : Prop where
  admitted : ∀ revision p, (revision, p) ∈ s.server.admitted →
    p.kind = TriggerKind.catchUp.kindName → ∀ due, S.slotInstant p.slot = some due →
      s.server.ObservedBy revision due
  created : ∀ pass ∈ s.passes, ∀ backup, pass.next? = some (.postBackup backup) →
    backup.CatchesUp → ∃ revision p, (revision, p) ∈ s.server.admitted ∧
      p.kind = TriggerKind.catchUp.kindName ∧ p.name = backup.name ∧
      backup.spec.slot = some p.slot

structure Server.Later (s s' : Server) : Prop where
  knows : ∀ {v}, s.Knows v → s'.Knows v
  observed : ∀ {o}, o ∈ s.observed → o ∈ s'.observed
  admitted : ∀ {a}, a ∈ s.admitted → a ∈ s'.admitted
  number : s.current.resourceVersion ≤ s'.current.resourceVersion
  current : s'.current.resourceVersion = s.current.resourceVersion → s'.current = s.current

structure Server.Sound (s : Server) : Prop where
  older : ∀ v ∈ s.past, v.resourceVersion < s.current.resourceVersion
  recorded : ∀ v, s.Knows v → ∀ p, v.status.bind BackupScheduleStatus.policy = some p →
    (p.generation, p.effectiveSince) ∈ s.observed
  reserved : ∀ v, s.Knows v → ∀ p, v.reservation = some p → ∃ revision, (revision, p) ∈ s.admitted
  admitted : ∀ revision p, (revision, p) ∈ s.admitted → p.kind = TriggerKind.catchUp.kindName →
    ∀ due, S.slotInstant p.slot = some due → s.ObservedBy revision due

/-- What a pass was told of the schedule holds of what the server has. -/
def Server.Bears (s : Server) (start : BackupSchedule × Instant) (e : Event Call Call.Answer) :
    Prop :=
  ∀ number patch next, e = ⟨.patchStatus number patch, (some next : Option BackupSchedule)⟩ →
    s.Knows next ∧ next.revision = start.1.revision ∧
      ∀ p, patch.pendingRun = some (some p) → ∃ revision, (revision, p) ∈ s.admitted

/-- A pass under way read a version there was, at an instant that is remembered. -/
structure Server.Backs (s : Server) (pass : Pass) : Prop where
  knows : s.Knows pass.start.1
  observed : (pass.start.1.revision, pass.start.2) ∈ s.observed
  follows : pass.Follows (Asks S) fun _ _ _ => True
  told : ∀ e ∈ pass.log, s.Bears pass.start e
  clear : pass.start.1 = s.current → pass.start.1.recorded = none →
    ∀ due, Late S pass.start.1 pass.start.2 due → s.ObservedBy pass.start.1.revision due

section

variable {S} {crd} {s s' : Server} {start : BackupSchedule × Instant} {log : Told}

theorem Server.Later.refl (s : Server) : s.Later s := ⟨id, id, id, Nat.le_refl _, fun _ => rfl⟩

theorem Server.later_write (s : Server) (v : BackupSchedule) : s.Later (s.write v) := by
  refine ⟨fun known => .inr (List.mem_cons.mpr known), id, id, Nat.le_succ _, fun same => ?_⟩
  exact absurd same (Nat.succ_ne_self _)

theorem Server.later_patched (s : Server) (patch : StatusPatch) : s.Later (s.patched crd patch) := by
  obtain ⟨knows, observed, -, number, current⟩ := s.later_write { s.current with
    status := some (crd.keep (patch.apply (s.current.status.getD {}))) }
  refine ⟨knows, observed, fun member => ?_, number, current⟩
  unfold Server.patched
  simp only
  split
  · exact List.mem_cons_of_mem _ member
  · exact member

theorem Server.later_serve (s : Server) (others : (c : Call) → c.Answer) (c : Call) :
    s.Later (s.serve crd others c).2 := by
  cases c with
  | patchStatus number patch =>
      unfold Server.serve
      simp only
      split
      · exact s.later_patched patch
      · exact .refl s
  | _ => exact .refl s

theorem Server.ObservedBy.later {revision : Int} {due : Instant} (later : s.Later s')
    (observed : s.ObservedBy revision due) : s'.ObservedBy revision due := by
  obtain ⟨at_, member, early⟩ := observed
  exact ⟨at_, later.observed member, early⟩

theorem Server.Bears.later {e : Event Call Call.Answer} (later : s.Later s')
    (bears : s.Bears start e) : s'.Bears start e := by
  intro number patch next told
  obtain ⟨knows, revision, admitted⟩ := bears number patch next told
  exact ⟨later.knows knows, revision, fun p sent => (admitted p sent).imp fun _ => later.admitted⟩

theorem Server.Sound.current (sound : s.Sound S) {v : BackupSchedule} (known : s.Knows v)
    (number : v.resourceVersion = s.current.resourceVersion) : v = s.current := by
  rcases known with current | past
  · exact current
  · have older := sound.older v past
    omega

theorem Server.Sound.number_le (sound : s.Sound S) {v : BackupSchedule} (known : s.Knows v) :
    v.resourceVersion ≤ s.current.resourceVersion := by
  rcases known with current | past
  · exact Nat.le_of_eq (congrArg BackupSchedule.resourceVersion current)
  · exact Nat.le_of_lt (sound.older v past)

theorem Server.Backs.later {pass : Pass} (sound : s.Sound S) (later : s.Later s')
    (backs : s.Backs S pass) : s'.Backs S pass := by
  refine ⟨later.knows backs.knows, later.observed backs.observed, backs.follows,
    fun e member => (backs.told e member).later later, fun current unrecorded due late => ?_⟩
  -- the version read is still the current one, so no write came between
  have number := sound.number_le backs.knows
  have same : s'.current.resourceVersion = s.current.resourceVersion := by
    have later' := later.number
    rw [current] at number
    omega
  rw [later.current same] at current
  exact (backs.clear current unrecorded due late).later later

theorem generation_of_recorded {v : BackupSchedule} {q : PolicyStatus}
    (recorded : v.recorded = some q) : v.status.bind BackupScheduleStatus.policy = some q ∧
      q.generation = v.revision := by
  obtain ⟨stored, same⟩ := Option.filter_eq_some_iff.mp recorded
  exact ⟨stored, of_decide_eq_true same⟩

theorem Server.Sound.since (sound : s.Sound S) {v : BackupSchedule} (known : s.Knows v)
    {q : PolicyStatus} (recorded : v.recorded = some q) :
    (v.revision, q.effectiveSince) ∈ s.observed := by
  obtain ⟨stored, same⟩ := generation_of_recorded recorded
  rw [← same]
  exact sound.recorded v known q stored

theorem Server.Backs.base {pass : Pass} (backs : s.Backs S pass) {base : BackupSchedule}
    (read : Base pass.start.1 pass.log base) :
    s.Knows base ∧ base.revision = pass.start.1.revision := by
  rcases read with rfl | ⟨patch, number, landed⟩
  · exact ⟨backs.knows, rfl⟩
  · obtain ⟨knows, revision, -⟩ := backs.told _ landed number patch base rfl
    exact ⟨knows, revision⟩

theorem Server.Backs.records {pass : Pass} (sound : s.Sound S) (backs : s.Backs S pass)
    {number : Nat} {patch : StatusPatch}
    (writes : Writes S pass.start.1 pass.start.2 pass.log number patch) {p : PolicyStatus}
    (sent : patch.policy = some p) : (p.generation, p.effectiveSince) ∈ s.observed := by
  obtain ⟨base, read, -, records⟩ := writes.records
  obtain ⟨generation, since⟩ := records p sent
  obtain ⟨knows, revision⟩ := backs.base read
  rw [generation]
  rcases since with now | ⟨q, recorded, same⟩
  · rw [now, revision]
    exact backs.observed
  · rw [← same]
    exact sound.since knows recorded

theorem Server.Backs.reserves {pass : Pass} (sound : s.Sound S) (backs : s.Backs S pass)
    {number : Nat} {patch : StatusPatch}
    (writes : Writes S pass.start.1 pass.start.2 pass.log number patch) {p : PendingRun}
    (sent : patch.pendingRun = some (some p)) (accepted : number = s.current.resourceVersion)
    (caught : p.kind = TriggerKind.catchUp.kindName) {due : Instant}
    (here : S.slotInstant p.slot = some due) : s.ObservedBy s.current.revision due := by
  have current : pass.start.1 = s.current :=
    sound.current backs.knows ((writes.reads p sent).1.symm.trans accepted)
  obtain ⟨late, since⟩ := writes.late p sent caught due here
  rw [← current]
  cases recorded : pass.start.1.recorded with
  | none => exact backs.clear current recorded due late
  | some q => exact ⟨q.effectiveSince, sound.since backs.knows recorded, since q recorded⟩

theorem Server.Sound.patched {pass : Pass} (sound : s.Sound S) (backs : s.Backs S pass)
    {number : Nat} {patch : StatusPatch}
    (writes : Writes S pass.start.1 pass.start.2 pass.log number patch)
    (accepted : number = s.current.resourceVersion) : (s.patched crd patch).Sound S := by
  have later := @Server.later_patched crd s patch
  refine ⟨fun v member => ?_, fun v known p stored => ?_, fun v known p stored => ?_,
    fun revision p member caught due here => ?_⟩
  · rcases List.mem_cons.mp member with rfl | past
    · exact Nat.lt_succ_self _
    · exact Nat.lt_succ_of_lt (sound.older v past)
  · rcases known with rfl | known
    · change (crd.keep (patch.apply (s.current.status.getD {}))).policy = some p at stored
      rcases crd.policy (patch.apply (s.current.status.getD {})) with kept | dropped
      · rw [kept] at stored
        change patch.policy.or (s.current.status.getD {}).policy = some p at stored
        rcases Option.or_eq_some_iff.mp stored with sent | ⟨-, before⟩
        · exact backs.records sound writes sent
        · refine sound.recorded s.current (.inl rfl) p ?_
          cases status : s.current.status with
          | none =>
              rw [status] at before
              cases before
          | some old =>
              rw [status] at before
              exact before
      · rw [dropped] at stored
        cases stored
    · exact sound.recorded v (List.mem_cons.mp known) p stored
  · rcases known with rfl | known
    · change (crd.keep (patch.apply (s.current.status.getD {}))).pendingRun = some p at stored
      rcases crd.pendingRun (patch.apply (s.current.status.getD {})) with kept | dropped
      · rw [kept] at stored
        change patch.pendingRun.getD (s.current.status.getD {}).pendingRun = some p at stored
        cases sent : patch.pendingRun with
        | none =>
            rw [sent] at stored
            have reserved : s.current.reservation = some p := by
              unfold BackupSchedule.reservation
              cases status : s.current.status with
              | none =>
                  rw [status] at stored
                  cases stored
              | some old =>
                  rw [status] at stored
                  exact stored
            exact (sound.reserved s.current (.inl rfl) p reserved).imp fun _ => later.admitted
        | some sent' =>
            rw [sent] at stored
            cases stored
            refine ⟨s.current.revision, ?_⟩
            unfold Server.patched
            rw [sent]
            exact List.mem_cons_self
      · rw [dropped] at stored
        cases stored
    · exact (sound.reserved v (List.mem_cons.mp known) p stored).imp fun _ => later.admitted
  · unfold Server.patched at member
    simp only at member
    split at member
    · rename_i p' sent
      rcases List.mem_cons.mp member with same | before
      · cases same
        exact (backs.reserves sound writes sent accepted caught here).later later
      · exact (sound.admitted revision p before caught due here).later later
    · exact (sound.admitted revision p member caught due here).later later

theorem Server.Backs.revision {pass : Pass} (sound : s.Sound S) (backs : s.Backs S pass)
    {number : Nat} {patch : StatusPatch}
    (writes : Writes S pass.start.1 pass.start.2 pass.log number patch)
    (accepted : number = s.current.resourceVersion) :
    s.current.revision = pass.start.1.revision := by
  obtain ⟨base, read, number', -⟩ := writes.records
  obtain ⟨knows, revision⟩ := backs.base read
  rw [← sound.current knows (number'.symm.trans accepted)]
  exact revision

theorem Server.Sound.serve {pass : Pass} (sound : s.Sound S) (backs : s.Backs S pass)
    (others : (c : Call) → c.Answer) {c : Call} (asks : Asks S pass.start pass.log c) :
    (s.serve crd others c).2.Sound S ∧
      (s.serve crd others c).2.Bears pass.start ⟨c, (s.serve crd others c).1⟩ := by
  cases c with
  | patchStatus number patch =>
      unfold Server.serve
      simp only
      split
      · rename_i accepted
        refine ⟨sound.patched backs asks accepted, fun number' patch' next told => ?_⟩
        cases told
        have revision : s.current.revision = pass.start.1.revision :=
          backs.revision sound asks accepted
        refine ⟨.inl rfl, revision, fun p sent => ⟨s.current.revision, ?_⟩⟩
        unfold Server.patched
        rw [sent]
        exact List.mem_cons_self
      · exact ⟨sound, fun number' patch' next told => by cases told⟩
  | getBackup name => exact ⟨sound, fun _ _ _ told => by cases told⟩
  | listBackups selector token => exact ⟨sound, fun _ _ _ told => by cases told⟩
  | patchBackup name patch => exact ⟨sound, fun _ _ _ told => by cases told⟩
  | postBackup backup => exact ⟨sound, fun _ _ _ told => by cases told⟩

end

structure State.Sound (s : State) : Prop where
  server : s.server.Sound S
  passes : ∀ pass ∈ s.passes, s.server.Backs S pass

section

variable {S} {crd} {s s' : State}

theorem State.Sound.begins (sound : s.Sound S) {version : BackupSchedule} {now : Instant}
    (known : s.server.Knows version) (clear : s.Clear S (.begins version now)) :
    State.Sound S
      { server := { s.server with observed := (version.revision, now) :: s.server.observed }
        passes := s.passes ++ [⟨(version, now), [], reconcileScheduleWithArchiveAt S version now⟩] } := by
  have later : s.server.Later
      { s.server with observed := (version.revision, now) :: s.server.observed } :=
    ⟨id, List.mem_cons_of_mem _, id, Nat.le_refl _, fun _ => rfl⟩
  refine ⟨⟨sound.server.older, fun v here p stored =>
      later.observed (sound.server.recorded v here p stored), sound.server.reserved,
    fun revision p member caught due here =>
      (sound.server.admitted revision p member caught due here).later later⟩, fun pass member => ?_⟩
  rcases List.mem_append.mp member with old | new
  · exact (sound.passes pass old).later sound.server later
  · cases List.mem_singleton.mp new
    exact ⟨known, List.mem_cons_self, reconcile_asks, fun e told => absurd told List.not_mem_nil,
      fun current unrecorded due late => (clear current unrecorded due late).later later⟩

theorem State.Sound.calls (sound : s.Sound S) {i : Nat} {pass : Pass} {c : Call}
    (flying : s.passes[i]? = some pass) (asked : pass.next? = some c)
    (others : (c : Call) → c.Answer) :
    State.Sound S
      { server := (s.server.serve crd others c).2
        passes := s.passes.set i (pass.advance fun c => (s.server.serve crd others c).1) } := by
  have backs := sound.passes pass (List.mem_of_getElem? flying)
  have later := @Server.later_serve crd s.server others c
  obtain ⟨served, bears⟩ :=
    @Server.Sound.serve S crd _ _ sound.server backs others _ (backs.follows.call asked)
  refine ⟨served, fun pass' member => ?_⟩
  rcases List.mem_or_eq_of_mem_set member with old | rfl
  · exact (sound.passes pass' old).later sound.server later
  · have kept := backs.later sound.server later
    refine ⟨?_, ?_, kept.follows.advance, fun e told => ?_, ?_⟩
    · rw [Flight.advance_start]
      exact kept.knows
    · rw [Flight.advance_start]
      exact kept.observed
    · rw [Flight.advance_start]
      rw [Flight.advance_log asked] at told
      rcases List.mem_append.mp told with before | now
      · exact kept.told e before
      · cases List.mem_singleton.mp now
        exact bears
    · rw [Flight.advance_start]
      exact kept.clear

theorem State.Sound.fails (sound : s.Sound S) {i : Nat} {pass : Pass}
    (flying : s.passes[i]? = some pass) (carriedOut : Bool) :
    State.Sound S
      { server := match pass.next? with
          | some (.patchStatus number patch) =>
              if carriedOut ∧ number = s.server.current.resourceVersion then
                s.server.patched crd patch
              else s.server
          | _ => s.server
        passes := s.passes.eraseIdx i } := by
  have backs := sound.passes pass (List.mem_of_getElem? flying)
  have unchanged : State.Sound S ⟨s.server, s.passes.eraseIdx i⟩ :=
    ⟨sound.server, fun pass' member => sound.passes pass' (List.mem_of_mem_eraseIdx member)⟩
  split
  · rename_i number patch asked
    split
    · rename_i carried
      exact ⟨sound.server.patched backs (backs.follows.call asked) carried.2, fun pass' member =>
        (sound.passes pass' (List.mem_of_mem_eraseIdx member)).later sound.server
          (s.server.later_patched patch)⟩
    · exact unchanged
  · exact unchanged

theorem State.Sound.writes (sound : s.Sound S) {next : BackupSchedule}
    (policy : Keeps (s.server.current.status.bind BackupScheduleStatus.policy)
      (next.status.bind BackupScheduleStatus.policy))
    (reservation : Keeps s.server.current.reservation next.reservation) :
    State.Sound S { s with server := s.server.write next } := by
  have later := s.server.later_write next
  refine ⟨⟨fun v member => ?_, fun v known p stored => ?_, fun v known p stored => ?_,
    fun revision p member caught due here =>
      (sound.server.admitted revision p member caught due here).later later⟩,
    fun pass member => (sound.passes pass member).later sound.server later⟩
  · rcases List.mem_cons.mp member with rfl | past
    · exact Nat.lt_succ_self _
    · exact Nat.lt_succ_of_lt (sound.server.older v past)
  · rcases known with rfl | known
    · change next.status.bind BackupScheduleStatus.policy = some p at stored
      rcases policy with kept | dropped
      · exact sound.server.recorded _ (.inl rfl) p (kept.symm.trans stored)
      · rw [dropped] at stored
        cases stored
    · exact sound.server.recorded v (List.mem_cons.mp known) p stored
  · rcases known with rfl | known
    · change next.reservation = some p at stored
      rcases reservation with kept | dropped
      · exact sound.server.reserved _ (.inl rfl) p (kept.symm.trans stored)
      · rw [dropped] at stored
        cases stored
    · exact sound.server.reserved v (List.mem_cons.mp known) p stored

theorem State.Sound.step (sound : s.Sound S) {a : Action} (clear : s.Clear S a)
    (stepped : s.step S crd a = some s') : s'.Sound S := by
  unfold State.step at stepped
  cases a with
  | begins version now =>
      simp only at stepped
      split at stepped
      · rename_i known
        cases stepped
        exact sound.begins known clear
      · cases stepped
  | calls i others =>
      simp only at stepped
      split at stepped
      · cases stepped
      rename_i pass flying
      split at stepped
      · cases stepped
      rename_i c asked
      cases stepped
      exact sound.calls flying asked others
  | fails i carriedOut =>
      simp only at stepped
      split at stepped
      · cases stepped
      rename_i pass flying
      cases stepped
      exact sound.fails flying carriedOut
  | writes next =>
      simp only at stepped
      split at stepped
      · rename_i kept
        cases stepped
        exact sound.writes kept.1 kept.2
      · cases stepped

theorem State.Sound.run : ∀ {actions : List Action} {s : State}, s.Sound S →
    AllClear S crd s actions → Schedule.run S crd s actions = some s' → s'.Sound S
  | [], s, sound, _, ran => by
      cases ran
      exact sound
  | a :: as, s, sound, clear, ran => by
      unfold Schedule.run at ran
      unfold AllClear at clear
      cases stepped : s.step S crd a with
      | none =>
          rw [stepped] at ran
          cases ran
      | some next =>
          rw [stepped] at ran clear
          exact State.Sound.run (sound.step clear.1 stepped) clear.2 ran

theorem sound_created (schedule : BackupSchedule) : (created schedule).Sound S := by
  refine ⟨⟨fun v past => absurd past List.not_mem_nil, fun v known p stored => ?_,
    fun v known p stored => ?_, fun revision p member => absurd member List.not_mem_nil⟩,
    fun pass member => absurd member List.not_mem_nil⟩
  · rcases known with rfl | past
    · cases stored
    · exact absurd past List.not_mem_nil
  · rcases known with rfl | past
    · cases stored
    · exact absurd past List.not_mem_nil

theorem State.Sound.neverPast (sound : s.Sound S) : NeverPast S s := by
  refine ⟨sound.server.admitted, fun pass member backup asked catchesUp => ?_⟩
  have backs := sound.passes pass member
  obtain ⟨p, read, caught, name, slot⟩ := backs.follows.call asked catchesUp
  have admitted : ∃ revision, (revision, p) ∈ s.server.admitted := by
    rcases read with reserved | ⟨patch, next, ⟨number, landed⟩, sent⟩
    · exact sound.server.reserved _ backs.knows p reserved
    · obtain ⟨-, -, admitted⟩ := backs.told _ landed number patch next rfl
      exact admitted p sent
  obtain ⟨revision, admitted⟩ := admitted
  exact ⟨revision, p, admitted, caught, name, slot⟩

end

end Logweir.Schedule
