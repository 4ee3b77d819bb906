import Logweir.Backup.Admission

/-!
# One engine run per backup id

Any number of runs of one backup id over one evidence store and one archive, their calls
in any order.  Over a store that creates an object at most once, the first object that came
to be at the claim's key is the claim of the one run that may start its engine; over a store
that ignores the condition of a create no run passes the claim at all.
-/

set_option autoImplicit false

namespace Logweir.Backup

open Logweir.Json Logweir.Text Logweir.Programs Logweir.Programs.Program
open Logweir.CatalogSync (StoreError OverCap)

inductive StoreKind where
  /-- An object is created only where there is none. -/
  | exclusive
  /-- A create over an object is answered with success, the object being replaced or not. -/
  | ignoring
deriving DecidableEq

structure Request where
  create : Bool
  at_ : Location
  bytes : List UInt8

abbrev Running := Flight Start Call Call.Answer Ending Unit

structure World where
  kind : StoreKind
  /-- Whether the backend knows a conditional create. -/
  conditional : Bool
  evidence : Location → Option (List UInt8)
  sent : List Request
  archive : List Location
  runs : List Running

def stored (evidence : Location → Option (List UInt8)) (at_ : Location) (bytes : List UInt8) :
    Location → Option (List UInt8) :=
  fun there => if there = at_ then some bytes else evidence there

def World.land (w : World) (request : Request) : World :=
  if request.create && w.kind = .exclusive && (w.evidence request.at_).isSome then w
  else { w with evidence := stored w.evidence request.at_ request.bytes }

def below (directory at_ : Location) : Bool := directory.isPrefixOf at_ && directory ≠ at_

def wholeBody : List (Except String (List UInt8)) → Option (List UInt8)
  | [] => some []
  | .error _ :: _ => none
  | .ok chunk :: body => (wholeBody body).map fun rest => chunk ++ rest

/-- The answers a store may give.  An error says nothing; of a create, `landed` says that it
took effect even so. -/
def World.mayAnswer (w : World) (landed : Bool) : (c : Call) → c.Answer → Bool
  | .createObject at_ _, (answer : CreateAnswer) =>
      match answer with
      | .created _ => w.conditional && (w.kind = .ignoring || (w.evidence at_).isNone)
      | .alreadyExists =>
          w.conditional && w.kind = .exclusive && (landed || (w.evidence at_).isSome)
      | .notSupported => !w.conditional
      | .notImplemented => !w.conditional
      | .failed _ _ _ => true
  | .putObject _ _, _ => true
  | .headObject at_, (answer : HeadAnswer) =>
      match answer with
      | .present => (w.evidence at_).isSome
      | _ => true
  | .getEvidence at_, (answer : GetAnswer) =>
      match answer with
      | .object _ body _ => (wholeBody body).all fun bytes => w.evidence at_ = some bytes
      | .missing credential _ => credential || (w.evidence at_).isNone
      | .failed _ => true
  | .listArchive under, (answer : Except String (List Location)) =>
      match answer with
      | .ok listed =>
          (listed.all fun at_ => at_ ∈ w.archive && below under at_) &&
            w.archive.all fun at_ => !below under at_ || at_ ∈ listed
      | .error _ => true
  | .getArchive at_, (answer : GetAnswer) =>
      match answer with
      | .object _ _ _ => at_ ∈ w.archive
      | .missing credential _ => credential || at_ ∉ w.archive
      | .failed _ => true

def World.after (w : World) (landed : Bool) : (c : Call) → c.Answer → World
  | .createObject at_ bytes, (answer : CreateAnswer) =>
      let request : Request := ⟨true, at_, bytes⟩
      let w := { w with sent := w.sent ++ [request] }
      match answer with
      | .created _ => if w.kind = .exclusive || landed then w.land request else w
      | _ => if landed then w.land request else w
  | .putObject at_ bytes, (answer : PutAnswer) =>
      let request : Request := ⟨false, at_, bytes⟩
      let w := { w with sent := w.sent ++ [request] }
      match answer with
      | .stored _ => w.land request
      | .failed _ => if landed then w.land request else w
  | _, _ => w

inductive Action where
  /-- A run begins, under an id no run before it had. -/
  | begins (start : Start)
  /-- The call a run makes next is answered. -/
  | answers (run : Nat) (serve : (c : Call) → c.Answer) (landed : Bool)
  /-- A write that was sent takes effect, late. -/
  | lands (request : Nat)
  /-- Someone writes to the archive or removes from it. -/
  | archives (archive : List Location)

variable (E : External) (backupId storagePrefix : String)

def World.step (w : World) : Action → Option World
  | .begins start =>
      if w.runs.all fun f => f.start.runId ≠ start.runId then
        some { w with runs := w.runs ++ [⟨start, [], admitEngine E backupId storagePrefix start⟩] }
      else none
  | .answers i serve landed =>
      match w.runs[i]? with
      | none => none
      | some f =>
          match f.next? with
          | none => none
          | some c =>
              if w.mayAnswer landed c (serve c) then
                some { w.after landed c (serve c) with runs := w.runs.set i (f.advance serve) }
              else none
  | .lands n =>
      match w.sent[n]? with
      | none => none
      | some request => some (w.land request)
  | .archives archive => some { w with archive }

def World.run (w : World) : List Action → Option World
  | [] => some w
  | a :: actions =>
      match w.step E backupId storagePrefix a with
      | none => none
      | some w' => w'.run actions

/-- Before the first run of the backup id. -/
structure World.Fresh (w : World) : Prop where
  runs : w.runs = []
  sent : w.sent = []
  unclaimed : w.evidence (E.location (claimKey backupId)) = none

def Call.readsArchive : Call → Bool
  | .listArchive _ => true
  | .getArchive _ => true
  | _ => false

/-- A run is past `claim_execution`: it reads the archive, or it is done. -/
def PastClaim (f : Running) : Prop :=
  (∃ e ∈ f.log, e.call.readsArchive = true) ∨ (∃ c, f.next? = some c ∧ c.readsArchive = true) ∨
    f.result? = some ()

/-- An object of the backup set: its manifest, or one below its `topics/`. -/
def OfSet (at_ : Location) : Prop :=
  at_ = E.location (manifestKey storagePrefix backupId) ∨
    below (E.location (segmentsKey storagePrefix backupId)) at_ = true

section

variable {E backupId storagePrefix}

theorem runId_of_claimBytes {runId runId' : String} {claimedAt claimedAt' : Int}
    (same : claimBytes E backupId runId claimedAt = claimBytes E backupId runId' claimedAt') :
    runId = runId' := by
  have text := utf8_injective same
  simp only [claimDocument, pretty, prettyMembers, List.append_assoc, List.cons_append,
    List.cons.injEq, true_and, List.append_cancel_left_eq, List.isEmpty_cons,
    Bool.false_eq_true, if_false, List.nil_append] at text
  exact (quote_inj text).1

/-- The answers to a create that only one kind of store gives. -/
def Constant (kind : StoreKind) (conditional : Bool) (e : Told) : Prop :=
  (Refuses e → kind = .exclusive) ∧ (Unsupported e → conditional = false) ∧
    ∀ at_ bytes version, e = ⟨.createObject at_ bytes, CreateAnswer.created version⟩ →
      conditional = true

variable (E backupId storagePrefix)

/-- A run follows `admitEngine`: each call of its log was justified when it was made. -/
structure Runs (kind : StoreKind) (conditional : Bool) (f : Running) : Prop where
  follows : f.Follows (Start.Asks E backupId storagePrefix)
    fun start log _ => start.Free E backupId storagePrefix log
  asked : ∀ e ∈ f.log, ∃ log, log <+: f.log ∧ f.start.Asks E backupId storagePrefix log e.call
  constant : ∀ e ∈ f.log, Constant kind conditional e

variable {E backupId storagePrefix}

theorem runs_begin (kind : StoreKind) (conditional : Bool) (start : Start) :
    Runs E backupId storagePrefix kind conditional
      ⟨start, [], admitEngine E backupId storagePrefix start⟩ where
  follows := admitEngine_meets E backupId storagePrefix start
  asked := fun _ none => nomatch none
  constant := fun _ none => nomatch none

theorem constant_of_mayAnswer {w : World} {landed : Bool} {c : Call} {answer : c.Answer}
    (may : w.mayAnswer landed c answer = true) : Constant w.kind w.conditional ⟨c, answer⟩ := by
  refine ⟨fun refuses => ?_, fun lacks => ?_, fun at_ bytes version same => ?_⟩
  · cases refuses with
    | create at_ bytes =>
        simp only [World.mayAnswer, Bool.and_eq_true, decide_eq_true_eq] at may
        exact may.1.2
  · cases lacks with
    | notSupported at_ bytes => simpa [World.mayAnswer] using may
    | notImplemented at_ bytes => simpa [World.mayAnswer] using may
  · cases same
    simp only [World.mayAnswer, Bool.and_eq_true] at may
    exact may.1

theorem Runs.advance {kind : StoreKind} {conditional : Bool} {f : Running} {c : Call}
    {serve : (c : Call) → c.Answer} (runs : Runs E backupId storagePrefix kind conditional f)
    (asked : f.next? = some c) (told : Constant kind conditional ⟨c, serve c⟩) :
    Runs E backupId storagePrefix kind conditional (f.advance serve) where
  follows := runs.follows.advance
  asked := by
    rw [Flight.advance_log asked, Flight.advance_start]
    intro e mem
    rcases List.mem_append.mp mem with old | new
    · obtain ⟨log, earlier, justified⟩ := runs.asked e old
      exact ⟨log, earlier.trans (List.prefix_append _ _), justified⟩
    · rw [List.mem_singleton.mp new]
      exact ⟨f.log, List.prefix_append _ _, runs.follows.call asked⟩
  constant := by
    rw [Flight.advance_log asked]
    intro e mem
    rcases List.mem_append.mp mem with old | new
    · exact runs.constant e old
    · rw [List.mem_singleton.mp new]
      exact told

theorem Runs.claimed {kind : StoreKind} {conditional : Bool} {f : Running}
    (runs : Runs E backupId storagePrefix kind conditional f) (past : PastClaim f) :
    ∃ log, log <+: f.log ∧
      Claimed (E.location (claimKey backupId)) (f.start.own E backupId) log := by
  have justified {log : List Told} {c : Call} (reads : c.readsArchive = true)
      (asks : f.start.Asks E backupId storagePrefix log c) :
      Claimed (E.location (claimKey backupId)) (f.start.own E backupId) log := by
    cases c with
    | listArchive under => exact asks.2
    | getArchive at_ => exact asks.2
    | _ => cases reads
  rcases past with ⟨e, mem, reads⟩ | ⟨c, asked, reads⟩ | ended
  · obtain ⟨log, earlier, asks⟩ := runs.asked e mem
    exact ⟨log, earlier, justified reads asks⟩
  · exact ⟨f.log, List.prefix_rfl, justified reads (runs.follows.call asked)⟩
  · have free := runs.follows.ends (Flight.rest_of_result? ended)
    exact ⟨f.log, List.prefix_rfl, free.toClaimed⟩

end

section

variable {E backupId storagePrefix} {w w' : World} {a : Action}

@[simp] theorem land_kind (w : World) (r : Request) : (w.land r).kind = w.kind := by
  unfold World.land
  split <;> rfl

@[simp] theorem land_conditional (w : World) (r : Request) :
    (w.land r).conditional = w.conditional := by
  unfold World.land
  split <;> rfl

@[simp] theorem land_runs (w : World) (r : Request) : (w.land r).runs = w.runs := by
  unfold World.land
  split <;> rfl

@[simp] theorem land_sent (w : World) (r : Request) : (w.land r).sent = w.sent := by
  unfold World.land
  split <;> rfl

@[simp] theorem land_archive (w : World) (r : Request) : (w.land r).archive = w.archive := by
  unfold World.land
  split <;> rfl

theorem step_cases (stepped : w.step E backupId storagePrefix a = some w') :
    (∃ start, a = .begins start ∧ (∀ f ∈ w.runs, f.start.runId ≠ start.runId) ∧
      w' = { w with runs := w.runs ++ [⟨start, [], admitEngine E backupId storagePrefix start⟩] }) ∨
    (∃ i serve landed f c, a = .answers i serve landed ∧ w.runs[i]? = some f ∧ f.next? = some c ∧
      w.mayAnswer landed c (serve c) = true ∧
      w' = { w.after landed c (serve c) with runs := w.runs.set i (f.advance serve) }) ∨
    (∃ n request, a = .lands n ∧ w.sent[n]? = some request ∧ w' = w.land request) ∨
    (∃ archive, a = .archives archive ∧ w' = { w with archive }) := by
  cases a with
  | begins start =>
      simp only [World.step] at stepped
      split at stepped
      · next new =>
          refine .inl ⟨start, rfl, fun f mem => ?_, (Option.some.inj stepped).symm⟩
          exact of_decide_eq_true (List.all_eq_true.mp new f mem)
      · cases stepped
  | answers i serve landed =>
      simp only [World.step] at stepped
      split at stepped
      · cases stepped
      · next f found =>
          split at stepped
          · cases stepped
          · next c asked =>
              split at stepped
              · next may =>
                  exact .inr (.inl ⟨i, serve, landed, f, c, rfl, found, asked, may,
                    (Option.some.inj stepped).symm⟩)
              · cases stepped
  | lands n =>
      simp only [World.step] at stepped
      split at stepped
      · cases stepped
      · next request found =>
          exact .inr (.inr (.inl ⟨n, request, rfl, found, (Option.some.inj stepped).symm⟩))
  | archives archive =>
      exact .inr (.inr (.inr ⟨archive, rfl, (Option.some.inj stepped).symm⟩))

theorem after_same (w : World) (landed : Bool) (c : Call) (answer : c.Answer) :
    (w.after landed c answer).kind = w.kind ∧
      (w.after landed c answer).conditional = w.conditional ∧
      (w.after landed c answer).archive = w.archive := by
  cases c with
  | createObject at_ bytes => cases answer <;> simp only [World.after] <;> split <;> simp
  | putObject at_ bytes =>
      cases answer with
      | stored version => simp [World.after]
      | failed text => simp only [World.after]; split <;> simp
  | _ => exact ⟨rfl, rfl, rfl⟩

/-- Every run of a world follows `admitEngine`. -/
def World.Kept (E : External) (backupId storagePrefix : String) (w : World) : Prop :=
  ∀ f ∈ w.runs, Runs E backupId storagePrefix w.kind w.conditional f

theorem kept_step (kept : w.Kept E backupId storagePrefix)
    (stepped : w.step E backupId storagePrefix a = some w') :
    w'.Kept E backupId storagePrefix ∧ w'.kind = w.kind ∧ w.runs.length ≤ w'.runs.length := by
  rcases step_cases stepped with ⟨start, -, -, rfl⟩ | ⟨i, serve, landed, f, c, -, found, asked, may, rfl⟩ |
    ⟨n, request, -, -, rfl⟩ | ⟨archive, -, rfl⟩
  · refine ⟨fun g mem => ?_, rfl, by simp⟩
    rcases List.mem_append.mp mem with old | new
    · exact kept g old
    · rw [List.mem_singleton.mp new]
      exact runs_begin _ _ start
  · obtain ⟨kind, conditional, -⟩ := after_same w landed c (serve c)
    refine ⟨fun g mem => ?_, kind, by simp⟩
    simp only [kind, conditional]
    rcases List.mem_or_eq_of_mem_set mem with old | rfl
    · exact kept g old
    · exact (kept f (List.mem_of_getElem? found)).advance asked (constant_of_mayAnswer may)
  · refine ⟨fun g mem => ?_, land_kind w request, by simp⟩
    simp only [land_kind, land_conditional]
    rw [land_runs] at mem
    exact kept g mem
  · exact ⟨kept, rfl, Nat.le_refl _⟩

theorem kept_run : ∀ {actions : List Action} {w : World}, w.Kept E backupId storagePrefix →
    w.run E backupId storagePrefix actions = some w' →
      w'.Kept E backupId storagePrefix ∧ w'.kind = w.kind := by
  intro actions
  induction actions with
  | nil =>
      intro w kept ran
      cases ran
      exact ⟨kept, rfl⟩
  | cons a actions ih =>
      intro w kept ran
      unfold World.run at ran
      split at ran
      · cases ran
      · next w₁ stepped =>
          obtain ⟨kept₁, kind, -⟩ := kept_step kept stepped
          obtain ⟨kept', kind'⟩ := ih kept₁ ran
          exact ⟨kept', kind'.trans kind⟩

theorem World.Fresh.kept (fresh : w.Fresh E backupId) : w.Kept E backupId storagePrefix := by
  intro f mem
  rw [fresh.runs] at mem
  cases mem

theorem not_pastClaim (kept : w.Kept E backupId storagePrefix) (ignoring : w.kind = .ignoring)
    {f : Running} (mem : f ∈ w.runs) : ¬ PastClaim f := by
  intro past
  have runs := kept f mem
  obtain ⟨log, earlier, claimed⟩ := runs.claimed past
  have constant {e : Told} (told : e ∈ log) := runs.constant e (earlier.subset told)
  rcases claimed.probed with ⟨e, told, refuses⟩ | ⟨⟨e, told, lacks⟩, version, created⟩
  · have exclusive := (constant told).1 refuses
    rw [ignoring] at exclusive
    cases exclusive
  · have without := (constant told).2.1 lacks
    have with_ := (constant created).2.2 _ _ version rfl
    rw [without] at with_
    cases with_

end

section

variable {E backupId storagePrefix} {w w' : World} {a : Action} {held : Location} {n : Nat}

/-- What no run has been told while `held` was there. -/
def Unseen (E : External) (backupId storagePrefix : String) (held : Location) (e : Told) : Prop :=
  (below (E.location (segmentsKey storagePrefix backupId)) held = true →
    e ≠ ⟨.listArchive (E.location (segmentsKey storagePrefix backupId)), Except.ok []⟩) ∧
  (held = E.location (manifestKey storagePrefix backupId) → ∀ text,
    e ≠ ⟨.getArchive (E.location (manifestKey storagePrefix backupId)),
      GetAnswer.missing false text⟩)

theorem unseen_of_mayAnswer {landed : Bool} {c : Call} {answer : c.Answer}
    (there : held ∈ w.archive) (may : w.mayAnswer landed c answer = true) :
    Unseen E backupId storagePrefix held ⟨c, answer⟩ := by
  refine ⟨fun inside same => ?_, fun is text same => ?_⟩
  · cases same
    simp only [World.mayAnswer, Bool.and_eq_true, List.all_eq_true] at may
    have := may.2 held there
    rw [inside] at this
    simp at this
  · cases same
    simp only [World.mayAnswer, Bool.false_or, decide_eq_true_eq] at may
    exact may (is ▸ there)

/-- The runs from the `n`th on have not been told that the set is not there. -/
def World.Hidden (E : External) (backupId storagePrefix : String) (held : Location) (n : Nat)
    (w : World) : Prop :=
  held ∈ w.archive ∧ ∀ i f, n ≤ i → w.runs[i]? = some f →
    ∀ e ∈ f.log, Unseen E backupId storagePrefix held e

theorem hidden_step (hidden : w.Hidden E backupId storagePrefix held n)
    (stays : ∀ archive, a = .archives archive → held ∈ archive)
    (stepped : w.step E backupId storagePrefix a = some w') :
    w'.Hidden E backupId storagePrefix held n := by
  obtain ⟨there, unseen⟩ := hidden
  rcases step_cases stepped with ⟨start, -, -, rfl⟩ | ⟨i, serve, landed, f, c, -, found, asked, may, rfl⟩ |
    ⟨k, request, -, -, rfl⟩ | ⟨archive, same, rfl⟩
  · refine ⟨there, fun i f late found => ?_⟩
    rcases Nat.lt_or_ge i w.runs.length with inside | after
    · rw [List.getElem?_append_left inside] at found
      exact unseen i f late found
    · rw [List.getElem?_append_right after, List.getElem?_singleton] at found
      split_ifs at found
      cases found
      exact fun _ none => nomatch none
  · obtain ⟨-, -, archive⟩ := after_same w landed c (serve c)
    refine ⟨archive ▸ there, fun k g late run => ?_⟩
    simp only [List.getElem?_set] at run
    split_ifs at run with here inside
    · cases run
      intro e mem
      rw [Flight.advance_log asked] at mem
      rcases List.mem_append.mp mem with old | new
      · exact unseen i f (here ▸ late) found e old
      · rw [List.mem_singleton.mp new]
        exact unseen_of_mayAnswer there may
    · exact unseen k g late run
  · rw [World.Hidden, land_archive, land_runs]
    exact ⟨there, unseen⟩
  · exact ⟨stays archive same, unseen⟩

theorem hidden_run : ∀ {actions : List Action} {w : World},
    w.Hidden E backupId storagePrefix held n →
      (∀ archive, .archives archive ∈ actions → held ∈ archive) →
        w.run E backupId storagePrefix actions = some w' →
          w'.Hidden E backupId storagePrefix held n := by
  intro actions
  induction actions with
  | nil =>
      intro w hidden _ ran
      cases ran
      exact hidden
  | cons a actions ih =>
      intro w hidden stays ran
      unfold World.run at ran
      split at ran
      · cases ran
      · next w₁ stepped =>
          refine ih (hidden_step hidden (fun archive same => ?_) stepped) (fun archive mem => ?_) ran
          · exact stays archive (same ▸ List.mem_cons_self)
          · exact stays archive (List.mem_cons_of_mem a mem)

end

section

variable {E backupId storagePrefix} {w w' : World} {a : Action} {creator : Option (List UInt8)}

def HasPut (f : Running) : Prop := ∃ e ∈ f.log, ∃ at_ bytes, e.call = .putObject at_ bytes

/-- A run was told that the claim is its own. -/
def Taken (E : External) (backupId : String) (f : Running) : Prop :=
  ∃ e ∈ f.log, Takes (E.location (claimKey backupId)) (f.start.own E backupId) e

/-- A write is a run's own claim, and unconditional only when the run has written so. -/
def World.Sent (E : External) (backupId : String) (w : World) (r : Request) : Prop :=
  r.at_ = E.location (claimKey backupId) ∧
    ∃ f ∈ w.runs, r.bytes = f.start.own E backupId ∧ (r.create = false → HasPut f)

/-- The first object that came to be at the claim's key is `creator`'s; what is there now is it,
or was put there unconditionally. -/
structure World.Sole (E : External) (backupId storagePrefix : String)
    (creator : Option (List UInt8)) (w : World) : Prop where
  kind : w.kind = .exclusive
  kept : w.Kept E backupId storagePrefix
  ids : ∀ (i j : Nat) (f g : Running), w.runs[i]? = some f → w.runs[j]? = some g →
    f.start.runId = g.start.runId → i = j
  sent : ∀ r ∈ w.sent, w.Sent E backupId r
  unclaimed : w.evidence (E.location (claimKey backupId)) = none → creator = none
  content : ∀ bytes, w.evidence (E.location (claimKey backupId)) = some bytes →
    creator = some bytes ∨ ∃ f ∈ w.runs, HasPut f ∧ f.start.own E backupId = bytes
  taken : ∀ f ∈ w.runs, Taken E backupId f →
    creator = some (f.start.own E backupId) ∨ HasPut f

theorem stored_same (evidence : Location → Option (List UInt8)) (at_ : Location)
    (bytes : List UInt8) : stored evidence at_ bytes at_ = some bytes := if_pos rfl

theorem sole_first (sole : w.Sole E backupId storagePrefix creator) {r : Request}
    (own : w.Sent E backupId r)
    (none : w.evidence (E.location (claimKey backupId)) = none) :
    (w.land r).Sole E backupId storagePrefix (some r.bytes) := by
  obtain ⟨there, -⟩ := own
  have lands : w.land r = { w with evidence := stored w.evidence r.at_ r.bytes } := by
    rw [World.land, there, none, if_neg (by simp)]
  rw [lands]
  have now : stored w.evidence r.at_ r.bytes (E.location (claimKey backupId)) = some r.bytes := by
    rw [there]
    exact stored_same _ _ _
  refine ⟨sole.kind, sole.kept, sole.ids, sole.sent, fun empty => ?_, fun bytes some_ => ?_,
    fun f mem taken => ?_⟩
  · exact nomatch now.symm.trans empty
  · exact .inl (now.symm.trans some_)
  · have before := sole.taken f mem taken
    rw [sole.unclaimed none] at before
    exact .inr (before.resolve_left (fun same => nomatch same))

theorem sole_land (sole : w.Sole E backupId storagePrefix creator) {r : Request}
    (own : w.Sent E backupId r) :
    ∃ creator', (w.land r).Sole E backupId storagePrefix creator' := by
  cases create : r.create with
  | true =>
      cases none : w.evidence (E.location (claimKey backupId)) with
      | none => exact ⟨_, sole_first sole own none⟩
      | some bytes =>
          have stays : w.land r = w := by
            rw [World.land, own.1, none, create, sole.kind, if_pos (by simp)]
          rw [stays]
          exact ⟨creator, sole⟩
  | false =>
      obtain ⟨there, f, mem, bytes, put⟩ := own
      have lands : w.land r = { w with evidence := stored w.evidence r.at_ r.bytes } := by
        rw [World.land, create, if_neg (by simp)]
      have now : stored w.evidence r.at_ r.bytes (E.location (claimKey backupId)) =
          some r.bytes := by
        rw [there]
        exact stored_same _ _ _
      rw [lands]
      refine ⟨creator, sole.kind, sole.kept, sole.ids, sole.sent, fun empty => ?_,
        fun found some_ => ?_, sole.taken⟩
      · exact nomatch now.symm.trans empty
      · have same := Option.some.inj (now.symm.trans some_)
        exact .inr ⟨f, mem, put create, bytes.symm.trans same⟩

theorem HasPut.advance {f : Running} {c : Call} {serve : (c : Call) → c.Answer}
    (asked : f.next? = some c) (put : HasPut f) : HasPut (f.advance serve) := by
  obtain ⟨e, mem, wrote⟩ := put
  refine ⟨e, ?_, wrote⟩
  rw [Flight.advance_log asked]
  exact List.mem_append_left _ mem

theorem grown (serve : (c : Call) → c.Answer) {f : Running} {i : Nat} {c : Call}
    (found : w.runs[i]? = some f) (asked : f.next? = some c) {g : Running} (mem : g ∈ w.runs) :
    ∃ g' ∈ w.runs.set i (f.advance serve), g'.start = g.start ∧ (HasPut g → HasPut g') := by
  obtain ⟨j, here⟩ := List.getElem?_of_mem mem
  by_cases same : i = j
  · subst same
    cases found.symm.trans here
    have inside : i < w.runs.length := (List.getElem?_eq_some_iff.mp found).1
    refine ⟨f.advance serve, List.mem_of_getElem? (List.getElem?_set_self inside), ?_,
      HasPut.advance asked⟩
    exact Flight.advance_start
  · refine ⟨g, List.mem_of_getElem? (i := j) ?_, rfl, id⟩
    rw [List.getElem?_set_ne same]
    exact here

theorem World.Sent.grown {f : Running} {i : Nat} {c : Call} {serve : (c : Call) → c.Answer}
    (found : w.runs[i]? = some f) (asked : f.next? = some c) {r : Request}
    (sent : w.Sent E backupId r) :
    { w with runs := w.runs.set i (f.advance serve) }.Sent E backupId r := by
  obtain ⟨there, g, mem, bytes, put⟩ := sent
  obtain ⟨g', mem', start, more⟩ := Backup.grown serve found asked mem
  exact ⟨there, g', mem', start ▸ bytes, fun create => more (put create)⟩

theorem sole_told (serve : (c : Call) → c.Answer) (sole : w.Sole E backupId storagePrefix creator)
    {f : Running} {i : Nat} {c : Call} (found : w.runs[i]? = some f) (asked : f.next? = some c)
    (constant : Constant w.kind w.conditional ⟨c, serve c⟩)
    (takes : Takes (E.location (claimKey backupId)) (f.start.own E backupId) ⟨c, serve c⟩ →
      creator = some (f.start.own E backupId) ∨ HasPut f) :
    { w with runs := w.runs.set i (f.advance serve) }.Sole E backupId storagePrefix creator := by
  have mem := List.mem_of_getElem? found
  refine ⟨sole.kind, fun g told => ?_, fun j k g h here there same => ?_, fun r sent => ?_,
    sole.unclaimed, fun bytes some_ => ?_, fun g told taken => ?_⟩
  · rcases List.mem_or_eq_of_mem_set told with old | rfl
    · exact sole.kept g old
    · exact (sole.kept f mem).advance asked constant
  · have before {j : Nat} {g : Running} (here : (w.runs.set i (f.advance serve))[j]? = some g) :
        ∃ g', w.runs[j]? = some g' ∧ g'.start = g.start := by
      rw [List.getElem?_set] at here
      split_ifs at here with same inside
      · cases here
        exact ⟨f, same ▸ found, Flight.advance_start.symm⟩
      · exact ⟨g, here, rfl⟩
    obtain ⟨g', here', start⟩ := before here
    obtain ⟨h', there', start'⟩ := before there
    exact sole.ids j k g' h' here' there' (by rw [start, start', same])
  · exact (sole.sent r sent).grown found asked
  · rcases sole.content bytes some_ with first | ⟨g, old, put, own⟩
    · exact .inl first
    · obtain ⟨g', mem', start, more⟩ := Backup.grown serve found asked old
      exact .inr ⟨g', mem', more put, start ▸ own⟩
  · rcases List.mem_or_eq_of_mem_set told with old | rfl
    · exact sole.taken g old taken
    · obtain ⟨e, logged, takes'⟩ := taken
      rw [Flight.advance_log asked] at logged
      rw [Flight.advance_start] at takes' ⊢
      have known : creator = some (f.start.own E backupId) ∨ HasPut f := by
        rcases List.mem_append.mp logged with old | new
        · exact sole.taken f mem ⟨e, old, takes'⟩
        · rw [List.mem_singleton.mp new] at takes'
          exact takes takes'
      exact known.imp_right (HasPut.advance asked)

theorem sole_sent (sole : w.Sole E backupId storagePrefix creator) {r : Request}
    (own : w.Sent E backupId r) :
    { w with sent := w.sent ++ [r] }.Sole E backupId storagePrefix creator := by
  refine ⟨sole.kind, sole.kept, sole.ids, fun r' mem => ?_, sole.unclaimed, sole.content,
    sole.taken⟩
  rcases List.mem_append.mp mem with old | new
  · exact sole.sent r' old
  · rw [List.mem_singleton.mp new]
    exact own

theorem land_with_runs (w : World) (runs : List Running) (r : Request) :
    ({ w with runs } : World).land r = { w.land r with runs } := by
  unfold World.land
  split <;> rfl

theorem readBack_sound {landed : Bool} {at_ : Location} {key : String} {cap : Nat}
    {answer : GetAnswer} {bytes : List UInt8} {version : Option String}
    (may : w.mayAnswer landed (.getEvidence at_) answer = true)
    (read : readCapped key cap answer = .ok (bytes, version)) : w.evidence at_ = some bytes := by
  have chunks : ∀ (reported : Nat) (body : List (Except String (List UInt8))) (out got : List UInt8),
      readChunks key cap reported out body = .ok got →
        ∃ rest, wholeBody body = some rest ∧ got = out ++ rest := by
    intro reported body
    induction body with
    | nil =>
        intro out got same
        cases same
        exact ⟨[], rfl, (List.append_nil _).symm⟩
    | cons chunk body ih =>
        intro out got same
        cases chunk with
        | error e => cases same
        | ok chunk =>
            rw [readChunks] at same
            split_ifs at same with above
            obtain ⟨rest, whole, rfl⟩ := ih _ _ same
            exact ⟨chunk ++ rest, by rw [wholeBody, whole, Option.map_some],
              by rw [List.append_assoc]⟩
  cases answer with
  | missing credential text => cases credential <;> cases read
  | failed text => cases read
  | object reported body version' =>
      simp only [readCapped] at read
      split_ifs at read with above
      cases got : readChunks key cap reported [] body with
      | error e => rw [got] at read; cases read
      | ok found =>
          rw [got] at read
          cases read
          obtain ⟨rest, whole, same⟩ := chunks _ _ _ _ got
          simp only [World.mayAnswer, whole, Option.all_some, decide_eq_true_eq] at may
          rw [may, same, List.nil_append]

theorem sole_readBack (sole : w.Sole E backupId storagePrefix creator) {f : Running} {i : Nat}
    (found : w.runs[i]? = some f)
    (there : w.evidence (E.location (claimKey backupId)) = some (f.start.own E backupId)) :
    creator = some (f.start.own E backupId) ∨ HasPut f := by
  rcases sole.content _ there with first | ⟨g, mem, put, own⟩
  · exact .inl first
  · obtain ⟨j, here⟩ := List.getElem?_of_mem mem
    have same := sole.ids j i g f here found (runId_of_claimBytes own)
    subst same
    cases found.symm.trans here
    exact .inr put

theorem sole_told_after {w₁ : World} (sole : w₁.Sole E backupId storagePrefix creator)
    (runs : w₁.runs = w.runs) (kind : w₁.kind = w.kind) (conditional : w₁.conditional = w.conditional)
    {f : Running} {i : Nat} {c : Call} {serve : (c : Call) → c.Answer} (found : w.runs[i]? = some f)
    (asked : f.next? = some c) (constant : Constant w.kind w.conditional ⟨c, serve c⟩)
    (takes : Takes (E.location (claimKey backupId)) (f.start.own E backupId) ⟨c, serve c⟩ →
      creator = some (f.start.own E backupId) ∨ HasPut f) :
    { w₁ with runs := w.runs.set i (f.advance serve) }.Sole E backupId storagePrefix creator := by
  rw [← runs] at found ⊢
  rw [← kind, ← conditional] at constant
  exact sole_told serve sole found asked constant takes

theorem sole_answers (sole : w.Sole E backupId storagePrefix creator) {f : Running} {i : Nat}
    {c : Call} {serve : (c : Call) → c.Answer} {landed : Bool} (found : w.runs[i]? = some f)
    (asked : f.next? = some c) (may : w.mayAnswer landed c (serve c) = true) :
    ∃ creator', { w.after landed c (serve c) with runs := w.runs.set i (f.advance serve) }.Sole
      E backupId storagePrefix creator' := by
  have mem := List.mem_of_getElem? found
  have asks := (sole.kept f mem).follows.call asked
  have constant := constant_of_mayAnswer may
  cases c with
  | createObject at_ bytes =>
      obtain ⟨rfl, rfl⟩ := asks
      let request : Request := ⟨true, E.location (claimKey backupId), f.start.own E backupId⟩
      have own : w.Sent E backupId request := ⟨rfl, f, mem, rfl, fun put => nomatch put⟩
      have sole₁ := sole_sent sole own
      generalize given : serve (.createObject (E.location (claimKey backupId))
        (f.start.own E backupId)) = answer at may
      by_cases created : ∃ version, answer = CreateAnswer.created version
      · obtain ⟨version, rfl⟩ := created
        have none : w.evidence (E.location (claimKey backupId)) = none := by
          simp only [World.mayAnswer, sole.kind, Bool.and_eq_true] at may
          simpa using may.2
        have first := sole_first sole₁ own none
        have after : w.after landed (.createObject (E.location (claimKey backupId))
            (f.start.own E backupId)) (CreateAnswer.created version) =
              ({ w with sent := w.sent ++ [request] } : World).land request := by
          simp only [World.after, sole.kind]
          rfl
        refine ⟨some request.bytes, ?_⟩
        rw [after]
        exact sole_told_after first (land_runs _ _) (land_kind _ _) (land_conditional _ _) found
          asked constant fun _ => .inl rfl
      · have after : w.after landed (.createObject (E.location (claimKey backupId))
            (f.start.own E backupId)) answer =
              if landed then ({ w with sent := w.sent ++ [request] } : World).land request
              else { w with sent := w.sent ++ [request] } := by
          cases answer with
          | created version => exact absurd ⟨version, rfl⟩ created
          | _ => rfl
        have other : ¬ Takes (E.location (claimKey backupId)) (f.start.own E backupId)
            ⟨_, serve (.createObject (E.location (claimKey backupId))
              (f.start.own E backupId))⟩ := by
          rw [given]
          intro takes
          cases takes with
          | created version => exact created ⟨version, rfl⟩
        rw [after]
        cases landed with
        | true =>
            obtain ⟨creator', sole'⟩ := sole_land sole₁ own
            exact ⟨creator', sole_told_after sole' (land_runs _ _) (land_kind _ _)
              (land_conditional _ _) found asked constant fun takes => absurd takes other⟩
        | false =>
            exact ⟨creator, sole_told_after sole₁ rfl rfl rfl found asked constant fun takes =>
              absurd takes other⟩
  | putObject at_ bytes =>
      obtain ⟨rfl, rfl⟩ := asks
      have told := sole_told serve sole found asked constant fun takes => nomatch takes
      let request : Request := ⟨false, E.location (claimKey backupId), f.start.own E backupId⟩
      have own : ({ w with runs := w.runs.set i (f.advance serve) } : World).Sent E backupId
          request := by
        have inside : i < w.runs.length := (List.getElem?_eq_some_iff.mp found).1
        refine ⟨rfl, f.advance serve, List.mem_of_getElem? (List.getElem?_set_self inside), ?_,
          fun _ => ⟨⟨.putObject (E.location (claimKey backupId)) (f.start.own E backupId), serve _⟩,
            ?_, _, _, rfl⟩⟩
        · rw [Flight.advance_start]
        · rw [Flight.advance_log asked]
          exact mem_last _ _
      have sole₁ := sole_sent told own
      obtain ⟨creator', sole'⟩ := sole_land sole₁ own
      generalize given : serve (.putObject (E.location (claimKey backupId))
        (f.start.own E backupId)) = answer
      have after : { w.after landed (.putObject (E.location (claimKey backupId))
          (f.start.own E backupId)) answer with runs := w.runs.set i (f.advance serve) } =
            ({ w with runs := w.runs.set i (f.advance serve), sent := w.sent ++ [request] } :
              World).land request ∨
          { w.after landed (.putObject (E.location (claimKey backupId))
            (f.start.own E backupId)) answer with runs := w.runs.set i (f.advance serve) } =
            ({ w with runs := w.runs.set i (f.advance serve), sent := w.sent ++ [request] } :
              World) := by
        have landing := land_with_runs { w with sent := w.sent ++ [request] }
          (w.runs.set i (f.advance serve)) request
        cases answer with
        | stored version => exact .inl landing.symm
        | failed text =>
            cases landed with
            | true => exact .inl landing.symm
            | false => exact .inr rfl
      rcases after with same | same
      · rw [same]
        exact ⟨creator', sole'⟩
      · rw [same]
        exact ⟨creator, sole₁⟩
  | getEvidence at_ =>
      cases asks
      refine ⟨creator, sole_told _ sole found asked constant fun takes => ?_⟩
      generalize serve (.getEvidence (E.location (claimKey backupId))) = answer at takes may
      cases takes with
      | readBack key answer version same =>
          exact sole_readBack sole found (readBack_sound may same)
  | headObject at_ => exact ⟨creator, sole_told _ sole found asked constant (fun takes => nomatch takes)⟩
  | listArchive under => exact ⟨creator, sole_told _ sole found asked constant (fun takes => nomatch takes)⟩
  | getArchive at_ => exact ⟨creator, sole_told _ sole found asked constant (fun takes => nomatch takes)⟩

theorem sole_step (sole : w.Sole E backupId storagePrefix creator)
    (stepped : w.step E backupId storagePrefix a = some w') :
    ∃ creator', w'.Sole E backupId storagePrefix creator' := by
  have kept := (kept_step sole.kept stepped).1
  rcases step_cases stepped with ⟨start, -, new, rfl⟩ | ⟨i, serve, landed, f, c, -, found, asked, may, rfl⟩ |
    ⟨n, request, -, sent, rfl⟩ | ⟨archive, -, rfl⟩
  · have more {g : Running} (mem : g ∈ w.runs) :
        g ∈ w.runs ++ [⟨start, [], admitEngine E backupId storagePrefix start⟩] :=
      List.mem_append_left _ mem
    refine ⟨creator, sole.kind, kept, fun i j f g here there same => ?_, fun r sent => ?_,
      sole.unclaimed, fun bytes some_ => ?_, fun f mem taken => ?_⟩
    · have split {k : Nat} {h : Running}
          (at_ : (w.runs ++ [⟨start, [], admitEngine E backupId storagePrefix start⟩])[k]? = some h) :
          w.runs[k]? = some h ∨ (k = w.runs.length ∧ h.start = start) := by
        rw [List.getElem?_append] at at_
        split_ifs at at_ with inside
        · exact .inl at_
        · rw [List.getElem?_singleton] at at_
          split_ifs at at_ with last
          cases at_
          exact .inr ⟨by omega, rfl⟩
      rcases split here with old | ⟨rfl, first⟩ <;> rcases split there with old' | ⟨rfl, second⟩
      · exact sole.ids i j f g old old' same
      · rw [second] at same
        exact absurd same (new f (List.mem_of_getElem? old))
      · rw [first] at same
        exact absurd same.symm (new g (List.mem_of_getElem? old'))
      · rfl
    · obtain ⟨there, f, mem, own, put⟩ := sole.sent r sent
      exact ⟨there, f, more mem, own, put⟩
    · rcases sole.content bytes some_ with first | ⟨f, mem, put, own⟩
      · exact .inl first
      · exact .inr ⟨f, more mem, put, own⟩
    · rcases List.mem_append.mp mem with old | last
      · exact sole.taken f old taken
      · rw [List.mem_singleton.mp last] at taken
        obtain ⟨e, none, -⟩ := taken
        cases none
  · exact sole_answers sole found asked may
  · exact sole_land sole (sole.sent request (List.mem_of_getElem? sent))
  · exact ⟨creator, sole.kind, sole.kept, sole.ids, sole.sent, sole.unclaimed, sole.content,
      sole.taken⟩

theorem sole_run : ∀ {actions : List Action} {w : World} {creator : Option (List UInt8)},
    w.Sole E backupId storagePrefix creator → w.run E backupId storagePrefix actions = some w' →
      ∃ creator', w'.Sole E backupId storagePrefix creator' := by
  intro actions
  induction actions with
  | nil =>
      intro w creator sole ran
      cases ran
      exact ⟨creator, sole⟩
  | cons a actions ih =>
      intro w creator sole ran
      unfold World.run at ran
      split at ran
      · cases ran
      · next w₁ stepped =>
          obtain ⟨creator₁, sole₁⟩ := sole_step sole stepped
          exact ih sole₁ ran

theorem World.Fresh.sole (fresh : w.Fresh E backupId) (exclusive : w.kind = .exclusive) :
    w.Sole E backupId storagePrefix none where
  kind := exclusive
  kept := fresh.kept
  ids i j f g here := by rw [fresh.runs] at here; cases here
  sent r mem := by rw [fresh.sent] at mem; cases mem
  unclaimed _ := rfl
  content bytes there := by rw [fresh.unclaimed] at there; cases there
  taken f mem := by rw [fresh.runs] at mem; cases mem

theorem first_of_result (sole : w.Sole E backupId storagePrefix creator) {f : Running}
    (mem : f ∈ w.runs) (ended : f.result? = some ()) : creator = some (f.start.own E backupId) := by
  have free := (sole.kept f mem).follows.ends (Flight.rest_of_result? ended)
  refine (sole.taken f mem free.taken).resolve_right fun put => ?_
  obtain ⟨e, told, at_, bytes, wrote⟩ := put
  have harmless := free.harmless e told
  cases harmless with
  | unsupported lacks => cases lacks <;> cases wrote
  | _ => cases wrote

end

theorem run_append (E : External) (backupId storagePrefix : String) {w₀ w' : World} :
    ∀ {before after : List Action} {w : World},
      w.run E backupId storagePrefix before = some w₀ →
        w.run E backupId storagePrefix (before ++ after) = some w' →
          w₀.run E backupId storagePrefix after = some w' := by
  intro before
  induction before with
  | nil =>
      intro after w reached ran
      cases reached
      exact ran
  | cons a before ih =>
      intro after w reached ran
      simp only [List.cons_append, World.run] at reached ran
      split at reached
      · cases reached
      · next w₁ stepped =>
          rw [stepped] at ran
          exact ih reached ran

theorem no_result_over_set {E : External} {backupId storagePrefix : String} {w : World}
    {held : Location} {n : Nat} (kept : w.Kept E backupId storagePrefix)
    (hidden : w.Hidden E backupId storagePrefix held n)
    (ofSet : OfSet E backupId storagePrefix held) {i : Nat} {f : Running} (late : n ≤ i)
    (here : w.runs[i]? = some f) : f.result? = none := by
  cases ended : f.result? with
  | none => rfl
  | some done =>
      have free := (kept f (List.mem_of_getElem? here)).follows.ends (Flight.rest_of_result? ended)
      have unseen := hidden.2 i f late here
      rcases ofSet with manifest | segment
      · obtain ⟨text, told⟩ := free.absent
        exact absurd rfl ((unseen _ told).2 manifest text)
      · exact absurd rfl ((unseen _ free.listed).1 segment)

/-- At most one run of a backup id gets past the claim and the archive's check to its engine,
and none over a set that is there; none passes the claim over a store that ignores the
condition; and what a run has been told by then holds no error of the store. -/
theorem one_engine_per_backup_id (E : External) (backupId storagePrefix : String)
    {w w' : World} {actions : List Action} (fresh : w.Fresh E backupId)
    (ran : w.run E backupId storagePrefix actions = some w') :
    (w.kind = .exclusive → ∀ (i j : Nat) (f g : Running), w'.runs[i]? = some f →
      w'.runs[j]? = some g → f.result? = some () → g.result? = some () → i = j) ∧
    (∀ before after w₀ held, actions = before ++ after →
      w.run E backupId storagePrefix before = some w₀ → OfSet E backupId storagePrefix held →
      held ∈ w₀.archive → (∀ archive, .archives archive ∈ after → held ∈ archive) →
      ∀ (i : Nat) (f : Running), w₀.runs.length ≤ i → w'.runs[i]? = some f → f.result? = none) ∧
    (w.kind = .ignoring → ∀ f ∈ w'.runs, ¬ PastClaim f) ∧
    ∀ f ∈ w'.runs, f.result? = some () → f.start.Free E backupId storagePrefix f.log := by
  obtain ⟨kept, kind⟩ := kept_run fresh.kept ran
  refine ⟨fun exclusive => ?_, ?_, fun ignoring f mem => ?_, fun f mem ended => ?_⟩
  · obtain ⟨creator, sole⟩ := sole_run (fresh.sole exclusive) ran
    intro i j f g here there first second
    have own := first_of_result sole (List.mem_of_getElem? here) first
    have own' := first_of_result sole (List.mem_of_getElem? there) second
    exact sole.ids i j f g here there (runId_of_claimBytes (Option.some.inj (own.symm.trans own')))
  · intro before after w₀ held whole reached ofSet there stays i f late here
    have hidden : w₀.Hidden E backupId storagePrefix held w₀.runs.length := by
      refine ⟨there, fun k g past found => ?_⟩
      have inside := (List.getElem?_eq_some_iff.mp found).1
      omega
    have rest := run_append E backupId storagePrefix reached (whole ▸ ran)
    exact no_result_over_set kept (hidden_run hidden stays rest) ofSet late here
  · exact not_pastClaim kept (kind.trans ignoring) mem
  · exact (kept f mem).follows.ends (Flight.rest_of_result? ended)

def plainExternal : External where
  part := id
  classifyText _ := .storeErrorUnclassified
  statusIn _ := none
  rfc3339 := toString

def emptyStore : World where
  kind := .exclusive
  conditional := true
  evidence _ := none
  sent := []
  archive := []
  runs := []

def served (create : CreateAnswer) : (c : Call) → c.Answer
  | .createObject _ _ => create
  | .putObject _ _ => PutAnswer.failed "reset"
  | .headObject _ => HeadAnswer.missing
  | .getEvidence _ => GetAnswer.failed "reset"
  | .listArchive _ => Except.ok []
  | .getArchive _ => GetAnswer.missing false "404"

def twoRuns : List Action :=
  [.begins ⟨"01A", 0, ⟨"logweir/", true, false⟩⟩, .begins ⟨"01B", 1, ⟨"logweir/", true, false⟩⟩,
    .answers 0 (served (.created none)) false, .answers 1 (served .alreadyExists) false,
    .answers 0 (served .alreadyExists) false, .answers 0 (served .alreadyExists) false,
    .answers 0 (served .alreadyExists) false]

theorem two_runs_one_engine : ∃ w', emptyStore.run plainExternal "nightly" "archive" twoRuns = some w' ∧
    w'.runs.map Flight.result? = [some (), none] ∧
    ∀ (i j : Nat) (f g : Running), w'.runs[i]? = some f → w'.runs[j]? = some g →
      f.result? = some () → g.result? = some () → i = j := by
  have results : (emptyStore.run plainExternal "nightly" "archive" twoRuns).map
      (fun w' => w'.runs.map Flight.result?) = some [some (), none] := by decide +kernel
  obtain ⟨w', ran, ended⟩ := Option.map_eq_some_iff.mp results
  refine ⟨w', ran, ended, ?_⟩
  exact (one_engine_per_backup_id plainExternal "nightly" "archive" ⟨rfl, rfl, rfl⟩ ran).1 rfl

end Logweir.Backup
