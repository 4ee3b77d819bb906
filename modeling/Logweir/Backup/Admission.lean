import Logweir.Backup.Claim

/-!
# What a run has been told

The calls one backup run makes before its engine, and what the answers say when it goes
on: that the claim came into being as its own, that the store refuses a second create, and
that the set is not there.  No error of the store is among them.
-/

set_option autoImplicit false

namespace Logweir.Backup

open Logweir.Json Logweir.Text Logweir.Programs Logweir.Programs.Program
open Logweir.CatalogSync (StoreError OverCap)

abbrev Told := Event Call Call.Answer

/-- The object at `at_` came into being as `bytes`, or was read back as them. -/
inductive Takes (at_ : Location) (bytes : List UInt8) : Told → Prop where
  | created (version : Option String) :
      Takes at_ bytes ⟨.createObject at_ bytes, CreateAnswer.created version⟩
  | readBack (key : String) (answer : GetAnswer) (version : Option String)
      (same : readCapped key bytes.length answer = .ok (bytes, version)) :
      Takes at_ bytes ⟨.getEvidence at_, answer⟩

/-- The store refused to create over an object. -/
inductive Refuses : Told → Prop where
  | create (at_ : Location) (bytes : List UInt8) :
      Refuses ⟨.createObject at_ bytes, CreateAnswer.alreadyExists⟩

/-- The store has no conditional create. -/
inductive Unsupported : Told → Prop where
  | notSupported (at_ : Location) (bytes : List UInt8) :
      Unsupported ⟨.createObject at_ bytes, CreateAnswer.notSupported⟩
  | notImplemented (at_ : Location) (bytes : List UInt8) :
      Unsupported ⟨.createObject at_ bytes, CreateAnswer.notImplemented⟩

/-- No error of the store, but for a create dropped at once with no answer, which was sent
again; and no unconditional write. -/
inductive Harmless (bytes : List UInt8) : Told → Prop where
  | created (at_ : Location) (sent : List UInt8) (version : Option String) :
      Harmless bytes ⟨.createObject at_ sent, CreateAnswer.created version⟩
  | refused (at_ : Location) (sent : List UInt8) :
      Harmless bytes ⟨.createObject at_ sent, CreateAnswer.alreadyExists⟩
  | unsupported {e : Told} (unsupported : Unsupported e) : Harmless bytes e
  | resent (at_ : Location) (sent : List UInt8) (text : String) :
      Harmless bytes ⟨.createObject at_ sent, CreateAnswer.failed true true text⟩
  | present (at_ : Location) : Harmless bytes ⟨.headObject at_, HeadAnswer.present⟩
  | readBack (at_ : Location) (key : String) (answer : GetAnswer) (found : List UInt8)
      (version : Option String) (read : readCapped key bytes.length answer = .ok (found, version)) :
      Harmless bytes ⟨.getEvidence at_, answer⟩
  | tooLarge (at_ : Location) (key key' : String) (answer : GetAnswer) (cap : Nat)
      (observed : OverCap)
      (read : readCapped key bytes.length answer = .error (.tooLarge key' cap observed)) :
      Harmless bytes ⟨.getEvidence at_, answer⟩
  | listed (under : Location) (keys : List Location) :
      Harmless bytes ⟨.listArchive under, Except.ok keys⟩
  | absent (at_ : Location) (text : String) :
      Harmless bytes ⟨.getArchive at_, GetAnswer.missing false text⟩

def AllHarmless (bytes : List UInt8) (log : List Told) : Prop := ∀ e ∈ log, Harmless bytes e

theorem AllHarmless.add {bytes : List UInt8} {log : List Told} {e : Told}
    (all : AllHarmless bytes log) (one : Harmless bytes e) : AllHarmless bytes (log ++ [e]) := by
  intro e' mem
  rcases List.mem_append.mp mem with old | new
  · exact all e' old
  · rw [List.mem_singleton.mp new]
    exact one

/-- What a run has been told when it is past the claim. -/
structure Claimed (at_ : Location) (bytes : List UInt8) (log : List Told) : Prop where
  harmless : AllHarmless bytes log
  taken : ∃ e ∈ log, Takes at_ bytes e
  probed : (∃ e ∈ log, Refuses e) ∨
    ((∃ e ∈ log, Unsupported e) ∧ ∃ version, ⟨.createObject at_ bytes,
      CreateAnswer.created version⟩ ∈ log)

structure Free (at_ segments manifest : Location) (bytes : List UInt8) (log : List Told) : Prop
    extends Claimed at_ bytes log where
  listed : ⟨.listArchive segments, Except.ok []⟩ ∈ log
  absent : ∃ text, ⟨.getArchive manifest, GetAnswer.missing false text⟩ ∈ log

theorem mem_last {α : Type} (l : List α) (a : α) : a ∈ l ++ [a] :=
  List.mem_append_right l (List.mem_singleton_self a)

theorem Claimed.add {at_ : Location} {bytes : List UInt8} {log : List Told} {e : Told}
    (claimed : Claimed at_ bytes log) (one : Harmless bytes e) : Claimed at_ bytes (log ++ [e]) := by
  have kept {e' : Told} (old : e' ∈ log) : e' ∈ log ++ [e] := List.mem_append_left _ old
  obtain ⟨e', old, takes⟩ := claimed.taken
  refine ⟨claimed.harmless.add one, ⟨e', kept old, takes⟩, ?_⟩
  rcases claimed.probed with ⟨r, refused, refuses⟩ | ⟨⟨u, unsupported, lacks⟩, version, created⟩
  · exact .inl ⟨r, kept refused, refuses⟩
  · exact .inr ⟨⟨u, kept unsupported, lacks⟩, version, kept created⟩

/-- A run puts nothing but its own bytes, and reads the archive once it has its claim. -/
def Asks (at_ segments manifest : Location) (bytes : List UInt8) (log : List Told) : Call → Prop
  | .createObject there sent => there = at_ ∧ sent = bytes
  | .putObject there sent => there = at_ ∧ sent = bytes
  | .headObject _ => True
  | .getEvidence there => there = at_
  | .listArchive under => under = segments ∧ Claimed at_ bytes log
  | .getArchive there => there = manifest ∧ Claimed at_ bytes log

/-- What the result of a put says of its log. -/
def PutMeans (at_ : Location) (bytes : List UInt8) (log : List Told) :
    Except StoreError PutOutcome → Prop
  | .ok put => put.createOnlyEnforced = true → AllHarmless bytes log ∧
      ((∃ version, ⟨.createObject at_ bytes, CreateAnswer.created version⟩ ∈ log) ∨
        ((∃ e ∈ log, Takes at_ bytes e) ∧ ∃ e ∈ log, Refuses e))
  | .error (.alreadyExists _) => AllHarmless bytes log ∧
      ((∃ e ∈ log, Refuses e) ∨ ∃ e ∈ log, Unsupported e)
  | .error _ => True

/-- What the attempts come to: `none` is a store without a conditional create. -/
def AttemptsMean (at_ : Location) (bytes : List UInt8) (log : List Told) :
    Option (Except StoreError PutOutcome) → Prop
  | none => AllHarmless bytes log ∧ ∃ e ∈ log, Unsupported e
  | some put => PutMeans at_ bytes log put

section

variable (E : External) {key : String} {segments manifest : Location} {bytes : List UInt8}
  {log : List Told}

theorem settle_readBack (harmless : AllHarmless bytes log) (refused : ∃ e ∈ log, Refuses e) :
    (settle E key bytes true .alreadyExists).Meets
      (Asks (E.location key) segments manifest bytes) (AttemptsMean (E.location key) bytes) log := by
  refine meets_ask rfl fun (answer : GetAnswer) => ?_
  obtain ⟨e, old, refuses⟩ := refused
  have kept : e ∈ log ++ [⟨Call.getEvidence (E.location key), answer⟩] := List.mem_append_left _ old
  cases read : readCapped key bytes.length answer with
  | ok got =>
      obtain ⟨found, version⟩ := got
      have calm := harmless.add (.readBack (E.location key) key answer found version read)
      by_cases same : found = bytes
      · subst same
        simp only [if_pos]
        exact meets_pure fun _ => ⟨calm, .inr ⟨⟨_, mem_last _ _, .readBack key answer version read⟩,
          e, kept, refuses⟩⟩
      · simp only [if_neg same]
        exact meets_pure ⟨calm, .inl ⟨e, kept, refuses⟩⟩
  | error failure =>
      cases failure with
      | tooLarge key' cap observed =>
          have calm := harmless.add (.tooLarge (E.location key) key key' answer cap observed read)
          exact meets_pure ⟨calm, .inl ⟨e, kept, refuses⟩⟩
      | _ => exact meets_pure trivial

theorem settle_meets {again : Bool} (harmless : AllHarmless bytes log) (answer : CreateAnswer) :
    (settle E key bytes again answer).Meets (Asks (E.location key) segments manifest bytes)
      (AttemptsMean (E.location key) bytes)
      (log ++ [⟨.createObject (E.location key) bytes, answer⟩]) := by
  cases answer with
  | created version =>
      have calm := harmless.add (.created (E.location key) bytes version)
      exact meets_pure fun _ => ⟨calm, .inl ⟨version, mem_last _ _⟩⟩
  | alreadyExists =>
      have calm := harmless.add (.refused (E.location key) bytes)
      have refused : ∃ e ∈ log ++ [⟨.createObject (E.location key) bytes,
          CreateAnswer.alreadyExists⟩], Refuses e := ⟨_, mem_last _ _, .create _ _⟩
      cases again with
      | true => exact settle_readBack E calm refused
      | false => exact meets_pure ⟨calm, .inl refused⟩
  | notSupported =>
      have lacks := Unsupported.notSupported (E.location key) bytes
      exact meets_pure ⟨harmless.add (.unsupported lacks), _, mem_last _ _, lacks⟩
  | notImplemented =>
      have lacks := Unsupported.notImplemented (E.location key) bytes
      exact meets_pure ⟨harmless.add (.unsupported lacks), _, mem_last _ _, lacks⟩
  | failed dropped fast text => exact meets_pure trivial

theorem createAttempts_meets : ∀ (left : Nat) (again : Bool) (log : List Told),
    AllHarmless bytes log → (createAttempts E key bytes left again).Meets
      (Asks (E.location key) segments manifest bytes) (AttemptsMean (E.location key) bytes) log := by
  intro left
  induction left with
  | zero =>
      intro again log harmless
      exact meets_ask ⟨rfl, rfl⟩ fun answer => settle_meets E harmless answer
  | succ left ih =>
      intro again log harmless
      refine meets_ask ⟨rfl, rfl⟩ fun (answer : CreateAnswer) => ?_
      split
      · next text =>
          exact ih true _ (harmless.add (.resent (E.location key) bytes text))
      · exact settle_meets E harmless answer

/-- HEAD-then-PUT never says that the create was enforced. -/
def Unenforced (put : Except StoreError PutOutcome) : Prop :=
  ∀ outcome, put = .ok outcome → outcome.createOnlyEnforced = false

theorem headThenPut_meets {ends : List Told → Except StoreError PutOutcome → Prop}
    (present : ends (log ++ [⟨.headObject (E.location key), HeadAnswer.present⟩])
      (.error (.alreadyExists key)))
    (stored : ∀ log' version, ends log' (.ok ⟨version, false⟩))
    (failed : ∀ log' text, ends log' (.error (.io text))) :
    (headThenPut E key bytes).Meets (Asks (E.location key) segments manifest bytes) ends log := by
  refine meets_ask trivial fun (answer : HeadAnswer) => ?_
  cases answer with
  | present => exact meets_pure present
  | missing =>
      refine meets_ask ⟨rfl, rfl⟩ fun (answer : PutAnswer) => ?_
      cases answer with
      | stored version => exact meets_pure (stored _ version)
      | failed text => exact meets_pure (failed _ text)
  | failed text =>
      refine meets_ask ⟨rfl, rfl⟩ fun (answer : PutAnswer) => ?_
      cases answer with
      | stored version => exact meets_pure (stored _ version)
      | failed text => exact meets_pure (failed _ text)

theorem putCreateOnly_meets {handle : Handle} (conditional : handle.conditionalPut = true)
    (harmless : AllHarmless bytes log) :
    (putCreateOnly E handle key bytes).Meets (Asks (E.location key) segments manifest bytes)
      (PutMeans (E.location key) bytes) log := by
  unfold putCreateOnly
  split_ifs
  · exact meets_pure trivial
  · exact meets_stop
  · exact meets_stop
  · refine meets_bind (createAttempts_meets E EVIDENCE_PUT_RETRIES false log harmless) ?_
    intro log' attempt means
    cases attempt with
    | some put => exact meets_pure means
    | none =>
        obtain ⟨calm, e, old, lacks⟩ := means
        refine headThenPut_meets E ?_ (fun _ _ enforced => nomatch enforced) fun _ _ => trivial
        exact ⟨calm.add (.present _), .inr ⟨e, List.mem_append_left _ old, lacks⟩⟩

theorem putCreateOnly_unenforced {handle : Handle} (conditional : handle.conditionalPut = false) :
    (putCreateOnly E handle key bytes).Meets (Asks (E.location key) segments manifest bytes)
      (fun _ => Unenforced) log := by
  have known {failure : StoreError} : Unenforced (.error failure) := fun _ same => nomatch same
  unfold putCreateOnly
  simp only [conditional, Bool.false_eq_true, if_false]
  split_ifs
  · exact meets_pure known
  · exact meets_stop
  · exact meets_stop
  · refine headThenPut_meets E known (fun _ _ outcome same => ?_) fun _ _ => known
    cases same
    rfl

end

section

variable (E : External) {backupId storagePrefix : String} {bytes : List UInt8} {log : List Told}

theorem takeClaim_meets {segments manifest : Location} {evidence : Handle} :
    (takeClaim E backupId bytes evidence).Meets
      (Asks (E.location (claimKey backupId)) segments manifest bytes)
      (fun log' _ => evidence.conditionalPut = true ∧
        PutMeans (E.location (claimKey backupId)) bytes log' (.ok ⟨none, true⟩)) [] := by
  cases conditional : evidence.conditionalPut with
  | true =>
      refine meets_bind (putCreateOnly_meets E conditional fun _ none => nomatch none) ?_
      intro log' put means
      cases put with
      | ok outcome =>
          cases enforced : outcome.createOnlyEnforced with
          | true =>
              simp only [enforced, if_true]
              exact meets_pure ⟨trivial, fun _ => means enforced⟩
          | false =>
              simp only [enforced, Bool.false_eq_true, if_false]
              exact meets_stop
      | error failure =>
          cases failure <;> exact meets_stop
  | false =>
      refine meets_bind (putCreateOnly_unenforced E conditional) ?_
      intro log' put unenforced
      cases put with
      | ok outcome =>
          simp only [unenforced outcome rfl, Bool.false_eq_true, if_false]
          exact meets_stop
      | error failure =>
          cases failure <;> exact meets_stop

theorem probeClaim_meets {segments manifest : Location} {evidence : Handle}
    (conditional : evidence.conditionalPut = true)
    (took : PutMeans (E.location (claimKey backupId)) bytes log (.ok ⟨none, true⟩)) :
    (probeClaim E backupId bytes evidence).Meets
      (Asks (E.location (claimKey backupId)) segments manifest bytes)
      (fun log' _ => Claimed (E.location (claimKey backupId)) bytes log') log := by
  obtain ⟨harmless, taken⟩ := took rfl
  refine meets_seq (putCreateOnly_meets E conditional harmless) ?_
  intro log' put more means
  cases put with
  | ok outcome => exact meets_stop
  | error failure =>
      cases failure with
      | alreadyExists key =>
          obtain ⟨calm, refused⟩ := means
          refine meets_pure ⟨calm, ?_, ?_⟩
          · rcases taken with ⟨version, created⟩ | ⟨⟨e, old, takes⟩, -⟩
            · exact ⟨_, more.subset created, .created version⟩
            · exact ⟨e, more.subset old, takes⟩
          · rcases refused with refused | lacks
            · exact .inl refused
            · rcases taken with ⟨version, created⟩ | ⟨-, e, old, refuses⟩
              · exact .inr ⟨lacks, version, more.subset created⟩
              · exact .inl ⟨e, more.subset old, refuses⟩
      | _ => exact meets_stop

theorem pageKey_ne_nil {max : Nat} (positive : max ≠ 0) (walk : List String × Bool)
    (key : String) : (pageKey none max walk key).1 ≠ [] := by
  unfold pageKey
  rw [Option.any_none, if_neg Bool.false_ne_true]
  split_ifs with full kept
  · intro empty
    rw [empty] at full
    exact positive full.symm
  · exact List.append_ne_nil_of_right_ne_nil _ (List.cons_ne_nil _ _)
  · exact List.append_ne_nil_of_right_ne_nil _ (List.cons_ne_nil _ _)

theorem listed_of_pageOf {max : Nat} (positive : max ≠ 0) {listed : List Location}
    (empty : (pageOf none max listed).1 = []) : listed = [] := by
  rcases List.eq_nil_or_concat listed with none | ⟨front, last, rfl⟩
  · exact none
  · unfold pageOf at empty
    rw [List.concat_eq_append, List.map_append, List.foldl_append] at empty
    exact absurd empty (pageKey_ne_nil positive _ _)

theorem missing_of_readCapped {key key' : String} {cap : Nat} {answer : GetAnswer}
    (read : readCapped key cap answer = .error (.notFound key')) :
    ∃ text, answer = .missing false text := by
  cases answer with
  | missing credential text =>
      cases credential with
      | true => exact absurd read (by simp [readCapped])
      | false => exact ⟨text, rfl⟩
  | failed text => exact absurd read (by simp [readCapped])
  | object reported body version =>
      have chunks : ∀ (body : List (Except String (List UInt8))) (out : List UInt8),
          readChunks key cap reported out body ≠ .error (.notFound key') := by
        intro body
        induction body with
        | nil => exact fun _ same => nomatch same
        | cons chunk body ih =>
            intro out same
            cases chunk with
            | error e => cases same
            | ok chunk =>
                rw [readChunks] at same
                split_ifs at same with above
                · cases same
                · exact ih _ same
      simp only [readCapped] at read
      split_ifs at read with above
      · cases read
      cases got : readChunks key cap reported [] body with
      | ok bytes => rw [got] at read; cases read
      | error e =>
          rw [got] at read
          cases read
          exact absurd got (chunks body [])

theorem findSegment_meets {at_ manifest : Location}
    (claimed : Claimed at_ bytes log) :
    (findSegment E backupId storagePrefix).Meets
      (Asks at_ (E.location (segmentsKey storagePrefix backupId)) manifest bytes)
      (fun log' found => found = none → Claimed at_ bytes log' ∧
        ⟨.listArchive (E.location (segmentsKey storagePrefix backupId)), Except.ok []⟩ ∈ log')
      log := by
  have grown (keys : List Location) := claimed.add
    (.listed (E.location (segmentsKey storagePrefix backupId)) keys)
  have page : (listPage E (segmentsKey storagePrefix backupId) none 1).Meets
      (Asks at_ (E.location (segmentsKey storagePrefix backupId)) manifest bytes)
      (fun log' page => page = .ok [] → Claimed at_ bytes log' ∧
        ⟨.listArchive (E.location (segmentsKey storagePrefix backupId)), Except.ok []⟩ ∈ log')
      log := by
    refine meets_ask ⟨rfl, claimed⟩ fun (answer : Except String (List Location)) => ?_
    cases answer with
    | error text => exact meets_pure fun same => nomatch same
    | ok listed =>
        refine meets_pure fun empty => ?_
        cases listed_of_pageOf one_ne_zero (Except.ok.inj empty)
        exact ⟨grown [], mem_last _ _⟩
  refine meets_bind page ?_
  intro log' page means
  cases page with
  | error e => exact meets_stop
  | ok keys =>
      refine meets_pure fun none => means ?_
      rw [List.head?_eq_none_iff.mp none]

theorem findManifest_meets {at_ segments : Location} (claimed : Claimed at_ bytes log) :
    (findManifest E backupId storagePrefix).Meets
      (Asks at_ segments (E.location (manifestKey storagePrefix backupId)) bytes)
      (fun log' found => found = none → Claimed at_ bytes log' ∧
        ∃ text, ⟨.getArchive (E.location (manifestKey storagePrefix backupId)),
          GetAnswer.missing false text⟩ ∈ log') log := by
  have probed : (getCapped E (manifestKey storagePrefix backupId) PROBE).Meets
      (Asks at_ segments (E.location (manifestKey storagePrefix backupId)) bytes)
      (fun log' read => ∀ key, read = .error (.notFound key) → Claimed at_ bytes log' ∧
        ∃ text, ⟨.getArchive (E.location (manifestKey storagePrefix backupId)),
          GetAnswer.missing false text⟩ ∈ log') log := by
    refine meets_ask ⟨rfl, claimed⟩ fun (answer : GetAnswer) => meets_pure ?_
    intro key read
    obtain ⟨text, rfl⟩ := missing_of_readCapped read
    exact ⟨claimed.add (.absent _ text), text, mem_last _ _⟩
  refine meets_bind probed fun log' read means => ?_
  cases read with
  | ok got => exact meets_pure fun none => nomatch none
  | error e =>
      cases e with
      | notFound key => exact meets_pure fun _ => means key rfl
      | tooLarge key cap observed => exact meets_pure fun none => nomatch none
      | _ => exact meets_stop

theorem refuseAnExistingSet_meets {at_ : Location} (claimed : Claimed at_ bytes log) :
    (refuseAnExistingSet E backupId storagePrefix).Meets
      (Asks at_ (E.location (segmentsKey storagePrefix backupId))
        (E.location (manifestKey storagePrefix backupId)) bytes)
      (fun log' _ => Free at_ (E.location (segmentsKey storagePrefix backupId))
        (E.location (manifestKey storagePrefix backupId)) bytes log') log := by
  refine meets_bind (findSegment_meets E claimed) ?_
  intro log' found segments
  cases found with
  | some segment => exact meets_stop
  | none =>
      obtain ⟨claimed', listed⟩ := segments rfl
      refine meets_seq (findManifest_meets E claimed') ?_
      intro log'' found more absent
      cases found with
      | some manifest => exact meets_stop
      | none =>
          obtain ⟨free, text, missing⟩ := absent rfl
          exact meets_pure ⟨free, more.subset listed, text, missing⟩

variable (backupId storagePrefix)

def Start.own (start : Start) : List UInt8 := claimBytes E backupId start.runId start.claimedAt

/-- What a run may ask, from what it has been told. -/
def Start.Asks (start : Start) : List Told → Call → Prop :=
  Backup.Asks (E.location (claimKey backupId)) (E.location (segmentsKey storagePrefix backupId))
    (E.location (manifestKey storagePrefix backupId)) (start.own E backupId)

/-- What a run has been told when it starts its engine. -/
def Start.Free (start : Start) : List Told → Prop :=
  Backup.Free (E.location (claimKey backupId)) (E.location (segmentsKey storagePrefix backupId))
    (E.location (manifestKey storagePrefix backupId)) (start.own E backupId)

theorem admitEngine_meets (start : Start) :
    (admitEngine E backupId storagePrefix start).Meets (start.Asks E backupId storagePrefix)
      (fun log' _ => start.Free E backupId storagePrefix log') [] := by
  have claims : (claimExecution E backupId start.runId start.claimedAt start.evidence).Meets
      (start.Asks E backupId storagePrefix)
      (fun log' _ => Claimed (E.location (claimKey backupId)) (start.own E backupId) log') [] := by
    refine meets_bind (takeClaim_meets E) fun log' _ took => ?_
    refine meets_bind (probeClaim_meets E took.1 took.2) fun log'' _ claimed => ?_
    exact meets_pure claimed
  exact meets_bind claims fun log' _ claimed => refuseAnExistingSet_meets E claimed

end

end Logweir.Backup
