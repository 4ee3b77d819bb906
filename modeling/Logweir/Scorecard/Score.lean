import Logweir.Scorecard.Document

/-!
# Scoring

`drill::phase8_score` and the parts of `drill` that fill a scorecard before it: the measured
times, the outcome against the objectives, the matrix verdict, and `scored`, the document that a
restore signs.
-/

set_option autoImplicit false

namespace Logweir.Scored

open Logweir.Drill (TargetMode)
open Logweir.Sampled (Doubles Integrity IntegrityLevel IntegrityResult SampleSelection rollUp)
open Logweir.Complete (SelectionVerdict)
open Logweir.Text (trim hexEncode)
open Logweir.Fingerprint (Digest)

structure Timeline where
  requestedAt : Int
  approvalValidatedAt : Int
  restoreStartedAt : Int
  restoreFinishedAt : Int
  phase5DurationMs : Nat
  verifiedAt : Int

structure ObjectivesSpec (D : Doubles) where
  rtoSeconds : Option Nat
  rpoSeconds : Option Int
  passRate : Option D.Double

def secs (a b : Int) : Nat := ((b - a).tdiv 1000000000).toNat

/-- `compute_measured`. -/
def computeMeasured (t : Timeline) (requestedPointInTimeMs newestRestoredRecordTsMs : Int) :
    Measured :=
  let rto := secs t.approvalValidatedAt t.verifiedAt
  { rtoSeconds := some rto
    rtoRequestedToVerifiedSeconds := some (secs t.requestedAt t.verifiedAt)
    rtoRestoreOnlySeconds := some (secs t.restoreStartedAt t.restoreFinishedAt)
    rtoExcludingPreflightSeconds := some (rto - t.phase5DurationMs / 1000)
    rpoSeconds :=
      some (max ((requestedPointInTimeMs - newestRestoredRecordTsMs).tdiv 1000) 0)
    rpoSourceRelativeSeconds := none
    rpoSourceRelativeUnmeasuredReason := some "source cluster never contacted" }

variable {D : Doubles}

def within {α : Type} (le : α → α → Bool) (want got : Option α) : Option Bool :=
  want.map fun want => got.any fun got => le got want

def rtoOk (m : Measured) (spec : ObjectivesSpec D) : Option Bool :=
  within (fun got want => decide (got ≤ want)) spec.rtoSeconds m.rtoExcludingPreflightSeconds

def rpoOk (m : Measured) (spec : ObjectivesSpec D) : Option Bool :=
  within (fun got want => decide (got ≤ want)) spec.rpoSeconds m.rpoSeconds

def rateOk (spec : ObjectivesSpec D) (passRate : Option D.Double) : Option Bool :=
  spec.passRate.bind fun want => passRate.map fun got => D.reaches got want

/-- Whether the objectives are met; unanswered where nothing was requested or the rate was not
measured. -/
def metOf (m : Measured) (spec : ObjectivesSpec D) (passRate : Option D.Double) : Option Bool :=
  if spec.passRate.isSome ∧ passRate.isNone then none
  else
    let answered := [rtoOk m spec, rpoOk m spec, rateOk spec passRate].filterMap fun ok => ok
    if answered = [] then none else some (answered.all fun ok => ok)

def decideOutcome (m : Measured) (spec : ObjectivesSpec D) (integ : Integrity D) :
    Outcome × Objectives D :=
  let met := metOf m spec integ.passRateMeasured
  (if integ.result ≠ .pass then .failIntegrity
    else if met = some false then .failObjective
    else .pass,
    { rtoSeconds := spec.rtoSeconds
      rpoSeconds := spec.rpoSeconds
      passRate := spec.passRate
      met })

def matrixVerdictFor (outcome : Outcome) (level : IntegrityLevel) (observed : MatrixVerdict) :
    MatrixVerdict × Option String :=
  if observed ≠ .pass then (observed, none)
  else
    match outcome, level with
    | .pass, .byteFingerprint => (.pass, none)
    | .pass, _ => (.passDegraded, none)
    | other, _ => (.fail, some ("the drill ran and did not pass: outcome " ++ other.wireName))

def observedVerdict (leverHonoured : Bool) : MatrixVerdict :=
  if leverHonoured then .pass else .failLeverNotHonoured

structure Selection where
  window : Int × Int
  topics : Nat
  partitions : Nat
  perPartition : List SampleSelection

def sampleInfo (sel : Selection) (recordsRestored : Nat) : SampleInfo where
  windowStart := sel.window.1
  windowEnd := sel.window.2
  topics := sel.topics
  partitions := sel.partitions
  recordsExpected := (sel.perPartition.map fun s => s.count).sum
  recordsRestored := recordsRestored

inductive TargetAuth where
  | plaintext
  | scramSha512
  | scramSha256
  | plain
  | mtls
deriving DecidableEq

def formatVersion : String := "1.4.0"

def formatVersionWithAuthModes : String := "1.5.0"

def formatVersionWithUnsampledTopics : String := "1.6.0"

def TargetAuth.isProd013 : TargetAuth → Bool
  | .scramSha256 | .plain | .mtls => true
  | .plaintext | .scramSha512 => false

def formatVersionForTarget (auth : TargetAuth) : String :=
  if auth.isProd013 then formatVersionWithAuthModes else formatVersion

def newerFormatVersion (a b : String) : String :=
  match majorVersion a, minorVersion a, majorVersion b, minorVersion b with
  | some a₁, some a₂, some b₁, some b₂ => if a₁ < b₁ ∨ a₁ = b₁ ∧ a₂ < b₂ then b else a
  | _, _, _, _ => a

def formatVersionWithSample (current : String) : String :=
  newerFormatVersion current formatVersionWithUnsampledTopics

structure Drill (D : Doubles) where
  runId : String
  auth : TargetAuth
  mode : TargetMode
  /-- Phase 0 verified that this topic exists, so its name is not blank. -/
  markerTopic : {topic : String // trim topic ≠ ""}
  objectives : ObjectivesSpec D
  timeline : Timeline
  requestedPointInTimeMs : Int
  newestRestoredRecordTsMs : Int
  leverHonoured : Bool
  selection : Selection
  /-- The engine's offset report, where one could be read. -/
  offsetReport : Option (List UInt8)

def markerTopicFor (drill : Drill D) : Option String :=
  match drill.mode with
  | .scratch => some drill.markerTopic
  | .newTopic => none

def readOffsetReport (sha256 : List UInt8 → Digest) (runId : String) (bytes : List UInt8) :
    String × String :=
  ("logweir/drills/" ++ runId ++ ".offsets.json", "sha256:" ++ hexEncode (sha256 bytes).toList)

/-- The document a finished restore signs. -/
def scored (sha256 : List UInt8 → Digest) (drill : Drill D) (verdicts : List SelectionVerdict)
    (countBound : Option String) (parity : TopicParity) : Scorecard D :=
  let integrity := rollUp D verdicts countBound
  let measured := computeMeasured drill.timeline drill.requestedPointInTimeMs
    drill.newestRestoredRecordTsMs
  let decided := decideOutcome measured drill.objectives integrity
  let matrix := matrixVerdictFor decided.1 integrity.level (observedVerdict drill.leverHonoured)
  let offsets := drill.offsetReport.map (readOffsetReport sha256 drill.runId)
  { formatVersion := formatVersionWithSample (formatVersionForTarget drill.auth)
    outcome := decided.1
    lastPhaseCompleted := 7
    matrixVerdict := matrix.1
    matrixVerdictReason := matrix.2
    capturedByLogweir := false
    mode := drill.mode
    markerTopic := markerTopicFor drill
    measured
    objectives := decided.2
    sample := sampleInfo drill.selection ((verdicts.map fun v => v.recordsRestored).sum)
    integrity
    topicParity := parity
    evidence :=
      { versionId := none
        retainUntil := none
        immutable := false
        createOnlyEnforced := false
        offsetReportKey := offsets.map Prod.fst
        offsetReportSha256 := offsets.map Prod.snd }
    redactions := [] }

end Logweir.Scored

/-!
## What a ledger counts

The numbers of every ledger the sampled lane builds: nothing matches that was not compared,
nothing is compared that was not sampled, and a verified selection matched all it compared.
-/

namespace Logweir.Sampled

open Std (ExtTreeMap)
open Logweir.Complete Logweir.Engine Logweir.Fingerprint Logweir.Results

theorem length_dedupByOffset_le (l : List RecordFingerprint) :
    (dedupByOffset l).length ≤ l.length := by
  induction l using dedupByOffset.induct with
  | case1 => rw [dedupByOffset]
  | case2 f => rw [dedupByOffset]
  | case3 f g rest same ih =>
      rw [dedupByOffset, if_pos same]
      exact Nat.le_trans ih (by simp)
  | case4 f g rest differ ih =>
      rw [dedupByOffset, if_neg differ]
      simpa using ih

theorem length_selectSample_le (sorted : List RecordFingerprint) (anchor : Anchor) (count : Nat) :
    (selectSample sorted anchor count).length ≤ count := by
  unfold selectSample
  split
  · exact Nat.zero_le _
  · split
    · assumption
    · cases anchor with
      | head => exact List.length_take_le _ _
      | tail =>
          rw [List.length_drop]
          omega
      | random =>
          calc (dedupByOffset _).length
              ≤ ((List.range count).filterMap _).length := length_dedupByOffset_le _
            _ ≤ (List.range count).length := List.length_filterMap_le _ _
            _ = count := List.length_range

/-- What one verdict's numbers say about its selection. -/
structure Counted (s : SampleSelection) (v : SelectionVerdict) : Prop where
  downgraded : v.downgrade.isSome → v.reconciled = none
  bounded : ∀ c m, v.reconciled = some (c, m) → m ≤ c ∧ c ≤ s.count
  verified : v.records.isVerified → v.downgrade = none → ∃ n, v.reconciled = some (n, n)

section

variable (sha256 : List UInt8 → Digest)

/-- An archive's answer for a selection holds no more than the sample. -/
def SelectionArchive.Fits (s : SampleSelection) : SelectionArchive → Prop
  | .fingerprints fp => fp.length ≤ s.count
  | .unsupported _ => True

theorem fits_of_probe {archived : ArchiveReader} {s : SampleSelection} {archive : SelectionArchive}
    (probed : probeArchiveMode archived s = .ok archive) : archive.Fits s := by
  obtain ⟨answer, _, same⟩ := bind_eq_ok.mp probed
  cases answer with
  | ok sorted =>
      cases same
      exact length_selectSample_le _ _ _
  | error reason =>
      cases same
      trivial

theorem reconciledEvidence_verified {claimed compared matching : Nat} {straddlers : Nat × Nat}
    {order : List String}
    (verified : (reconciledEvidence claimed straddlers compared matching order).isVerified) :
    0 < compared ∧ matching = compared := by
  unfold reconciledEvidence at verified
  split at verified
  · rename_i holds
    exact ⟨holds.1, holds.2.2.1⟩
  · split at verified
    · cases verified
    · split at verified
      · cases verified
      · split at verified <;> cases verified

theorem counted_of_verdict {reader : ClusterReader} {store : Store} {facts : BackupSetFacts}
    {s : SampleSelection} {mapping : ExtTreeMap String String} {archive : SelectionArchive}
    {v : SelectionVerdict} (fits : archive.Fits s)
    (built : verdictForSelection sha256 reader store facts s mapping archive = .ok v) :
    Counted s v := by
  obtain ⟨mapped, _, built⟩ := bind_eq_ok.mp built
  obtain ⟨segments, _, built⟩ := bind_eq_ok.mp built
  obtain ⟨consumed, _, built⟩ := bind_eq_ok.mp built
  cases built
  cases archive with
  | unsupported reason =>
      refine ⟨fun _ => rfl, fun c m same => ?_, fun _ kept => ?_⟩
      · cases same
      · cases kept
  | fingerprints fp =>
      generalize matches_ : fp.countP (fun a => (mismatch sha256 consumed a).isNone) = matching
      have compared : matching ≤ fp.length := matches_ ▸ List.countP_le_length
      refine ⟨fun lowered => (Bool.false_ne_true lowered).elim, fun c m same => ?_,
        fun verified _ => ?_⟩
      · change (if 0 < fp.length then some (fp.length, fp.countP _) else none) = some (c, m) at same
        rw [matches_] at same
        split at same
        · cases same
          exact ⟨compared, fits⟩
        · cases same
      · obtain ⟨some_, all⟩ := reconciledEvidence_verified verified
        have some_ : 0 < fp.length := some_
        refine ⟨fp.length, ?_⟩
        change (if 0 < fp.length then some (fp.length, fp.countP _) else none) = _
        rw [if_pos some_]
        exact congrArg (fun m => some (fp.length, m)) all

theorem counted_of_verdicts {reader : ClusterReader} {store : Store} {facts : BackupSetFacts}
    {mapping : ExtTreeMap String String} {answered total : Nat} {sel : List SampleSelection}
    {archives : List SelectionArchive}
    (fits : List.Forall₂ (fun s archive => archive.Fits s) sel archives) :
    ∀ {verdicts : List SelectionVerdict},
      verdictsOf sha256 reader store facts mapping answered total sel archives = .ok verdicts →
        List.Forall₂ Counted sel verdicts := by
  induction fits with
  | nil =>
      intro verdicts built
      cases built
      exact List.Forall₂.nil
  | cons fits _ ih =>
      intro verdicts built
      obtain ⟨v, here, built⟩ := bind_eq_ok.mp built
      obtain ⟨rest, later, same⟩ := bind_eq_ok.mp built
      cases same
      exact List.Forall₂.cons (counted_of_verdict sha256 fits here) (ih later)

theorem counted_of_ledger {archived : ArchiveReader} {reader : ClusterReader} {store : Store}
    {facts : BackupSetFacts} {mapping : ExtTreeMap String String} {sel : List SampleSelection}
    {verdicts : List SelectionVerdict}
    (built : ledgerOf sha256 archived reader store facts mapping sel = .ok verdicts) :
    List.Forall₂ Counted sel verdicts := by
  obtain ⟨_, _, built⟩ := bind_eq_ok.mp built
  obtain ⟨archives, probed, built⟩ := bind_eq_ok.mp built
  exact counted_of_verdicts sha256 ((forall₂_mapM probed).imp fun _ _ => fits_of_probe) built

end

section

variable {sel : List SampleSelection} {verdicts : List SelectionVerdict}

theorem sampledOf_cons (v : SelectionVerdict) (verdicts : List SelectionVerdict) :
    sampledOf (v :: verdicts) = (v.reconciled.map Prod.fst).getD 0 + sampledOf verdicts := by
  unfold sampledOf
  cases same : v.reconciled with
  | none => simp [same]
  | some counts => simp [same]

theorem matchingOf_cons (v : SelectionVerdict) (verdicts : List SelectionVerdict) :
    matchingOf (v :: verdicts) = (v.reconciled.map Prod.snd).getD 0 + matchingOf verdicts := by
  unfold matchingOf
  cases same : v.reconciled with
  | none => simp [same]
  | some counts => simp [same]

theorem matchingOf_le (counted : List.Forall₂ Counted sel verdicts) :
    matchingOf verdicts ≤ sampledOf verdicts := by
  induction counted with
  | nil => exact Nat.le_refl _
  | @cons s v _ _ here _ ih =>
      rw [sampledOf_cons, matchingOf_cons]
      cases same : v.reconciled with
      | none => simpa using ih
      | some counts => exact Nat.add_le_add (here.bounded _ _ same).1 ih

theorem sampledOf_le (counted : List.Forall₂ Counted sel verdicts) :
    sampledOf verdicts ≤ (sel.map fun s => s.count).sum := by
  induction counted with
  | nil => exact Nat.zero_le _
  | @cons s v _ _ here _ ih =>
      rw [sampledOf_cons, List.map_cons, List.sum_cons]
      refine Nat.add_le_add ?_ ih
      cases same : v.reconciled with
      | none => exact Nat.zero_le _
      | some counts => exact (here.bounded _ _ same).2

theorem matchingOf_eq (counted : List.Forall₂ Counted sel verdicts)
    (all : ∀ v ∈ verdicts, v.fullyVerified) : matchingOf verdicts = sampledOf verdicts := by
  induction counted with
  | nil => rfl
  | @cons s v _ verdicts here _ ih =>
      rw [sampledOf_cons, matchingOf_cons, ih fun v member => all v (List.mem_cons_of_mem _ member)]
      have verified := (Bool.and_eq_true_iff.mp (all v List.mem_cons_self)).2
      cases lowered : v.downgrade with
      | none =>
          obtain ⟨n, same⟩ := here.verified verified lowered
          rw [same, Option.map_some, Option.map_some]
      | some reason => rw [here.downgraded (by rw [lowered, Option.isSome_some]), Option.map_none,
          Option.map_none]

end

end Logweir.Sampled
