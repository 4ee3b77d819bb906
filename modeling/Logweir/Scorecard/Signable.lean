import Logweir.Scorecard.Labels
import Logweir.Scorecard.Score

/-!
# What a restore can sign

Arm by arm, what the scored document of a restore passes.  One arm answers for the weaker pass:
a consume-only selection that is verified still explains itself in `partial_reason`, and a pass
may not carry an explanation.
-/

set_option autoImplicit false

namespace Logweir.Scored

open Std (ExtTreeMap)
open Logweir.Complete Logweir.Results Logweir.Text
open Logweir.Drill (TargetMode)
open Logweir.Fingerprint (Digest)
open Logweir.Sampled hiding mappedTopic

variable {D : Doubles}

theorem blank_of_mem {s : String} {c : Char} (mem : c ∈ s.toList) (visible : isWhitespace c = false) :
    blank (some s) = false := decide_eq_false (trim_ne_empty mem visible)

section

variable {verdicts : List SelectionVerdict} {countBound : Option String}

theorem rollUp_result (verdicts : List SelectionVerdict) (countBound : Option String) :
    (rollUp D verdicts countBound).result = resultOf verdicts countBound := by
  unfold rollUp
  split
  · next empty =>
      subst empty
      cases countBound <;> rfl
  · rfl

theorem rollUp_sampled (verdicts : List SelectionVerdict) (countBound : Option String) :
    (rollUp D verdicts countBound).recordsSampled = sampledOf verdicts := by
  unfold rollUp
  split
  · next empty =>
      subst empty
      rfl
  · rfl

theorem rollUp_matching (verdicts : List SelectionVerdict) (countBound : Option String) :
    (rollUp D verdicts countBound).recordsSampledMatching = matchingOf verdicts := by
  unfold rollUp
  split
  · next empty =>
      subst empty
      rfl
  · rfl

theorem rollUp_rate {rate : D.Double}
    (measured : (rollUp D verdicts countBound).passRateMeasured = some rate) :
    (rollUp D verdicts countBound).level = .byteFingerprint ∧ D.isFinite rate = true := by
  unfold rollUp at measured ⊢
  split at measured
  · cases measured
  · next some_ =>
      rw [if_neg some_]
      dsimp only at measured ⊢
      split at measured
      · next holds =>
          cases measured
          exact ⟨holds.1, D.ratio_finite _ _ holds.2.2⟩
      · cases measured

theorem resultOf_pass :
    resultOf verdicts countBound = .pass ↔
      countBound = none ∧ verdicts ≠ [] ∧ ∀ v ∈ verdicts, v.fullyVerified = true := by
  unfold resultOf
  constructor
  · intro passed
    split at passed
    · cases passed
    · next fine =>
        split at passed
        · next all =>
            simp only [Bool.or_eq_true, not_or, Option.not_isSome_iff_eq_none] at fine
            simp only [Bool.and_eq_true, Bool.not_eq_true', List.isEmpty_eq_false_iff,
              List.all_eq_true] at all
            exact ⟨fine.1, all⟩
        · cases passed
  · rintro ⟨rfl, some_, all⟩
    have fine : verdicts.any SelectionVerdict.failed = false := by
      rw [List.any_eq_false]
      intro v member failed
      have both := Bool.and_eq_true_iff.mp (all v member)
      cases segments : v.segments <;> cases records : v.records <;>
        simp_all [SelectionVerdict.failed, Evidence.isVerified, Evidence.isFailed]
    rw [fine, if_neg (by simp), if_pos]
    rw [Bool.and_eq_true, Bool.not_eq_true', List.isEmpty_eq_false_iff, List.all_eq_true]
    exact ⟨some_, all⟩

theorem visible_note {v : SelectionVerdict} {note : String} (noted : note ∈ v.notes) :
    ':' ∈ note.toList := by
  unfold SelectionVerdict.notes at noted
  rcases List.mem_append.mp noted with lowered | lane
  · obtain ⟨reason, _, rfl⟩ := Option.map_eq_some_iff.mp (Option.mem_toList.mp lowered)
    simp [String.toList_append]
  · obtain ⟨why, _, rfl⟩ := List.mem_map.mp lane
    simp [String.toList_append]

theorem why_eq_none {e : Evidence} : e.why = none ↔ e.isVerified = true := by
  cases e <;> simp [Evidence.why, Evidence.isVerified]

theorem notes_eq_nil {v : SelectionVerdict} :
    v.notes = [] ↔ v.downgrade = none ∧ v.fullyVerified = true := by
  unfold SelectionVerdict.notes SelectionVerdict.fullyVerified
  rw [List.append_eq_nil_iff, Option.toList_eq_nil_iff, Option.map_eq_none_iff, List.map_eq_nil_iff,
    Bool.and_eq_true, ← why_eq_none, ← why_eq_none]
  cases v.segments.why <;> cases v.records.why <;> simp

theorem rollUp_reason (some_ : verdicts ≠ [])
    (noted : resultOf verdicts countBound = .partial_ → notesOf verdicts countBound ≠ []) :
    (rollUp D verdicts countBound).partialReason =
      if notesOf verdicts countBound = [] then none
      else some (String.intercalate "; " (notesOf verdicts countBound)) := by
  unfold rollUp
  rw [if_neg some_]
  dsimp only
  split
  · next silent => exact absurd silent.2 (noted silent.1)
  · rfl

theorem blank_reason_of_note {v : SelectionVerdict} (member : v ∈ verdicts)
    (explained : v.notes ≠ []) :
    blank (rollUp D verdicts countBound).partialReason = false := by
  obtain ⟨note, noted⟩ := List.exists_mem_of_ne_nil _ explained
  have among : note ∈ notesOf verdicts countBound :=
    List.mem_append_left _ (List.mem_append_right _ (List.mem_flatMap.mpr ⟨v, member, noted⟩))
  have some_ : notesOf verdicts countBound ≠ [] := List.ne_nil_of_mem among
  rw [rollUp_reason (List.ne_nil_of_mem member) fun _ => some_, if_neg some_]
  exact blank_of_mem (mem_intercalate (visible_note noted) among) (by decide)

theorem partial_explained (unexplained : blank (rollUp D verdicts countBound).partialReason = true) :
    (rollUp D verdicts countBound).result ≠ .partial_ := by
  intro isPartial
  rw [rollUp_result] at isPartial
  cases verdicts with
  | nil =>
      cases countBound with
      | none =>
          have explained : blank (rollUp D [] none).partialReason = false :=
            blank_of_mem (c := 'n') (by decide) (by decide)
          rw [explained] at unexplained
          cases unexplained
      | some finding => cases isPartial
  | cons first rest =>
      have open_ : ∃ v ∈ first :: rest, v.fullyVerified = false := by
        by_contra all
        push Not at all
        have verified : ∀ v ∈ first :: rest, v.fullyVerified = true :=
          fun v member => by simpa using all v member
        cases countBound with
        | none =>
            rw [resultOf_pass.mpr ⟨rfl, List.cons_ne_nil _ _, verified⟩] at isPartial
            cases isPartial
        | some finding => cases isPartial
      obtain ⟨v, member, unverified⟩ := open_
      have explained : v.notes ≠ [] := fun silent => by
        rw [(notes_eq_nil.mp silent).2] at unverified
        cases unverified
      rw [blank_reason_of_note member explained] at unexplained
      cases unexplained

theorem pass_explained (passed : (rollUp D verdicts countBound).result = .pass) :
    blank (rollUp D verdicts countBound).partialReason = false ↔
      ∃ v ∈ verdicts, v.downgrade.isSome = true := by
  obtain ⟨noFinding, some_, verified⟩ := resultOf_pass.mp (rollUp_result (D := D) _ _ ▸ passed)
  constructor
  · intro explained
    by_contra none_
    have strong : ∀ v ∈ verdicts, v.downgrade = none := fun v member => by
      by_contra lowered
      exact none_ ⟨v, member, Option.isSome_iff_ne_none.mpr lowered⟩
    have level : levelOf verdicts = .byteFingerprint := by
      unfold levelOf
      rw [if_neg]
      intro any
      obtain ⟨v, member, lowered⟩ := List.any_eq_true.mp any
      exact none_ ⟨v, member, lowered⟩
    have silent : notesOf verdicts countBound = [] := by
      have own : verdicts.flatMap SelectionVerdict.notes = [] :=
        List.flatMap_eq_nil_iff.mpr fun v member =>
          notes_eq_nil.mpr ⟨strong v member, verified v member⟩
      unfold notesOf byteLevelNote
      rw [noFinding, own, level, if_neg fun both => by cases both.1]
      rfl
    have reason : (rollUp D verdicts countBound).partialReason = none := by
      rw [rollUp_result] at passed
      rw [rollUp_reason some_ (fun isPartial => by simp [passed] at isPartial), if_pos silent]
    rw [reason] at explained
    cases explained
  · rintro ⟨v, member, lowered⟩
    refine blank_reason_of_note member fun silent => ?_
    rw [(notes_eq_nil.mp silent).1] at lowered
    cases lowered

theorem rate_of_downgrade {v : SelectionVerdict} (member : v ∈ verdicts)
    (lowered : v.downgrade.isSome = true) :
    (rollUp D verdicts countBound).passRateMeasured = none := by
  have level : levelOf verdicts = .consumeOnly := by
    unfold levelOf
    rw [if_pos (List.any_eq_true.mpr ⟨v, member, lowered⟩)]
  unfold rollUp
  rw [if_neg (List.ne_nil_of_mem member)]
  dsimp only
  rw [level, if_neg fun both => by cases both.1]

end

section

variable (drill : Drill D)

/-- The requested recovery time, if any, was kept. -/
def RtoKept : Prop :=
  ∀ want, drill.objectives.rtoSeconds = some want →
    secs drill.timeline.approvalValidatedAt drill.timeline.verifiedAt -
      drill.timeline.phase5DurationMs / 1000 ≤ want

/-- The requested recovery point, if any, was kept. -/
def RpoKept : Prop :=
  ∀ want, drill.objectives.rpoSeconds = some want →
    max ((drill.requestedPointInTimeMs - drill.newestRestoredRecordTsMs).tdiv 1000) 0 ≤ want

def measuredOf : Measured :=
  computeMeasured drill.timeline drill.requestedPointInTimeMs drill.newestRestoredRecordTsMs

theorem within_ne_false {α : Type} {le : α → α → Bool} {want : Option α} {got : α} :
    within le want (some got) ≠ some false ↔ ∀ w, want = some w → le got w = true := by
  cases want with
  | none => simp [within]
  | some w => simp [within]

theorem rtoOk_iff : rtoOk (measuredOf drill) drill.objectives ≠ some false ↔ RtoKept drill := by
  refine within_ne_false.trans (forall₂_congr fun want _ => ?_)
  exact decide_eq_true_iff

theorem rpoOk_iff : rpoOk (measuredOf drill) drill.objectives ≠ some false ↔ RpoKept drill := by
  refine within_ne_false.trans (forall₂_congr fun want _ => ?_)
  exact decide_eq_true_iff

theorem metOf_none {m : Measured} {spec : ObjectivesSpec D} :
    metOf m spec none ≠ some false ↔
      spec.passRate.isSome = true ∨ (rtoOk m spec ≠ some false ∧ rpoOk m spec ≠ some false) := by
  unfold metOf rateOk
  cases rate : spec.passRate with
  | some want => simp
  | none =>
      rcases rtoOk m spec with _ | _ | _ <;> rcases rpoOk m spec with _ | _ | _ <;> simp

/-- A restore that passes at the weaker level, with what it may not carry: an explanation. -/
structure ConsumeOnlyPass (verdicts : List SelectionVerdict) (countBound : Option String) : Prop where
  noFinding : countBound = none
  verified : ∀ v ∈ verdicts, v.fullyVerified = true
  lowered : ∃ v ∈ verdicts, v.downgrade.isSome = true
  kept : drill.objectives.passRate.isSome = true ∨ (RtoKept drill ∧ RpoKept drill)

variable {verdicts : List SelectionVerdict} {countBound : Option String}

theorem decideOutcome_pass {m : Measured} {spec : ObjectivesSpec D} {integ : Integrity D} :
    (decideOutcome m spec integ).1 = .pass ↔
      integ.result = .pass ∧ metOf m spec integ.passRateMeasured ≠ some false := by
  unfold decideOutcome
  dsimp only
  split
  · next failed => simp [failed]
  · next passed =>
      split
      · next missed => simp [missed]
      · next met => simp [met, not_not.mp passed]

theorem explained_pass_iff :
    ((decideOutcome (measuredOf drill) drill.objectives (rollUp D verdicts countBound)).1 = .pass ∧
      blank (rollUp D verdicts countBound).partialReason = false) ↔
        ConsumeOnlyPass drill verdicts countBound := by
  rw [decideOutcome_pass]
  constructor
  · rintro ⟨⟨passed, met⟩, explained⟩
    obtain ⟨v, member, lowered⟩ := (pass_explained passed).mp explained
    obtain ⟨noFinding, _, verified⟩ := resultOf_pass.mp (rollUp_result (D := D) _ _ ▸ passed)
    rw [rate_of_downgrade member lowered, metOf_none, rtoOk_iff, rpoOk_iff] at met
    exact ⟨noFinding, verified, ⟨v, member, lowered⟩, met⟩
  · rintro ⟨noFinding, verified, ⟨v, member, lowered⟩, kept⟩
    have passed : (rollUp D verdicts countBound).result = .pass := by
      rw [rollUp_result]
      exact resultOf_pass.mpr ⟨noFinding, List.ne_nil_of_mem member, verified⟩
    refine ⟨⟨passed, ?_⟩, (pass_explained passed).mpr ⟨v, member, lowered⟩⟩
    rw [rate_of_downgrade member lowered, metOf_none, rtoOk_iff, rpoOk_iff]
    exact kept

end

section

variable (sha256 : List UInt8 → Digest) (drill : Drill D) (verdicts : List SelectionVerdict)
  (countBound : Option String) (parity : TopicParity)

theorem version_known (auth : TargetAuth) :
    majorVersion (formatVersionWithSample (formatVersionForTarget auth)) = some 1 ∧
      knownMajor (formatVersionWithSample (formatVersionForTarget auth)) = true ∧
        definesFormat1Minor (formatVersionWithSample (formatVersionForTarget auth))
          notReconstructedSinceMinor = true := by
  cases auth <;> decide +kernel

theorem readable : refuseUnreadableMajor (scored sha256 drill verdicts countBound parity) = .ok () := by
  unfold refuseUnreadableMajor
  have major : majorVersion (scored sha256 drill verdicts countBound parity).formatVersion = some 1 :=
    (version_known drill.auth).1
  rw [major]
  simp [seq_eq_ok, refuseIf_eq_ok, partitionSubsetsMajor]

theorem offsets_paired : blank (scored sha256 drill verdicts countBound parity).evidence.offsetReportKey =
    blank (scored sha256 drill verdicts countBound parity).evidence.offsetReportSha256 := by
  change blank ((drill.offsetReport.map (readOffsetReport sha256 drill.runId)).map Prod.fst) =
    blank ((drill.offsetReport.map (readOffsetReport sha256 drill.runId)).map Prod.snd)
  cases drill.offsetReport with
  | none => rfl
  | some bytes =>
      have key : '/' ∈ (readOffsetReport sha256 drill.runId bytes).1.toList := by
        simp [readOffsetReport, String.toList_append]
      have digest : ':' ∈ (readOffsetReport sha256 drill.runId bytes).2.toList := by
        simp [readOffsetReport, String.toList_append]
      rw [Option.map_some, Option.map_some, Option.map_some, blank_of_mem key (by decide),
        blank_of_mem digest (by decide)]

theorem knownMajorArms_ok :
    knownMajorArms (scored sha256 drill verdicts countBound parity) = .ok () := by
  have marked : ¬ (blank (markerTopicFor drill) = true ∧ drill.mode = .scratch) := by
    rintro ⟨unmarked, scratch⟩
    rw [markerTopicFor, scratch] at unmarked
    exact drill.markerTopic.2 (of_decide_eq_true unmarked)
  unfold knownMajorArms evidenceArms
  split
  · simp only [seq_eq_ok, refuseIf_eq_ok]
    exact ⟨Bool.false_ne_true, Bool.false_ne_true, Bool.false_ne_true, Bool.false_ne_true,
      fun differ => differ (offsets_paired sha256 drill verdicts countBound parity), marked⟩
  · rfl

theorem finiteArms_ok : finiteArms (scored sha256 drill verdicts countBound parity) = .ok () ↔
    ∀ rate, drill.objectives.passRate = some rate → D.isFinite rate = true := by
  unfold finiteArms
  rw [seq_eq_ok, refuseIf_eq_ok, refuseIf_eq_ok]
  have measured : ¬ ((rollUp D verdicts countBound).passRateMeasured.any
      fun rate => !D.isFinite rate) = true := by
    cases rate : (rollUp D verdicts countBound).passRateMeasured with
    | none => exact Bool.false_ne_true
    | some rate' => simp [(rollUp_rate rate).2]
  change (¬ (drill.objectives.passRate.any fun rate => !D.isFinite rate) = true ∧ _) ↔ _
  refine (and_iff_left measured).trans ?_
  cases drill.objectives.passRate <;> simp

theorem gapArms_ok (rpo : ∀ want, drill.objectives.rpoSeconds = some want → 0 ≤ want) :
    gapArms (scored sha256 drill verdicts countBound parity) = .ok () := by
  have asked : notNegative "objectives.rpo_seconds" drill.objectives.rpoSeconds = .ok () := by
    cases requested : drill.objectives.rpoSeconds with
    | none => rfl
    | some want => exact refuseIf_eq_ok.mpr (Int.not_lt.mpr (rpo want requested))
  unfold gapArms
  rw [seq_eq_ok, seq_eq_ok]
  exact ⟨refuseIf_eq_ok.mpr (Int.not_lt.mpr (le_max_right _ _)), rfl, asked⟩

theorem outcomeArms_ok (counted : List.Forall₂ Counted drill.selection.perPartition verdicts) :
    outcomeArms (scored sha256 drill verdicts countBound parity) = .ok () ↔
      ¬ ConsumeOnlyPass drill verdicts countBound := by
  generalize integrated : rollUp D verdicts countBound = integ
  have passing : (decideOutcome (measuredOf drill) drill.objectives integ).1 = .pass →
      integ.result = .pass ∧
        metOf (measuredOf drill) drill.objectives integ.passRateMeasured ≠ some false :=
    decideOutcome_pass.mp
  have matched : integ.result = .pass → integ.recordsSampledMatching = integ.recordsSampled := by
    subst integrated
    rw [rollUp_result, rollUp_sampled, rollUp_matching]
    exact fun passed => matchingOf_eq counted (resultOf_pass.mp passed).2.2
  have sampled : integ.recordsSampled ≤ (drill.selection.perPartition.map fun s => s.count).sum := by
    subst integrated
    rw [rollUp_sampled]
    exact sampledOf_le counted
  have explained : _ ↔ ConsumeOnlyPass drill verdicts countBound := explained_pass_iff drill
  rw [integrated] at explained
  rw [← explained]
  unfold outcomeArms scored
  rw [integrated]
  simp only [seq_eq_ok, refuseIf_eq_ok]
  constructor
  · exact fun arms => arms.2.1
  · refine fun fine => ⟨fun both => both.2 (passing both.1).1, fine,
      fun both => (passing both.1).2 both.2, fun both => both.2 (matched (passing both.1).1),
      Nat.not_lt.mpr sampled⟩

theorem matrixVerdictFor_pass {outcome : Outcome} {level : IntegrityLevel}
    {observed : MatrixVerdict} (raised : (matrixVerdictFor outcome level observed).1 = .pass) :
    outcome = .pass ∧ level = .byteFingerprint := by
  unfold matrixVerdictFor at raised
  split at raised
  · next lowered => exact absurd raised lowered
  · cases outcome <;> cases level <;> first | exact ⟨rfl, rfl⟩ | cases raised

theorem matrixVerdictFor_reason {outcome : Outcome} {level : IntegrityLevel} {honoured : Bool}
    (failed : (matrixVerdictFor outcome level (observedVerdict honoured)).1 = .fail) :
    (matrixVerdictFor outcome level (observedVerdict honoured)).2.isSome = true := by
  cases honoured
  · cases failed
  · cases outcome <;> cases level <;> first | rfl | cases failed

theorem matrixArms_ok : matrixArms (scored sha256 drill verdicts countBound parity) = .ok () := by
  generalize integrated : rollUp D verdicts countBound = integ
  have rated : ¬ (integ.level ≠ .byteFingerprint ∧ integ.passRateMeasured.isSome = true) := by
    subst integrated
    rintro ⟨weaker, measured⟩
    obtain ⟨rate, same⟩ := Option.isSome_iff_exists.mp measured
    exact weaker (rollUp_rate same).1
  unfold matrixArms scored
  rw [integrated]
  simp only [seq_eq_ok, refuseIf_eq_ok]
  refine ⟨fun both => both.2 (matrixVerdictFor_pass both.1), fun both => ?_, rated, by simp⟩
  have reason := matrixVerdictFor_reason both.1
  rw [Option.isSome_iff_ne_none] at reason
  exact reason (Option.isNone_iff_eq_none.mp both.2)

theorem met_ok : ¬ ((scored sha256 drill verdicts countBound parity).integrity.level ≠ .byteFingerprint ∧
    (scored sha256 drill verdicts countBound parity).objectives.passRate.isSome = true ∧
      (scored sha256 drill verdicts countBound parity).objectives.met = some true) := by
  rintro ⟨weaker, asked, met⟩
  change metOf (measuredOf drill) drill.objectives
    (rollUp D verdicts countBound).passRateMeasured = some true at met
  unfold metOf at met
  rw [if_pos] at met
  · cases met
  · refine ⟨asked, ?_⟩
    cases rate : (rollUp D verdicts countBound).passRateMeasured with
    | none => rfl
    | some rate' => exact absurd (rollUp_rate rate).1 weaker

theorem validates_iff {topics : List MappedTopic}
    (counted : List.Forall₂ Counted drill.selection.perPartition verdicts)
    (labelled : parity = joinParity (topics.map fun m => m.parity drill.mode))
    (rpo : ∀ want, drill.objectives.rpoSeconds = some want → 0 ≤ want) :
    validateInvariants (scored sha256 drill verdicts countBound parity) = .ok () ↔
      ¬ ConsumeOnlyPass drill verdicts countBound ∧
        (∀ rate, drill.objectives.passRate = some rate → D.isFinite rate = true) ∧
          SettingsNamed drill.mode topics := by
  have unexplained : ¬ ((scored sha256 drill verdicts countBound parity).integrity.result = .partial_ ∧
      blank (scored sha256 drill verdicts countBound parity).integrity.partialReason = true) :=
    fun both => partial_explained both.2 both.1
  have fewer : ¬ (scored sha256 drill verdicts countBound parity).integrity.recordsSampled <
      (scored sha256 drill verdicts countBound parity).integrity.recordsSampledMatching := by
    change ¬ (rollUp D verdicts countBound).recordsSampled <
      (rollUp D verdicts countBound).recordsSampledMatching
    rw [rollUp_sampled, rollUp_matching]
    exact Nat.not_lt.mpr (matchingOf_le counted)
  have captured : capturedArms (scored sha256 drill verdicts countBound parity) = .ok () := rfl
  have parity_ : parityArms (scored sha256 drill verdicts countBound parity) = .ok () ↔ _ :=
    parityArms_ok (version_known drill.auth).2.2 labelled
  unfold validateInvariants
  simp only [seq_eq_ok, refuseIf_eq_ok]
  rw [finiteArms_ok, outcomeArms_ok sha256 drill verdicts countBound parity counted, parity_]
  constructor
  · rintro ⟨_, _, _, finite, _, _, _, _, strong, _, named, _⟩
    exact ⟨strong, finite, named⟩
  · rintro ⟨strong, finite, named⟩
    exact ⟨readable sha256 drill verdicts countBound parity,
      knownMajorArms_ok sha256 drill verdicts countBound parity, unexplained, finite, captured,
      met_ok sha256 drill verdicts countBound parity,
      gapArms_ok sha256 drill verdicts countBound parity rpo, fewer, strong,
      matrixArms_ok sha256 drill verdicts countBound parity, named, fun some_ => some_ rfl⟩

end

section

variable (sha256 : List UInt8 → Digest) (archived : ArchiveReader) (reader : ClusterReader)
  (store : Store) (facts : Engine.BackupSetFacts) (mapping : ExtTreeMap String String)
  (topicFacts : List ArchivedTopic) (parityReader : ParityReader) (defaultRf : Int)
  (coverage : SourceConfigCoverage)

/-- A finished restore can be signed exactly when it is no pass at the weaker level, its requested
rate is a number, and no source setting reads as one of the four without being named. -/
theorem signable_unless_weaker_pass (drill : Drill D) {verdicts : List SelectionVerdict}
    (countBound : Option String) {parity : TopicParity}
    (ledger : ledgerOf sha256 archived reader store facts mapping drill.selection.perPartition =
      .ok verdicts)
    (classified : classifyParityAll topicFacts parityReader defaultRf coverage mapping drill.mode =
      .ok parity)
    (rpo : ∀ want, drill.objectives.rpoSeconds = some want → 0 ≤ want) :
    validateInvariants (scored sha256 drill verdicts countBound parity) = .ok () ↔
      ¬ ConsumeOnlyPass drill verdicts countBound ∧
        (∀ rate, drill.objectives.passRate = some rate → D.isFinite rate = true) ∧
          ∀ topics, readMappedTopics topicFacts parityReader defaultRf coverage mapping = .ok topics →
            SettingsNamed drill.mode topics := by
  obtain ⟨topics, read, same⟩ := bind_eq_ok.mp classified
  have labelled : parity = joinParity (topics.map fun m => m.parity drill.mode) :=
    (Except.ok.inj same).symm
  rw [validates_iff sha256 drill verdicts countBound parity (counted_of_ledger sha256 ledger)
    labelled rpo]
  refine and_congr_right fun _ => and_congr_right fun _ => ⟨fun named topics' read' => ?_,
    fun named => named topics read⟩
  rw [read] at read'
  rwa [← Except.ok.inj read']

end

section

def emptyDigest : Digest :=
  #v[0xe3, 0xb0, 0xc4, 0x42, 0x98, 0xfc, 0x1c, 0x14, 0x9a, 0xfb, 0xf4, 0xc8, 0x99, 0x6f, 0xb9, 0x24,
    0x27, 0xae, 0x41, 0xe4, 0x64, 0x9b, 0x93, 0x4c, 0xa4, 0x95, 0x99, 0x1b, 0x78, 0x52, 0xb8, 0x55]

def fractions : Doubles where
  Double := Rat
  isFinite _ := true
  ratio m n := (m : Rat) / n
  reaches got want := decide (want ≤ got)
  ratio_finite _ _ _ := rfl

def legacySelection : SampleSelection := ⟨"orders", 0, .head, 1, (0, 10)⟩

def legacyFacts : Engine.BackupSetFacts :=
  ⟨[⟨"orders", [⟨0, [⟨"segment-0", 0, 0, 5, 5, 1,
    "e3b0c44298fc1c149afbf4c8996fb92427ae41e4649b934ca495991b7852b855"⟩], [], []⟩]⟩]⟩

def legacyReader (restored : Nat) : ClusterReader where
  endOffsets _ := .ok [(0, restored)]
  consumeRange _ _ _ _ := .ok (List.replicate restored ⟨0, 5, none, none, []⟩)

def legacyMapping : ExtTreeMap String String := ExtTreeMap.ofList [("orders", "drill-orders")]

def legacyDrill : Drill fractions where
  runId := "01J9X2QK7C4V0R8YB3ZP6MTS5A"
  auth := .plaintext
  mode := .scratch
  markerTopic := ⟨"logweir-scratch", by decide⟩
  objectives := ⟨some 60, none, none⟩
  timeline := ⟨0, 0, 0, 0, 0, 30000000000⟩
  requestedPointInTimeMs := 10
  newestRestoredRecordTsMs := 5
  leverHonoured := true
  selection := ⟨(0, 10), 1, 1, [legacySelection]⟩
  offsetReport := none

def legacyLedger (restored : Nat) : Except DrillError (List SelectionVerdict) :=
  ledgerOf (fun _ => emptyDigest) (fun _ => .ok (.error "KBAK level 1")) (legacyReader restored)
    ⟨fun _ _ => .ok []⟩ legacyFacts legacyMapping [legacySelection]

def legacyParityReader : ParityReader where
  topicConfigs _ := .ok ∅
  endOffsets _ := .ok [(0, 1)]
  replicationFactors _ := .ok ∅

def legacyParity : Except DrillError TopicParity :=
  classifyParityAll [⟨"orders", ∅, some 1, some 1⟩] legacyParityReader 1
    ⟨fun _ => .captured, fun _ => none⟩ legacyMapping .scratch

/-- Nothing was read back: a partial result, signed. -/
theorem short_read_is_signed : ∃ verdicts parity,
    legacyLedger 0 = .ok verdicts ∧ legacyParity = .ok parity ∧
      validateInvariants (scored (fun _ => emptyDigest) legacyDrill verdicts none parity) = .ok () := by
  have ledger : legacyLedger 0 = .ok [⟨"orders/0", 1, .verified 1, .unverified
      ("the target partition gave back zero records, so consume-only " ++
        "verification proved nothing about this selection"), 0, none, some "KBAK level 1"⟩] := by
    decide +kernel
  have classified : legacyParity = .ok ⟨[], [], some [], some []⟩ := by decide +kernel
  refine ⟨_, _, ledger, classified, (signable_unless_weaker_pass (fun _ => emptyDigest)
    (fun _ => .ok (.error "KBAK level 1")) (legacyReader 0) ⟨fun _ _ => .ok []⟩ legacyFacts
    legacyMapping [⟨"orders", ∅, some 1, some 1⟩] legacyParityReader 1
    ⟨fun _ => .captured, fun _ => none⟩ legacyDrill none ledger classified ?_).mpr
      ⟨fun weaker => ?_, fun _ _ => rfl, fun _ _ newTopic => ?_⟩⟩
  · intro want asked
    cases asked
  · exact absurd (weaker.verified _ List.mem_cons_self) (by decide)
  · cases newTopic

/-- The one record was read back and its segment is intact, so the restore passes; and its own
document refuses to be signed. -/
theorem consume_only_pass_is_refused : ∃ verdicts parity,
    legacyLedger 1 = .ok verdicts ∧ legacyParity = .ok parity ∧
      (scored (fun _ => emptyDigest) legacyDrill verdicts none parity).outcome = .pass ∧
        validateInvariants (scored (fun _ => emptyDigest) legacyDrill verdicts none parity) =
          .error "outcome is 'pass' but integrity.partial_reason is present" := by
  refine ⟨[⟨"orders/0", 1, .verified 1, .verified 1, 1, none, some "KBAK level 1"⟩],
    ⟨[], [], some [], some []⟩, ?_, ?_, ?_, ?_⟩
  · decide +kernel
  · decide +kernel
  · decide +kernel
  · decide +kernel

end

end Logweir.Scored
