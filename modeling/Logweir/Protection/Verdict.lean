import Logweir.Protection.Evaluate

/-!
# What a verdict says

The health of a policy in terms of its evidence: the question can be answered or not, a
recoverable point is inside the objective, or there is one, or a covered run could not be
placed in time.
-/

set_option autoImplicit false

namespace Logweir.Protection

/-- The run succeeded, and is one the policy is about. -/
structure Covered (spec : ProtectionPolicySpec) (c : PointCandidate) : Prop where
  phase : c.phase = some "Succeeded"
  exitCode : c.exitCode = some 0
  source : c.sourceMatches = true
  destination : c.destinationMatches = true
  topics : c.coversAllTopics = true ∨
    ∀ required, spec.protects.topics = some required → ∀ t ∈ required, t ∈ c.topics

/-- A verifier read the evidence and passed it. -/
def Passed (c : PointCandidate) : Prop := c.evidence = .valid ∨ c.evidence = .validHistorical

/-- The point can be recovered from, as far as the policy asks: a catalog that was asked
lists it available, and where evidence must be verified it passed, or no verifier reached it
and that row is verified. -/
def Recoverable (spec : ProtectionPolicySpec) (catalog : CatalogAnswer) (c : PointCandidate) : Prop :=
  Covered spec c ∧
    match catalog with
    | .notConsulted => spec.objectives.requireVerifiedEvidence = true → Passed c
    | .stale _ => False
    | .fresh rows => ∃ row ∈ rows, entryIsAbout c row = true ∧ row.isAvailable = true ∧
        (spec.objectives.requireVerifiedEvidence = true →
          Passed c ∨ (c.evidence = .notAttempted ∧ row.isVerified = true))

def RecoverableFrom (input : Inputs) (c : PointCandidate) (captured : Time) : Prop :=
  Recoverable input.spec (consultedCatalog input) c ∧ c.recoveryPointAt = some captured

/-- Everything the question needs was read. -/
structure Answerable (input : Inputs) : Prop where
  complete : input.backupsComplete = true
  source : input.sourceExists = true
  destination : input.destinationExists = true
  /-- Where schedules are named and were read, one of them exists. -/
  schedules : ∀ ref refs, input.spec.protects.scheduleRefs = some (ref :: refs) →
    input.schedules ≠ [] → ∃ s ∈ input.schedules, s.exists = true
  answered : ∀ reason, consultedCatalog input ≠ .stale reason
  legible : (consultedCatalog input).blankAxis = false

def Held (input : Inputs) : Prop := ∃ c ∈ input.candidates, ∃ t, RecoverableFrom input c t

def Within (input : Inputs) : Prop := ∃ c ∈ input.candidates, ∃ t, RecoverableFrom input c t ∧
  ageSeconds input.now t ≤ input.spec.objectives.maxRecoveryPointAgeSeconds

/-- A covered run lacks only its place in time: no verifier read its evidence. -/
def Unplaced (input : Inputs) : Prop := ∃ c ∈ input.candidates,
  Covered input.spec c ∧ c.evidence = .notAttempted ∧ c.recoveryPointAt = none

variable {spec : ProtectionPolicySpec} {catalog : CatalogAnswer} {c : PointCandidate}
  {input : Inputs} {crates : Crates}

theorem isVerified_iff : c.evidence.isVerified = true ↔ Passed c := by
  unfold Passed
  cases c.evidence <;> simp [Evidence.isVerified]

theorem wasReached_iff : c.evidence.wasReached = false ↔ c.evidence = .notAttempted := by
  cases c.evidence <;> simp [Evidence.wasReached]

theorem topicsCovered_iff {pointTopics : List String} : topicsCovered spec pointTopics = true ↔
    ∀ required, spec.protects.topics = some required → ∀ t ∈ required, t ∈ pointTopics := by
  unfold topicsCovered
  cases spec.protects.topics with
  | none => simp
  | some required => simp

theorem matchesPolicy_iff : matchesPolicy c spec = true ↔ Covered spec c := by
  unfold matchesPolicy PointCandidate.succeeded
  rw [Bool.and_eq_true, Bool.and_eq_true, Bool.and_eq_true, Bool.and_eq_true, Bool.or_eq_true,
    topicsCovered_iff, decide_eq_true_eq, decide_eq_true_eq]
  constructor
  · rintro ⟨⟨⟨⟨phase, exitCode⟩, source⟩, destination⟩, topics⟩
    exact ⟨phase, exitCode, source, destination, topics⟩
  · rintro ⟨phase, exitCode, source, destination, topics⟩
    exact ⟨⟨⟨⟨phase, exitCode⟩, source⟩, destination⟩, topics⟩

theorem evidenceObjectiveMet_iff {row : Option CatalogEntry} :
    evidenceObjectiveMet c spec row = true ↔
      (spec.objectives.requireVerifiedEvidence = true →
        Passed c ∨ (c.evidence = .notAttempted ∧ ∃ e, row = some e ∧ e.isVerified = true)) := by
  unfold evidenceObjectiveMet
  rw [← isVerified_iff, ← wasReached_iff]
  cases row with
  | none =>
      cases spec.objectives.requireVerifiedEvidence <;> cases c.evidence.isVerified <;> simp
  | some e =>
      cases spec.objectives.requireVerifiedEvidence <;> cases c.evidence.isVerified <;> simp

theorem isAvailable_iff : isAvailable c spec catalog = true ↔ Recoverable spec catalog c := by
  unfold isAvailable Recoverable
  rw [← matchesPolicy_iff]
  cases matchesPolicy c spec with
  | false => simp
  | true =>
      cases catalog with
      | notConsulted => simp [evidenceObjectiveMet_iff]
      | stale reason => simp
      | fresh rows =>
          simp only [Bool.not_true, Bool.false_eq_true, if_false, List.any_eq_true, entriesFor,
            List.mem_filter, Bool.and_eq_true, evidenceObjectiveMet_iff, true_and,
            Option.some.injEq, exists_eq_left']
          exact exists_congr fun row => by rw [and_assoc]

theorem isUnplaceable_iff : isUnplaceable c spec = true ↔
    Covered spec c ∧ c.evidence = .notAttempted ∧ c.recoveryPointAt = none := by
  unfold isUnplaceable
  rw [Bool.and_eq_true, Bool.and_eq_true, Option.isNone_iff_eq_none, Bool.not_eq_true',
    wasReached_iff, matchesPolicy_iff]
  exact ⟨fun ⟨⟨placed, reached⟩, covered⟩ => ⟨covered, reached, placed⟩,
    fun ⟨covered, reached, placed⟩ => ⟨⟨placed, reached⟩, covered⟩⟩

theorem mem_availableOf : c ∈ availableOf input.candidates input.spec (consultedCatalog input) ↔
    c ∈ input.candidates ∧ ∃ t, RecoverableFrom input c t := by
  unfold availableOf RecoverableFrom
  rw [List.mem_filter, Bool.and_eq_true, isAvailable_iff, Option.isSome_iff_exists]
  exact and_congr_right fun _ => ⟨fun ⟨⟨t, placed⟩, recoverable⟩ => ⟨t, recoverable, placed⟩,
    fun ⟨t, recoverable, placed⟩ => ⟨⟨t, placed⟩, recoverable⟩⟩

theorem sorted_newestFirst (candidates : List PointCandidate) :
    (newestFirst candidates).Pairwise fun a b => captureStart b ≤ captureStart a := by
  refine (List.pairwise_mergeSort (fun a b c ab bc => ?_) (fun a b => ?_) candidates).imp
    of_decide_eq_true
  · exact decide_eq_true (Int.le_trans (of_decide_eq_true bc) (of_decide_eq_true ab))
  · rw [Bool.or_eq_true, decide_eq_true_eq, decide_eq_true_eq]
    exact Int.le_total (captureStart b) (captureStart a)

theorem newestOf_eq_none : newestOf input = none ↔ ¬ Held input := by
  unfold newestOf newestFirst
  rw [List.head?_eq_none_iff, ← List.length_eq_zero_iff, List.length_mergeSort,
    List.length_eq_zero_iff, List.eq_nil_iff_forall_not_mem]
  constructor
  · rintro none ⟨c, member, held⟩
    exact none c (mem_availableOf.mpr ⟨member, held⟩)
  · intro none c member
    obtain ⟨candidate, held⟩ := mem_availableOf.mp member
    exact none ⟨c, candidate, held⟩

theorem newestOf_eq_some (newest : newestOf input = some c) :
    c ∈ input.candidates ∧ ∃ t, RecoverableFrom input c t ∧
      ∀ c' ∈ input.candidates, ∀ t', RecoverableFrom input c' t' → t' ≤ t := by
  unfold newestOf at newest
  have sorted := sorted_newestFirst
    (availableOf input.candidates input.spec (consultedCatalog input))
  have perm : (newestFirst (availableOf input.candidates input.spec (consultedCatalog input))).Perm _ :=
    List.mergeSort_perm _ _
  obtain ⟨others, listed⟩ := List.head?_eq_some_iff.mp newest
  rw [listed] at sorted perm
  obtain ⟨candidate, t, held⟩ := mem_availableOf.mp (perm.mem_iff.mp List.mem_cons_self)
  refine ⟨candidate, t, held, fun c' candidate' t' held' => ?_⟩
  have start : captureStart c = t := by rw [captureStart, held.2, Option.getD_some]
  have start' : captureStart c' = t' := by rw [captureStart, held'.2, Option.getD_some]
  rw [← start, ← start']
  rcases List.mem_cons.mp (perm.mem_iff.mpr (mem_availableOf.mpr ⟨candidate', t', held'⟩)) with
    rfl | later
  · exact Int.le_refl _
  · exact (List.pairwise_cons.mp sorted).1 c' later

theorem ageSeconds_anti {now t t' : Time} (later : t ≤ t') : ageSeconds now t' ≤ ageSeconds now t := by
  have seconds : wholeSeconds (now - t') ≤ wholeSeconds (now - t) :=
    Int.tdiv_le_tdiv (by decide) (Int.sub_le_sub_left later now)
  unfold ageSeconds
  omega

theorem within_iff_newest (newest : newestOf input = some c) :
    ∃ age, (pointFacts c input.now).ageSeconds = some age ∧
      (Within input ↔ age ≤ input.spec.objectives.maxRecoveryPointAgeSeconds) := by
  obtain ⟨candidate, t, held, latest⟩ := newestOf_eq_some newest
  refine ⟨ageSeconds input.now t, by rw [pointFacts, held.2, Option.map_some], ?_⟩
  constructor
  · rintro ⟨c', candidate', t', held', young⟩
    exact Int.le_trans (ageSeconds_anti (latest c' candidate' t' held')) young
  · exact fun young => ⟨c, candidate, t, held, young⟩

theorem schedulesMissing_eq_false : schedulesMissing input = false ↔
    ∀ ref refs, input.spec.protects.scheduleRefs = some (ref :: refs) →
      input.schedules ≠ [] → ∃ s ∈ input.schedules, s.exists = true := by
  unfold schedulesMissing
  cases input.spec.protects.scheduleRefs with
  | none => simp
  | some refs =>
      cases refs with
      | nil => simp
      | cons ref refs => simp

theorem answerable_iff : Answerable input ↔ input.sourceExists = true ∧
    input.destinationExists = true ∧ schedulesMissing input = false ∧ input.backupsComplete = true ∧
    (∀ reason, consultedCatalog input ≠ .stale reason) ∧
    (consultedCatalog input).blankAxis = false := by
  rw [schedulesMissing_eq_false]
  constructor
  · rintro ⟨complete, source, destination, schedules, answered, legible⟩
    exact ⟨source, destination, schedules, complete, answered, legible⟩
  · rintro ⟨source, destination, schedules, complete, answered, legible⟩
    exact ⟨complete, source, destination, schedules, answered, legible⟩

theorem unplaced_iff : (input.candidates.any fun c => isUnplaceable c input.spec) = true ↔
    Unplaced input := by
  rw [List.any_eq_true]
  exact exists_congr fun c => and_congr_right fun _ => isUnplaceable_iff

theorem unresolvable_eq_none {newest : Option PointCandidate} :
    unresolvable input (consultedCatalog input) newest = none ↔
      Answerable input ∧ (newest = none → ¬ Unplaced input) := by
  rw [answerable_iff, ← unplaced_iff, ← Option.isNone_iff_eq_none]
  unfold unresolvable
  generalize (input.candidates.any fun c => isUnplaceable c input.spec) = unplaced
  cases input.sourceExists with
  | false => simp
  | true =>
  cases input.destinationExists with
  | false => simp
  | true =>
  cases schedulesMissing input with
  | true => simp
  | false =>
  cases input.backupsComplete with
  | false => simp
  | true =>
      cases consultedCatalog input with
      | stale reason => simp
      | notConsulted => cases newest <;> cases unplaced <;> simp [CatalogAnswer.blankAxis]
      | fresh rows =>
          cases (CatalogAnswer.fresh rows).blankAxis <;> cases newest <;> cases unplaced <;> simp

theorem held_of_within (within : Within input) : Held input := by
  obtain ⟨c, candidate, t, held, -⟩ := within
  exact ⟨c, candidate, t, held⟩

/-- What `evaluate` finds, with the newest point it finds it for. -/
inductive Found (input : Inputs) : Freshness → Option PointCandidate → Prop where
  | within (answerable : Answerable input) (within : Within input) (c : PointCandidate) :
      Found input .fresh (some c)
  | aged (answerable : Answerable input) (held : Held input) (aged : ¬ Within input)
      (c : PointCandidate) : Found input .stale (some c)
  | bare (answerable : Answerable input) (bare : ¬ Held input) (placed : ¬ Unplaced input) :
      Found input .stale none
  | unread (newest : Option PointCandidate)
      (unread : ¬ Answerable input ∨ (¬ Held input ∧ Unplaced input)) : Found input .unknown newest

theorem found_freshness (input : Inputs) : Found input (freshnessFor input).1 (newestOf input) := by
  simp only [freshnessFor]
  cases resolved : unresolvable input (consultedCatalog input) (newestOf input) with
  | some reason =>
      refine .unread _ ?_
      by_contra both
      rw [not_or, not_not, not_and] at both
      rw [unresolvable_eq_none.mpr ⟨both.1, fun none => both.2 (newestOf_eq_none.mp none)⟩] at resolved
      cases resolved
  | none =>
      obtain ⟨answerable, lost⟩ := unresolvable_eq_none.mp resolved
      cases newest : newestOf input with
      | none =>
          have bare := newestOf_eq_none.mp newest
          exact .bare answerable bare (lost newest)
      | some c =>
          obtain ⟨age, measured, inside⟩ := within_iff_newest newest
          have held : Held input := by
            by_contra bare
            rw [newestOf_eq_none.mpr bare] at newest
            cases newest
          simp only [Option.bind_some, measured, freshnessOf]
          split_ifs with young
          · exact .within answerable (inside.mpr young) c
          · exact .aged answerable held (fun within => young (inside.mp within)) c

theorem health_eq (crates : Crates) (input : Inputs) : (evaluate crates input).health =
    healthOf (freshnessFor input).1 (isAtRisk crates input (consecutiveFailedSlots input.slots))
      (newestOf input) := rfl

def Means (input : Inputs) : Health → Prop
  | .healthy | .atRisk => Answerable input ∧ Within input
  | .stale => Answerable input ∧ Held input ∧ ¬ Within input
  | .unprotected => Answerable input ∧ ¬ Held input ∧ ¬ Unplaced input
  | .unknown => ¬ Answerable input ∨ (¬ Held input ∧ Unplaced input)

theorem means_health (crates : Crates) (input : Inputs) : Means input (evaluate crates input).health := by
  rw [health_eq]
  have found := found_freshness input
  generalize (freshnessFor input).1 = freshness, newestOf input = newest at found ⊢
  cases found with
  | within answerable within c =>
      cases isAtRisk crates input (consecutiveFailedSlots input.slots) <;> exact ⟨answerable, within⟩
  | aged answerable held aged c => exact ⟨answerable, held, aged⟩
  | bare answerable bare placed => exact ⟨answerable, bare, placed⟩
  | unread newest unread => exact unread

def Health.isFresh (h : Health) : Prop := h = .healthy ∨ h = .atRisk

theorem means_exclusive {h h' : Health} (means : Means input h) (means' : Means input h') :
    h = h' ∨ (h.isFresh ∧ h'.isFresh) := by
  have held : Within input → Held input := held_of_within
  unfold Health.isFresh
  cases h <;> cases h' <;> simp only [Means] at means means' <;> simp <;> tauto

theorem fresh_iff : (evaluate crates input).health.isFresh ↔ Answerable input ∧ Within input := by
  have means := means_health crates input
  constructor
  · rintro (healthy | atRisk)
    · rwa [healthy] at means
    · rwa [atRisk] at means
  · intro fresh
    have healthy : Means input .healthy := fresh
    rcases means_exclusive means healthy with same | both
    · exact .inl same
    · exact both.1

theorem health_iff_of_not_fresh {h : Health} (settled : ¬ h.isFresh) :
    (evaluate crates input).health = h ↔ Means input h := by
  have means := means_health crates input
  constructor
  · intro same
    rwa [same] at means
  · intro meant
    rcases means_exclusive means meant with same | both
    · exact same
    · exact absurd both.2 settled

theorem stale_iff : (evaluate crates input).health = .stale ↔
    Answerable input ∧ Held input ∧ ¬ Within input :=
  health_iff_of_not_fresh (by simp [Health.isFresh])

theorem unprotected_iff : (evaluate crates input).health = .unprotected ↔
    Answerable input ∧ ¬ Held input ∧ ¬ Unplaced input :=
  health_iff_of_not_fresh (by simp [Health.isFresh])

theorem unknown_iff : (evaluate crates input).health = .unknown ↔
    ¬ Answerable input ∨ (¬ Held input ∧ Unplaced input) :=
  health_iff_of_not_fresh (by simp [Health.isFresh])

def Inputs.withCandidates (input : Inputs) (candidates : List PointCandidate) : Inputs :=
  { input with candidates }

variable {before after : List PointCandidate}

theorem answerable_withCandidates {candidates : List PointCandidate} :
    Answerable (input.withCandidates candidates) ↔ Answerable input := by
  rw [answerable_iff, answerable_iff]
  rfl

theorem mem_without {d : PointCandidate} (member : d ∈ before ++ after) : d ∈ before ++ c :: after := by
  rcases List.mem_append.mp member with earlier | later
  · exact List.mem_append_left _ earlier
  · exact List.mem_append_right _ (List.mem_cons_of_mem c later)

theorem within_adding (within : Within (input.withCandidates (before ++ after))) :
    Within (input.withCandidates (before ++ c :: after)) := by
  obtain ⟨d, candidate, t, held, young⟩ := within
  exact ⟨d, mem_without candidate, t, held, young⟩

theorem healthOf_fresh {freshness : Freshness} {atRisk : Bool} {newest : Option PointCandidate}
    (fresh : (healthOf freshness atRisk newest).isFresh) : freshness = .fresh := by
  unfold Health.isFresh healthOf at fresh
  cases freshness <;> cases newest <;> simp at fresh ⊢

theorem health_adding (c : PointCandidate)
    (fresh : (evaluate crates (input.withCandidates (before ++ after))).health.isFresh) :
    (evaluate crates (input.withCandidates (before ++ c :: after))).health =
      (evaluate crates (input.withCandidates (before ++ after))).health := by
  obtain ⟨answerable, within⟩ := fresh_iff.mp fresh
  have added : (evaluate crates (input.withCandidates (before ++ c :: after))).health.isFresh :=
    fresh_iff.mpr ⟨answerable_withCandidates.mpr (answerable_withCandidates.mp answerable),
      within_adding within⟩
  rw [health_eq] at fresh added ⊢
  rw [health_eq, healthOf_fresh fresh, healthOf_fresh added]
  rfl

theorem refused_not_available (catalog : CatalogAnswer)
    (verified : spec.objectives.requireVerifiedEvidence = true)
    (refused : c.evidence = .untrusted ∨ c.evidence = .invalid) :
    isAvailable c spec catalog = false ∧ isUnplaceable c spec = false := by
  have unread : c.evidence.wasReached = true ∧ c.evidence.isVerified = false := by
    rcases refused with untrusted | invalid
    · rw [untrusted]
      exact ⟨rfl, rfl⟩
    · rw [invalid]
      exact ⟨rfl, rfl⟩
  have unmet : ∀ row, evidenceObjectiveMet c spec row = false := fun row => by
    simp [evidenceObjectiveMet, verified, unread]
  constructor
  · unfold isAvailable
    cases catalog <;> simp [unmet]
  · simp [isUnplaceable, unread]

theorem freshnessFor_refused (before after : List PointCandidate)
    (verified : input.spec.objectives.requireVerifiedEvidence = true)
    (refused : c.evidence = .untrusted ∨ c.evidence = .invalid) :
    freshnessFor (input.withCandidates (before ++ c :: after)) =
        freshnessFor (input.withCandidates (before ++ after)) ∧
      newestOf (input.withCandidates (before ++ c :: after)) =
        newestOf (input.withCandidates (before ++ after)) := by
  have passed : ∀ catalog, availableOf (before ++ c :: after) input.spec catalog =
      availableOf (before ++ after) input.spec catalog := fun catalog => by
    simp [availableOf, (refused_not_available catalog verified refused).1]
  have placed : ((before ++ c :: after).any fun d => isUnplaceable d input.spec) =
      (before ++ after).any fun d => isUnplaceable d input.spec := by
    simp [(refused_not_available .notConsulted verified refused).2]
  have newest : newestOf (input.withCandidates (before ++ c :: after)) =
      newestOf (input.withCandidates (before ++ after)) :=
    congrArg (fun listed => (newestFirst listed).head?) (passed (consultedCatalog input))
  refine ⟨?_, newest⟩
  have reason : ∀ found, unresolvable (input.withCandidates (before ++ c :: after))
        (consultedCatalog input) found =
      unresolvable (input.withCandidates (before ++ after)) (consultedCatalog input) found :=
    fun found => by
      unfold unresolvable schedulesMissing Inputs.withCandidates
      dsimp only
      rw [placed]
  unfold freshnessFor
  rw [newest]
  exact congrArg (fun found => freshnessOf input found _ _) (reason _)

/-- Each health is exactly a fact about the evidence. A refused candidate changes nothing where
evidence must be verified, no candidate takes a fresh policy's health away, and a recoverable
one never leaves the policy unprotected, or unknown where it was not. -/
theorem evaluate_says_the_evidence (crates : Crates) (input : Inputs)
    (before after : List PointCandidate) (c : PointCandidate) :
    ((evaluate crates input).health.isFresh ↔ Answerable input ∧ Within input) ∧
    ((evaluate crates input).health = .stale ↔ Answerable input ∧ Held input ∧ ¬ Within input) ∧
    ((evaluate crates input).health = .unprotected ↔
      Answerable input ∧ ¬ Held input ∧ ¬ Unplaced input) ∧
    ((evaluate crates input).health = .unknown ↔
      ¬ Answerable input ∨ (¬ Held input ∧ Unplaced input)) ∧
    (input.spec.objectives.requireVerifiedEvidence = true ∧
        (c.evidence = .untrusted ∨ c.evidence = .invalid) →
      (evaluate crates (input.withCandidates (before ++ c :: after))).health =
        (evaluate crates (input.withCandidates (before ++ after))).health) ∧
    ((evaluate crates (input.withCandidates (before ++ after))).health.isFresh →
      (evaluate crates (input.withCandidates (before ++ c :: after))).health =
        (evaluate crates (input.withCandidates (before ++ after))).health) ∧
    ((∃ t, RecoverableFrom input c t) →
      (evaluate crates (input.withCandidates (before ++ c :: after))).health ≠ .unprotected ∧
      ((evaluate crates (input.withCandidates (before ++ c :: after))).health = .unknown →
        (evaluate crates (input.withCandidates (before ++ after))).health = .unknown)) := by
  refine ⟨fresh_iff, stale_iff, unprotected_iff, unknown_iff, ?_, health_adding c, ?_⟩
  · rintro ⟨verified, refused⟩
    obtain ⟨found, newest⟩ := freshnessFor_refused before after verified refused
    rw [health_eq, health_eq, found, newest]
    rfl
  · rintro ⟨t, recoverable⟩
    have held : Held (input.withCandidates (before ++ c :: after)) :=
      ⟨c, List.mem_append_right _ List.mem_cons_self, t, recoverable⟩
    refine ⟨fun bare => (unprotected_iff.mp bare).2.1 held, fun unknown => ?_⟩
    rcases unknown_iff.mp unknown with unread | ⟨bare, -⟩
    · refine unknown_iff.mpr (.inl fun answerable => unread ?_)
      exact answerable_withCandidates.mpr (answerable_withCandidates.mp answerable)
    · exact absurd held bare

def capturedAtEpoch : PointCandidate :=
  { phase := some "Succeeded", exitCode := some 0, evidence := .valid, coversAllTopics := true,
    sourceMatches := true, destinationMatches := true, recoveryPointAt := some 0 }

def unscheduled : Inputs :=
  { spec := { objectives := { maxRecoveryPointAgeSeconds := 600 } },
    candidates := [capturedAtEpoch], now := 600500000000 }

/-- It is fresh, with no schedule, and with its only capture start older than the objective. -/
theorem unscheduled_fresh : (evaluate ⟨fun _ => none⟩ unscheduled).health.isFresh ∧
    (¬ ∃ s ∈ unscheduled.schedules, s.exists = true) ∧
    ∀ c ∈ unscheduled.candidates, ∀ t, c.recoveryPointAt = some t →
      unscheduled.spec.objectives.maxRecoveryPointAgeSeconds * 1000000000 < unscheduled.now - t := by
  refine ⟨?_, by simp [unscheduled], ?_⟩
  · refine fresh_iff.mpr ⟨answerable_iff.mpr ⟨rfl, rfl, rfl, rfl, ?_, rfl⟩,
      ⟨capturedAtEpoch, by decide, 0, ⟨isAvailable_iff.mp (by decide), rfl⟩, by decide⟩⟩
    intro reason stale
    cases stale
  · decide

end Logweir.Protection
