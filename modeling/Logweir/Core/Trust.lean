import Mathlib.Data.Set.Basic
import Mathlib.Logic.Relation

/-!
# Key trust

`logweir_core::trust`.  Whether a key may sign something new and whether what it
signed still verifies are two questions with two functions.  `accepts` gives
both one meaning, the set of signing instants a key stands behind at `now`, and
`decide_valid_iff` says the verdict is membership in it.  The main results:
every lifecycle move shrinks the set, and a retirement or supersession never
takes away an instant from before its boundary.  Instants are nanoseconds since
the epoch.
-/

set_option autoImplicit false

namespace Logweir.Trust

inductive KeyUsage where
  | evidenceSigning
  | governedApproval
  | consoleConfirmation
deriving DecidableEq, Repr

inductive KeyState where
  | active
  | retired
  | revoked
deriving DecidableEq, Repr

inductive RevocationReason where
  | keyCompromise
  | superseded
  | unspecified
deriving DecidableEq, Repr

structure TrustedKey where
  keyId : String
  principalId : String
  usages : List KeyUsage
  notBefore : Int
  notAfter : Int
  state : KeyState
  retiredAt : Option Int
  revokedAt : Option Int
  revocationReason : Option RevocationReason
  revocationEffectiveFrom : Option Int
deriving DecidableEq, Repr

def TrustedKey.hasUsage (key : TrustedKey) (usage : KeyUsage) : Bool :=
  key.usages.contains usage

def TrustedKey.reason (key : TrustedKey) : RevocationReason :=
  key.revocationReason.getD .unspecified

def TrustedKey.effective (key : TrustedKey) : Option Int :=
  key.revocationEffectiveFrom.or key.revokedAt

def TrustedKey.bound (key : TrustedKey) : Int :=
  match key.retiredAt with
  | some retired => min key.notAfter retired
  | none => key.notAfter

def TrustedKey.acceptedThrough (key : TrustedKey) : Option Int :=
  match key.state with
  | .active => some key.bound
  | .retired => some key.bound
  | .revoked =>
    match key.reason with
    | .keyCompromise => none
    | .superseded | .unspecified =>
      match key.effective with
      | some effective => some (min key.bound effective)
      | none => some key.bound

/-- Revoked because its private half may be in someone else's hands. -/
def TrustedKey.Compromised (key : TrustedKey) : Prop :=
  key.state = .revoked ∧ key.reason = .keyCompromise

instance (key : TrustedKey) : Decidable key.Compromised :=
  inferInstanceAs (Decidable (_ ∧ _))

inductive EffectiveState where
  | active
  | notYetValid
  | expired
  | retired
  | revoked
  | unparseable
deriving DecidableEq, Repr

inductive VerificationUse where
  | full
  | historical
  | none
deriving DecidableEq, Repr

def effectiveState (key : TrustedKey) (now : Int) : EffectiveState :=
  match key.state with
  | .revoked => .revoked
  | .retired => .retired
  | .active =>
    if now < key.notBefore then .notYetValid
    else if now ≥ key.notAfter then .expired
    else .active

def usableForVerification (key : TrustedKey) (now : Int) : VerificationUse :=
  match effectiveState key now with
  | .active => .full
  | .notYetValid | .unparseable => .none
  | .expired | .retired => .historical
  | .revoked =>
    match key.reason with
    | .keyCompromise => .none
    | .superseded | .unspecified => .historical

inductive SigningRefusal where
  | untrustedSigner
  | keyUsageMismatch
  | keyNotYetValid
  | keyIdExpired
  | keyRetired
  | keyRevoked
deriving DecidableEq, Repr

def maySignNew (key : Option TrustedKey) (usage : KeyUsage) (now : Int) :
    Except SigningRefusal Unit :=
  match key with
  | none => .error .untrustedSigner
  | some key =>
    if !key.hasUsage usage then .error .keyUsageMismatch
    else
      match key.state with
      | .retired => .error .keyRetired
      | .revoked => .error .keyRevoked
      | .active =>
        if now < key.notBefore then .error .keyNotYetValid
        else if now ≥ key.notAfter then .error .keyIdExpired
        else .ok ()

inductive TrustKeyState where
  | active
  | retired
  | expired
  | revoked
  | unknown
deriving DecidableEq, Repr

inductive TrustBasis where
  | current
  | historical
  | recordedBeforeRevocation
  | unverified
  | none
deriving DecidableEq, Repr

inductive UntrustReason where
  | untrustedSigner
  | keyUsageMismatch
  | signedOutsideValidity
  | recordedBeforeRevocation
  | revoked
deriving DecidableEq, Repr

inductive TrustResult where
  | valid
  | untrusted
deriving DecidableEq, Repr

structure Verdict where
  result : TrustResult
  basis : TrustBasis
  keyState : TrustKeyState
  reason : Option UntrustReason
deriving DecidableEq, Repr

def Verdict.valid (basis : TrustBasis) (keyState : TrustKeyState) : Verdict :=
  { result := .valid, basis, keyState, reason := none }

def Verdict.untrusted (reason : UntrustReason) (basis : TrustBasis) (keyState : TrustKeyState) :
    Verdict :=
  { result := .untrusted, basis, keyState, reason := some reason }

def Verdict.undecided (keyState : TrustKeyState) : Verdict :=
  { result := .untrusted, basis := .unverified, keyState, reason := some .signedOutsideValidity }

inductive ClaimAbsence where
  | unknownPayloadType
  | fieldAbsent
  | notRecorded
  | emptyPhases
  | unparseable
deriving DecidableEq, Repr

structure EvidenceClaim where
  signedAt : Option Int
  absence : Option ClaimAbsence
deriving DecidableEq, Repr

def EvidenceClaim.atInstant (signedAt : Int) : EvidenceClaim :=
  { signedAt := some signedAt, absence := none }

structure IndependentObservation where
  observedAt : Option Int
deriving DecidableEq, Repr

def trustKeyState (key : TrustedKey) (now : Int) : TrustKeyState :=
  match effectiveState key now with
  | .active | .notYetValid => .active
  | .expired => .expired
  | .retired => .retired
  | .revoked => .revoked
  | .unparseable => .unknown

def recordedBefore (observation : IndependentObservation) (effective : Option Int) : Bool :=
  match observation.observedAt, effective with
  | some observed, some effective => observed < effective
  | _, _ => false

/-- Does this existing evidence still verify? -/
protected def decide (key : Option TrustedKey) (usage : KeyUsage) (claim : EvidenceClaim)
    (observation : IndependentObservation) (now : Int) : Verdict :=
  match key with
  | none => .untrusted .untrustedSigner .none .unknown
  | some key =>
    let keyState := trustKeyState key now
    let refuse := Verdict.untrusted .signedOutsideValidity .none keyState
    if !key.hasUsage usage then .untrusted .keyUsageMismatch .none keyState
    else if key.Compromised then
      -- The only reads of the observation; the claim is not read here.
      if recordedBefore observation key.effective then
        .untrusted .recordedBeforeRevocation .recordedBeforeRevocation keyState
      else .untrusted .revoked .none keyState
    else if claim.absence = some .notRecorded then .undecided keyState
    else
      match claim.signedAt with
      | none => refuse
      | some signedAt =>
        if signedAt < key.notBefore then refuse
        else if signedAt > now then refuse
        else if effectiveState key now = .notYetValid then refuse
        else if key.state = .active ∧ now < key.notAfter ∧ signedAt < key.notAfter then
          .valid .current keyState
        else
          match key.acceptedThrough with
          | some boundary => if signedAt ≤ boundary then .valid .historical keyState else refuse
          | none => refuse

def TrustedKey.accepts (key : TrustedKey) (now : Int) : Set Int :=
  {s | key.notBefore ≤ s ∧ s ≤ now ∧
    ((key.state = .active ∧ now < key.notAfter) ∨
      ∃ boundary, key.acceptedThrough = some boundary ∧ s ≤ boundary)}

/-- Inside its window and not retired or revoked. -/
def TrustedKey.OpenAt (key : TrustedKey) (now : Int) : Prop :=
  key.state = .active ∧ key.notBefore ≤ now ∧ now < key.notAfter

variable {key key' : TrustedKey} {usage : KeyUsage} {claim : EvidenceClaim}
  {observation : IndependentObservation} {now t : Int}

theorem not_compromised_of_active (active : key.state = .active) : ¬ key.Compromised := by
  intro lost
  have revoked := lost.1
  rw [active] at revoked
  cases revoked

theorem effectiveState_eq_notYetValid :
    effectiveState key now = .notYetValid ↔ key.state = .active ∧ now < key.notBefore := by
  unfold effectiveState
  cases key.state with
  | active =>
      by_cases early : now < key.notBefore
      · simp [early]
      · by_cases late : now ≥ key.notAfter <;> simp [early, late]
  | retired => simp
  | revoked => simp

theorem effectiveState_eq_active : effectiveState key now = .active ↔ key.OpenAt now := by
  unfold effectiveState TrustedKey.OpenAt
  cases key.state with
  | active =>
      by_cases early : now < key.notBefore
      · simp [early]
      · by_cases late : now ≥ key.notAfter
        · simp [early, late]
        · simp only [early, late, if_false, true_and, true_iff]
          omega
  | retired => simp
  | revoked => simp

theorem usage_of_valid
    (h : (Trust.decide (some key) usage claim observation now).result = .valid) :
    key.hasUsage usage = true ∧ ¬ key.Compromised ∧ claim.absence ≠ some .notRecorded := by
  unfold Trust.decide at h
  by_cases carries : key.hasUsage usage = true
  · by_cases lost : key.Compromised
    · by_cases early : recordedBefore observation key.effective = true <;>
        simp [carries, lost, early, Verdict.untrusted] at h
    · by_cases unread : claim.absence = some .notRecorded
      · simp [carries, lost, unread, Verdict.undecided] at h
      · exact ⟨carries, lost, unread⟩
  · simp [carries, Verdict.untrusted] at h

theorem decide_claimed (observation : IndependentObservation) (now : Int)
    (carries : key.hasUsage usage = true) (safe : ¬ key.Compromised)
    (recorded : claim.absence ≠ some .notRecorded) {s : Int} (claimed : claim.signedAt = some s) :
    ((s ∈ key.accepts now ∧ key.OpenAt now) ∧ Trust.decide (some key) usage claim observation now =
        .valid .current (trustKeyState key now)) ∨
      ((s ∈ key.accepts now ∧ ¬ key.OpenAt now) ∧
        Trust.decide (some key) usage claim observation now =
          .valid .historical (trustKeyState key now)) ∨
      (s ∉ key.accepts now ∧ Trust.decide (some key) usage claim observation now =
        .untrusted .signedOutsideValidity .none (trustKeyState key now)) := by
  unfold Trust.decide
  simp only [carries, safe, recorded, claimed, Bool.not_true, Bool.false_eq_true, if_false]
  by_cases before : s < key.notBefore
  · right; right
    exact ⟨fun h => absurd h.1 (Int.not_le.mpr before), by simp [before]⟩
  by_cases future : s > now
  · right; right
    exact ⟨fun h => absurd h.2.1 (Int.not_le.mpr future), by simp [before, future]⟩
  have inWindow : key.notBefore ≤ s ∧ s ≤ now := ⟨Int.not_lt.mp before, Int.not_lt.mp future⟩
  -- The third row is subsumed by the first two.
  have opened : effectiveState key now ≠ .notYetValid := by
    intro early
    have := (effectiveState_eq_notYetValid.mp early).2
    omega
  by_cases current : key.OpenAt now
  · left
    have within : s < key.notAfter := Int.lt_of_le_of_lt inWindow.2 current.2.2
    refine ⟨⟨⟨inWindow.1, inWindow.2, .inl ⟨current.1, current.2.2⟩⟩, current⟩, ?_⟩
    simp [before, future, opened, current.1, current.2.2, within]
  · right
    have closed : ¬ (key.state = .active ∧ now < key.notAfter) := fun h =>
      current ⟨h.1, Int.le_trans inWindow.1 inWindow.2, h.2⟩
    have row : ¬ (key.state = .active ∧ now < key.notAfter ∧ s < key.notAfter) := fun h =>
      closed ⟨h.1, h.2.1⟩
    simp only [before, future, opened, row, if_false]
    cases through : key.acceptedThrough with
    | none =>
        right
        refine ⟨?_, rfl⟩
        rintro ⟨-, -, active | ⟨boundary, found, -⟩⟩
        · exact closed active
        · rw [through] at found
          cases found
    | some boundary =>
        by_cases inside : s ≤ boundary
        · left
          refine ⟨⟨⟨inWindow.1, inWindow.2, .inr ⟨boundary, through, inside⟩⟩, current⟩, ?_⟩
          simp [inside]
        · right
          refine ⟨?_, by simp [inside]⟩
          rintro ⟨-, -, active | ⟨other, found, le⟩⟩
          · exact closed active
          · rw [through] at found
            cases found
            exact inside le

theorem decide_valid_iff :
    (Trust.decide (some key) usage claim observation now).result = .valid ↔
      key.hasUsage usage = true ∧ ¬ key.Compromised ∧ claim.absence ≠ some .notRecorded ∧
        ∃ s, claim.signedAt = some s ∧ s ∈ key.accepts now := by
  constructor
  · intro h
    obtain ⟨carries, safe, recorded⟩ := usage_of_valid h
    refine ⟨carries, safe, recorded, ?_⟩
    cases claimed : claim.signedAt with
    | none =>
        simp [Trust.decide, carries, safe, recorded, claimed, Verdict.untrusted] at h
    | some s =>
        refine ⟨s, rfl, ?_⟩
        rcases decide_claimed observation now carries safe recorded
          claimed with ⟨⟨accepted, -⟩, -⟩ | ⟨⟨accepted, -⟩, -⟩ | ⟨-, refused⟩
        · exact accepted
        · exact accepted
        · rw [refused] at h
          cases h
  · rintro ⟨carries, safe, recorded, s, claimed, accepted⟩
    rcases decide_claimed observation now carries safe recorded
      claimed with ⟨-, valid⟩ | ⟨-, valid⟩ | ⟨refused, -⟩
    · rw [valid]
      rfl
    · rw [valid]
      rfl
    · exact absurd accepted refused

theorem basis_of_valid
    (h : (Trust.decide (some key) usage claim observation now).result = .valid) :
    (key.OpenAt now ∧ (Trust.decide (some key) usage claim observation now).basis = .current) ∨
      (¬ key.OpenAt now ∧
        (Trust.decide (some key) usage claim observation now).basis = .historical) := by
  obtain ⟨carries, safe, recorded, s, claimed, accepted⟩ := decide_valid_iff.mp h
  rcases decide_claimed observation now carries safe recorded
    claimed with ⟨⟨-, current⟩, valid⟩ | ⟨⟨-, closed⟩, valid⟩ | ⟨refused, -⟩
  · exact .inl ⟨current, by rw [valid]; rfl⟩
  · exact .inr ⟨closed, by rw [valid]; rfl⟩
  · exact absurd accepted refused

/-- The declared state only moves from `Active` to `Retired`, and from either to `Revoked`. -/
inductive KeyState.MovesTo : KeyState → KeyState → Prop where
  | stays (state : KeyState) : MovesTo state state
  | retires : MovesTo .active .retired
  | revokes (state : KeyState) : MovesTo state .revoked

theorem KeyState.MovesTo.revoked_stays {state : KeyState} (h : MovesTo .revoked state) :
    state = .revoked := by
  cases h <;> rfl

theorem KeyState.MovesTo.active_only {state : KeyState} (h : MovesTo state .active) :
    state = .active := by
  cases h
  rfl

/-- One edit of a key: the window and the usages stand, and each instant and
reason of the lifecycle is set once. -/
structure Move (before after : TrustedKey) : Prop where
  state : before.state.MovesTo after.state
  usages : after.usages = before.usages
  notBefore : after.notBefore = before.notBefore
  notAfter : after.notAfter = before.notAfter
  retiredAt : ∀ r, before.retiredAt = some r → after.retiredAt = some r
  reason : ∀ r, before.revocationReason = some r → after.revocationReason = some r
  effective : ∀ e, before.effective = some e → after.effective = some e

/-- `after` is `before` some lifecycle moves later. -/
def Later : TrustedKey → TrustedKey → Prop := Relation.ReflTransGen Move

theorem Move.hasUsage (move : Move key key') : key'.hasUsage usage = key.hasUsage usage := by
  unfold TrustedKey.hasUsage
  rw [move.usages]

theorem Move.compromised (move : Move key key') (lost : key.Compromised) : key'.Compromised := by
  obtain ⟨revoked, reason⟩ := lost
  have recorded : key.revocationReason = some .keyCompromise := by
    unfold TrustedKey.reason at reason
    cases h : key.revocationReason with
    | none =>
        rw [h] at reason
        cases reason
    | some r =>
        rw [h] at reason
        exact congrArg some reason
  constructor
  · have moved := move.state
    rw [revoked] at moved
    exact moved.revoked_stays
  · unfold TrustedKey.reason
    rw [move.reason _ recorded]
    rfl

theorem Move.bound_le (move : Move key key') : key'.bound ≤ key.bound := by
  unfold TrustedKey.bound
  rw [move.notAfter]
  cases retired : key.retiredAt with
  | none => cases key'.retiredAt <;> simp only <;> omega
  | some r => rw [move.retiredAt r retired]

theorem acceptedThrough_of_safe (safe : ¬ key.Compromised) :
    ∃ boundary, key.acceptedThrough = some boundary ∧
      ∀ s, s ≤ boundary ↔
        s ≤ key.bound ∧ (key.state = .revoked → ∀ e, key.effective = some e → s ≤ e) := by
  unfold TrustedKey.acceptedThrough
  cases state : key.state with
  | active => exact ⟨_, rfl, by simp⟩
  | retired => exact ⟨_, rfl, by simp⟩
  | revoked =>
      have spared : key.reason ≠ .keyCompromise := fun lost => safe ⟨state, lost⟩
      cases effective : key.effective with
      | none =>
          cases reason : key.reason with
          | keyCompromise => exact absurd reason spared
          | superseded => exact ⟨_, rfl, by simp⟩
          | unspecified => exact ⟨_, rfl, by simp⟩
      | some e =>
          cases reason : key.reason with
          | keyCompromise => exact absurd reason spared
          | superseded => exact ⟨_, rfl, by simp⟩
          | unspecified => exact ⟨_, rfl, by simp⟩

theorem Move.accepts_subset (move : Move key key') (safe : ¬ key'.Compromised) (now : Int) :
    key'.accepts now ⊆ key.accepts now := by
  rintro s ⟨after, past, row⟩
  rw [move.notBefore] at after
  have spared : ¬ key.Compromised := fun lost => safe (move.compromised lost)
  refine ⟨after, past, ?_⟩
  by_cases open' : key.state = .active ∧ now < key.notAfter
  · exact .inl open'
  right
  rcases row with ⟨active, within⟩ | ⟨boundary', found', le'⟩
  · -- An active key was active before the move, in the same window.
    have moved := move.state
    rw [active] at moved
    rw [move.notAfter] at within
    exact absurd ⟨moved.active_only, within⟩ open'
  · obtain ⟨boundary, found, bounded⟩ := acceptedThrough_of_safe spared
    obtain ⟨boundary'', found'', bounded'⟩ := acceptedThrough_of_safe safe
    rw [found'] at found''
    cases found''
    refine ⟨boundary, found, (bounded s).mpr ⟨?_, ?_⟩⟩
    · exact Int.le_trans ((bounded' s).mp le').1 move.bound_le
    · intro revoked e effective
      have moved := move.state
      rw [revoked] at moved
      exact ((bounded' s).mp le').2 moved.revoked_stays e (move.effective e effective)

theorem Move.valid_before (move : Move key key')
    (h : (Trust.decide (some key') usage claim observation now).result = .valid) :
    (Trust.decide (some key) usage claim observation now).result = .valid := by
  obtain ⟨carries, safe, recorded, s, claimed, accepted⟩ := decide_valid_iff.mp h
  rw [move.hasUsage] at carries
  exact decide_valid_iff.mpr ⟨carries, fun lost => safe (move.compromised lost), recorded, s,
    claimed, move.accepts_subset safe now accepted⟩

theorem Later.valid_before (later : Later key key')
    (h : (Trust.decide (some key') usage claim observation now).result = .valid) :
    (Trust.decide (some key) usage claim observation now).result = .valid := by
  induction later with
  | refl => exact h
  | tail _ move ih => exact ih (move.valid_before h)

theorem Later.window (later : Later key key') :
    key'.notBefore = key.notBefore ∧ key'.notAfter = key.notAfter ∧
      ∀ usage, key'.hasUsage usage = key.hasUsage usage := by
  induction later with
  | refl => exact ⟨rfl, rfl, fun _ => rfl⟩
  | tail _ move ih =>
      obtain ⟨notBefore, notAfter, carries⟩ := ih
      exact ⟨move.notBefore.trans notBefore, move.notAfter.trans notAfter,
        fun usage => move.hasUsage.trans (carries usage)⟩

theorem maySignNew_ok_iff :
    maySignNew (some key) usage t = .ok () ↔ key.hasUsage usage = true ∧ key.OpenAt t := by
  simp only [maySignNew, TrustedKey.OpenAt]
  by_cases carries : key.hasUsage usage = true
  · cases state : key.state with
    | active =>
        by_cases early : t < key.notBefore
        · simp [carries, early]
        · by_cases late : t ≥ key.notAfter
          · simp [carries, early, late]
          · simp [carries, early, late]
            omega
    | retired => simp [carries]
    | revoked => simp [carries]
  · simp [carries]

theorem accepts_of_bounds (safe : ¬ key.Compromised) (after : key.notBefore ≤ t) (past : t ≤ now)
    (within : t < key.notAfter) (retired : ∀ r, key.retiredAt = some r → t ≤ r)
    (effective : key.state = .revoked → ∀ e, key.effective = some e → t ≤ e) :
    t ∈ key.accepts now := by
  obtain ⟨boundary, found, bounded⟩ := acceptedThrough_of_safe safe
  refine ⟨after, past, .inr ⟨boundary, found, (bounded t).mpr ⟨?_, effective⟩⟩⟩
  unfold TrustedKey.bound
  cases at? : key.retiredAt with
  | none => exact Int.le_of_lt within
  | some r => exact Int.le_min.mpr ⟨Int.le_of_lt within, retired r at?⟩

theorem current_of_maySignNew (may : maySignNew (some key) usage t = .ok ()) :
    Trust.decide (some key) usage (.atInstant t) observation t = .valid .current .active := by
  obtain ⟨carries, opened⟩ := maySignNew_ok_iff.mp may
  have safe : ¬ key.Compromised := not_compromised_of_active opened.1
  have state : trustKeyState key t = .active := by
    unfold trustKeyState
    rw [effectiveState_eq_active.mpr opened]
  have accepted : t ∈ key.accepts t :=
    ⟨opened.2.1, Int.le_refl t, .inl ⟨opened.1, opened.2.2⟩⟩
  have recorded : (EvidenceClaim.atInstant t).absence ≠ some .notRecorded := by
    simp [EvidenceClaim.atInstant]
  rcases decide_claimed observation t carries safe recorded rfl with ⟨-, valid⟩ | ⟨⟨-, closed⟩, -⟩ | ⟨refused, -⟩
  · rw [valid, state]
  · exact absurd opened closed
  · exact absurd accepted refused

theorem Later.valid_of_maySignNew (later : Later key key')
    (may : maySignNew (some key) usage t = .ok ()) (past : t ≤ now) (safe : ¬ key'.Compromised)
    (retired : ∀ r, key'.retiredAt = some r → t ≤ r)
    (effective : key'.state = .revoked → ∀ e, key'.effective = some e → t ≤ e) :
    (Trust.decide (some key') usage (.atInstant t) observation now).result = .valid := by
  obtain ⟨carries, -, after, within⟩ := maySignNew_ok_iff.mp may
  obtain ⟨notBefore, notAfter, same⟩ := later.window
  rw [← notBefore] at after
  rw [← notAfter] at within
  refine decide_valid_iff.mpr ⟨(same usage).trans carries, safe, ?_, t, rfl, ?_⟩
  · simp [EvidenceClaim.atInstant]
  · exact accepts_of_bounds safe after past within retired effective

theorem usableForVerification_eq_full :
    usableForVerification key now = .full ↔ key.OpenAt now := by
  rw [← effectiveState_eq_active]
  unfold usableForVerification
  cases effectiveState key now with
  | revoked => cases key.reason <;> simp
  | _ => simp

theorem not_valid_of_usable_none (h : usableForVerification key now = .none) :
    (Trust.decide (some key) usage claim observation now).result ≠ .valid := by
  intro valid
  obtain ⟨-, safe, -, s, -, after, past, -⟩ := decide_valid_iff.mp valid
  unfold usableForVerification at h
  cases state : effectiveState key now <;> rw [state] at h
  · cases h
  · have := (effectiveState_eq_notYetValid.mp state).2
    omega
  · cases h
  · cases h
  · have revoked : key.state = .revoked := by
      unfold effectiveState at state
      cases declared : key.state with
      | active => rw [declared] at state; simp only at state; split_ifs at state
      | retired => rw [declared] at state; cases state
      | revoked => rfl
    cases reason : key.reason <;> rw [reason] at h
    · exact safe ⟨revoked, reason⟩
    · cases h
    · cases h
  · unfold effectiveState at state
    cases declared : key.state <;> rw [declared] at state <;> simp only at state
    · split_ifs at state
    · cases state
    · cases state

theorem Compromised.same_verdict (lost : key.Compromised) (claim claim' : EvidenceClaim) :
    Trust.decide (some key) usage claim observation now =
      Trust.decide (some key) usage claim' observation now := by
  simp only [Trust.decide, lost, if_true]

/-- Trust only narrows: along a key's lifecycle, over time, and in what the status says. -/
theorem key_trust_only_narrows :
    (∀ key key', Later key key' → ∀ usage claim observation now,
      (Trust.decide (some key') usage claim observation now).result = .valid →
        (Trust.decide (some key) usage claim observation now).result = .valid) ∧
    (∀ key, key.Compromised → ∀ usage claim claim' observation now,
      (Trust.decide (some key) usage claim observation now).result ≠ .valid ∧
        Trust.decide (some key) usage claim observation now =
          Trust.decide (some key) usage claim' observation now) ∧
    (∀ key usage t, maySignNew (some key) usage t = .ok () →
      (∀ observation, Trust.decide (some key) usage (.atInstant t) observation t =
        .valid .current .active) ∧
      ((∀ r, key.retiredAt = some r → t ≤ r) → ∀ observation now, t ≤ now →
        (Trust.decide (some key) usage (.atInstant t) observation now).result = .valid) ∧
      (∀ key', Later key key' → ¬ key'.Compromised → (∀ r, key'.retiredAt = some r → t ≤ r) →
        (key'.state = .revoked → ∀ e, key'.effective = some e → t ≤ e) →
        ∀ observation now, t ≤ now →
          (Trust.decide (some key') usage (.atInstant t) observation now).result = .valid)) ∧
    (∀ key now,
      (usableForVerification key now = .none → ∀ usage claim observation,
        (Trust.decide (some key) usage claim observation now).result ≠ .valid) ∧
      (usableForVerification key now = .full → ∀ usage claim observation,
        (Trust.decide (some key) usage claim observation now).result = .valid →
          (Trust.decide (some key) usage claim observation now).basis = .current) ∧
      (usableForVerification key now = .historical → ∀ usage claim observation,
        ¬ ((Trust.decide (some key) usage claim observation now).result = .valid ∧
          (Trust.decide (some key) usage claim observation now).basis = .current))) := by
  refine ⟨?_, ?_, ?_, ?_⟩
  · intro key key' later usage claim observation now valid
    exact later.valid_before valid
  · intro key lost usage claim claim' observation now
    refine ⟨fun valid => ?_, Compromised.same_verdict lost claim claim'⟩
    exact (decide_valid_iff.mp valid).2.1 lost
  · intro key usage t may
    refine ⟨fun _ => current_of_maySignNew may, ?_, ?_⟩
    · intro retired observation now past
      have active : key.state = .active := (maySignNew_ok_iff.mp may).2.1
      apply Later.valid_of_maySignNew Relation.ReflTransGen.refl may past
        (not_compromised_of_active active) retired
      intro revoked
      rw [active] at revoked
      cases revoked
    · intro key' later safe retired effective observation now past
      exact later.valid_of_maySignNew may past safe retired effective
  · intro key now
    refine ⟨?_, ?_, ?_⟩
    · intro none usage claim observation
      exact not_valid_of_usable_none none
    · intro full usage claim observation valid
      rcases basis_of_valid valid with ⟨-, current⟩ | ⟨closed, -⟩
      · exact current
      · exact absurd (usableForVerification_eq_full.mp full) closed
    · intro historical usage claim observation ⟨valid, current⟩
      rcases basis_of_valid valid with ⟨opened, -⟩ | ⟨-, other⟩
      · rw [usableForVerification_eq_full.mpr opened] at historical
        cases historical
      · rw [current] at other
        cases other

def earlyRetirement : TrustedKey where
  keyId := "k"
  principalId := "install:1"
  usages := [.evidenceSigning]
  notBefore := 10
  notAfter := 100
  state := .active
  retiredAt := some 20
  revokedAt := none
  revocationReason := none
  revocationEffectiveFrom := none

/-- While the key is declared `Active` it signs past its `retiredAt`, and what it
signed there stops verifying when the window closes. -/
theorem signed_past_retiredAt_lapses :
    maySignNew (some earlyRetirement) .evidenceSigning 50 = .ok () ∧
      Trust.decide (some earlyRetirement) .evidenceSigning (.atInstant 50) ⟨none⟩ 50 =
        .valid .current .active ∧
      (Trust.decide (some earlyRetirement) .evidenceSigning (.atInstant 50) ⟨none⟩ 100).result =
        .untrusted := by
  refine ⟨rfl, by decide, by decide⟩

theorem retired_after_signing_still_verifies :
    (Trust.decide (some { earlyRetirement with state := .retired }) .evidenceSigning
      (.atInstant 15) ⟨none⟩ 200).result = .valid := by
  have move : Move earlyRetirement { earlyRetirement with state := .retired } :=
    ⟨.retires, rfl, rfl, rfl, fun _ h => h, fun _ h => h, fun _ h => h⟩
  have still := (key_trust_only_narrows.2.2.1 earlyRetirement .evidenceSigning 15 rfl).2.2
  apply still _ (.single move) (by decide) _ (by decide) _ _ (by decide)
  intro r retired
  cases retired
  decide

end Logweir.Trust
