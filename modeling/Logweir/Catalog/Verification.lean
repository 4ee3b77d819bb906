import Logweir.Core.Trust
import Logweir.Library.Text

/-!
# The view's two axes

`weirkeeper::catalog_view`.  Whether a point's bytes can be read is its availability;
what the sync job said about its signature becomes a verification under the
namespace's trust.  A row is selectable on both.
-/

set_option autoImplicit false

namespace Logweir.Catalog

open Logweir.Trust (TrustedKey TrustBasis TrustResult UntrustReason Verdict EvidenceClaim)

inductive Availability where
  | available
  | missing
  | unreadable
  | deleted
  | conflict
  | unsupportedFormat
  | partly
deriving DecidableEq, Repr

def Availability.word : Availability → String
  | .available => "Available"
  | .missing => "Missing"
  | .unreadable => "Unreadable"
  | .deleted => "Deleted"
  | .conflict => "Conflict"
  | .unsupportedFormat => "UnsupportedFormat"
  | .partly => "Partial"

def Availability.selectable (a : Availability) : Bool := a = .available

inductive SignatureVerdict where
  | verified
  | invalid
  | noEvidence
  | notAttempted
deriving DecidableEq, Repr

inductive Verification where
  | verified
  | verifiedHistorical
  | untrustedSigner
  | revoked
  | invalid
  | noEvidence
  | notAttempted
deriving DecidableEq, Repr

def Verification.selectable (v : Verification) : Bool :=
  v = .verified ∨ v = .verifiedHistorical

def selectable (availability : Availability) (verification : Verification) : Bool :=
  availability.selectable && verification.selectable

inductive ViewKeyState where
  | active
  | retired
  | revoked
deriving DecidableEq, Repr

structure TrustKey where
  keyId : String
  lifecycle : Option TrustedKey
  notAfter : Option Int
  state : ViewKeyState
deriving DecidableEq, Repr

structure TrustView where
  keys : List TrustKey
deriving DecidableEq, Repr

def TrustView.key (trust : TrustView) (keyId : String) : Option TrustKey :=
  trust.keys.find? fun k => k.keyId = keyId

inductive ValidBasis where
  | absent
  | current
  | historical
  | unverified
  | refused
deriving DecidableEq, Repr

def ValidBasis.ofWord : Option (Option String) → ValidBasis
  | none => .absent
  | some (some "Current") => .current
  | some (some "Historical") => .historical
  | some (some "Unverified") => .unverified
  | some _ => .refused

def basisWord : TrustBasis → String
  | .current => "Current"
  | .historical => "Historical"
  | .recordedBeforeRevocation => "RecordedBeforeRevocation"
  | .unverified => "Unverified"
  | .none => "None"

def ValidBasis.ofCore (basis : TrustBasis) : ValidBasis := .ofWord (some (some (basisWord basis)))

def refusedVerification (verdict : Verdict) : Verification :=
  match verdict.basis, verdict.reason with
  | _, some .revoked => .revoked
  | _, some .recordedBeforeRevocation => .revoked
  | .recordedBeforeRevocation, _ => .revoked
  | _, some .untrustedSigner => .untrustedSigner
  | _, some .keyUsageMismatch => .untrustedSigner
  | _, _ => .invalid

def verificationOfVerdict (verdict : Verdict) : Verification :=
  if verdict.result = .valid then
    match ValidBasis.ofCore verdict.basis with
    | .absent | .current => .verified
    | .historical => .verifiedHistorical
    | .unverified => .notAttempted
    | .refused => refusedVerification verdict
  else refusedVerification verdict

def decided (lifecycle : TrustedKey) (signedAt : Option Int) (now : Int) : Verification :=
  let claim : EvidenceClaim :=
    match signedAt with
    | none => { signedAt := none, absence := some .fieldAbsent }
    | some signed => EvidenceClaim.atInstant signed
  verificationOfVerdict
    (Trust.decide (some lifecycle) .evidenceSigning claim { observedAt := none } now)

def rosterVerification (key : TrustKey) (signedAt : Option Int) (now : Int) : Verification :=
  if key.state = .revoked then .revoked
  else
    match key.notAfter with
    | some notAfter =>
      if now ≤ notAfter then
        if key.state = .retired then .verifiedHistorical else .verified
      else
        match signedAt with
        | some signed => if signed ≤ notAfter then .verifiedHistorical else .invalid
        | none => .invalid
    | none => if key.state = .retired then .verifiedHistorical else .verified

def classifyVerification (signature : SignatureVerdict) (keyId : Option String)
    (signedAt : Option Int) (trust : TrustView) (now : Int) : Verification :=
  match signature with
  | .invalid => .invalid
  | .noEvidence => .noEvidence
  | .notAttempted => .notAttempted
  | .verified =>
    if trust.keys.isEmpty then .notAttempted
    else
      match keyId.filter fun k => !(Text.trim k).isEmpty with
      -- A verdict that names no key cannot be attributed to one.
      | none => .notAttempted
      | some keyId =>
        match trust.key keyId with
        | none => .untrustedSigner
        | some key =>
          match key.lifecycle with
          | some lifecycle => decided lifecycle signedAt now
          | none => rosterVerification key signedAt now

theorem verified_of_selectable {signature : SignatureVerdict} {keyId : Option String}
    {signedAt : Option Int} {trust : TrustView} {now : Int}
    (passes : (classifyVerification signature keyId signedAt trust now).selectable = true) :
    signature = .verified := by
  cases signature with
  | verified => rfl
  | invalid => cases passes
  | noEvidence => cases passes
  | notAttempted => cases passes

end Logweir.Catalog
