import Logweir.Library.Base64
import Logweir.Library.CompactJson
import Logweir.Library.Fields
import Mathlib.Algebra.Group.Int.Defs

/-!
# Problems

The errors the API answers with, and how a failed Kubernetes call becomes one.
-/

set_option autoImplicit false

namespace Logweir.Api

inductive ProblemCode where
  | malformedRequest | idempotencyKeyRequired | idempotencyKeyInvalid | cursorInvalid | notFound
  | idempotencyConflict | stateConflict | resultIntegrityFailed | cursorExpired | validationFailed
  | rateLimited | internalError | kubernetesUnavailable | upstreamTimeout
  deriving DecidableEq

structure FieldError where
  field : String
  code : String
  message : String
  deriving DecidableEq

structure ApiError where
  code : ProblemCode
  detail : String
  errors : List FieldError := []
  retryAfterSeconds : Option Nat := none
  deriving DecidableEq

namespace ApiError

def validation (errors : List FieldError) : ApiError where
  code := .validationFailed
  detail := "One or more fields are invalid."
  errors

def notFound : ApiError where
  code := .notFound
  detail := "No such resource."

end ApiError

structure SpecRule where
  field : String
  code : String
  message : String
  deriving DecidableEq

inductive KubeFailure where
  | notFound
  | alreadyExists
  | conflict
  | gone
  | invalid
  | ruleRefused (rule : SpecRule)
  | badRequest
  | refused (status : Nat)
  | tooManyRequests
  | timeout
  | unavailable
  | unattributed
  deriving DecidableEq

def KubeFailure.intoApiError : KubeFailure → ApiError
  | .notFound => .notFound
  | .alreadyExists | .conflict =>
      { code := .stateConflict
        detail := "The object changed concurrently; read it again and retry." }
  | .gone =>
      { code := .cursorExpired
        detail := "The list snapshot expired; restart the list without a cursor." }
  | .ruleRefused rule => .validation [⟨rule.field, rule.code, rule.message⟩]
  | .invalid | .badRequest =>
      { code := .validationFailed
        detail := "Kubernetes rejected the object. The rejection details are recorded in the " ++
          "service log under this request ID." }
  | .refused status =>
      { code := .kubernetesUnavailable
        detail := "Kubernetes refused this service's own identity (HTTP " ++ toString status ++
          "); check the service's Kubernetes permissions." }
  | .tooManyRequests =>
      { code := .rateLimited
        detail := "Kubernetes is throttling requests; retry after the indicated delay."
        retryAfterSeconds := some 1 }
  | .timeout =>
      { code := .upstreamTimeout
        detail := "The Kubernetes call exceeded its 10-second deadline." }
  | .unavailable =>
      { code := .kubernetesUnavailable
        detail := "Kubernetes could not be reached." }
  | .unattributed =>
      { code := .internalError
        detail := "The object was not created: the request carries no attributed actor." }

end Logweir.Api

/-!
## Cursors

`logweir_api::cursor`: a continue token sealed for one actor, route, workspace
and filter set, and opened again within fifteen minutes.  The digests and
`serde_json`'s reader are parameters.
-/

namespace Logweir.Api

open Logweir.Text Logweir.Json

def CURSOR_TTL_SECONDS : Int := 15 * 60

def MAX_CURSOR_LEN : Nat := 4096

def VERSION : UInt8 := 1

structure DateTime where
  timestamp : Int
  bounded : -10000000000000 < timestamp ∧ timestamp < 10000000000000

structure CursorScope where
  actorId : String
  route : String
  workspace : String
  filters : String

structure Payload where
  v : UInt8
  a : String
  r : String
  n : String
  f : String
  e : Int
  c : String

def Payload.json (p : Payload) : Json :=
  .obj [("v", .num p.v.toNat), ("a", .str p.a), ("r", .str p.r), ("n", .str p.n), ("f", .str p.f),
    ("e", .num p.e), ("c", .str p.c)]

inductive CursorError where
  | invalid
  | expired
  deriving DecidableEq

structure Crates where
  sha256 : List UInt8 → List UInt8
  /-- HMAC-SHA256 of a key and a message. -/
  mac : List UInt8 → List UInt8 → List UInt8
  /-- `serde_json::from_slice::<Payload>`. -/
  payloadFromSlice : List UInt8 → Option Payload

/-- What those crates document: the digests' sizes, and a reader that reads what
the writer wrote. -/
structure Crates.Documented (crates : Crates) : Prop where
  sha256_length : ∀ bytes, (crates.sha256 bytes).length = 32
  mac_length : ∀ key bytes, (crates.mac key bytes).length = 32
  read_back : ∀ p : Payload, -2 ^ 63 ≤ p.e → p.e < 2 ^ 63 →
    crates.payloadFromSlice (toVec p.json) = some p

variable (crates : Crates) (key : List UInt8)

def actorDigest (actorId : String) : String := hexEncode (crates.sha256 (utf8 actorId.toList))

def sealedPayload (scope : CursorScope) (continueToken : String) (now : DateTime) : Payload where
  v := VERSION
  a := actorDigest crates scope.actorId
  r := scope.route
  n := scope.workspace
  f := scope.filters
  e := now.timestamp + CURSOR_TTL_SECONDS
  c := continueToken

/-- `cursor::seal`. -/
def seal_ (scope : CursorScope) (continueToken : String) (now : DateTime) : String :=
  let bytes := toVec (sealedPayload crates scope continueToken now).json
  Base64.encode bytes ++ "." ++ Base64.encode (crates.mac key bytes)

/-- `cursor::open`: the MAC, then the scope, then the clock. -/
def open_ (scope : CursorScope) (cursor : String) (now : DateTime) : Except CursorError String :=
  if cursor.isEmpty ∨ MAX_CURSOR_LEN < cursor.utf8ByteSize then .error .invalid
  else
    match splitOnce '.' cursor with
    | none => .error .invalid
    | some (payloadB64, tagB64) =>
        match Base64.decode payloadB64 with
        | none => .error .invalid
        | some payload =>
            match Base64.decode tagB64 with
            | none => .error .invalid
            | some tag =>
                if crates.mac key payload ≠ tag then .error .invalid
                else
                  match crates.payloadFromSlice payload with
                  | none => .error .invalid
                  | some payload =>
                      if payload.v ≠ VERSION ∨ payload.a ≠ actorDigest crates scope.actorId ∨
                          payload.r ≠ scope.route ∨ payload.n ≠ scope.workspace ∨
                          payload.f ≠ scope.filters ∨ payload.c.isEmpty then
                        .error .invalid
                      else if payload.e ≤ now.timestamp then .error .expired
                      else .ok payload.c

theorem payload_json_injective {p p' : Payload} (same : p.json = p'.json) : p = p' := by
  cases p
  cases p'
  simp only [Payload.json, Json.Json.obj.injEq, List.cons.injEq, Prod.mk.injEq, true_and,
    Json.Json.num.injEq, Json.Json.str.injEq, and_true, Int.natCast_inj, UInt8.toNat_inj] at same
  obtain ⟨rfl, rfl, rfl, rfl, rfl, rfl, rfl⟩ := same
  rfl

theorem splitOnce_seal (scope : CursorScope) (continueToken : String) (now : DateTime) :
    let bytes := toVec (sealedPayload crates scope continueToken now).json
    splitOnce '.' (seal_ crates key scope continueToken now) =
      some (Base64.encode bytes, Base64.encode (crates.mac key bytes)) := by
  have dot : ".".toList = ['.'] := by decide
  rw [splitOnce, seal_, String.toList_append, String.toList_append, dot, List.append_assoc,
    List.singleton_append, splitOnceChars_append (Base64.dot_not_mem_encode _)]
  simp only [Option.map_some, String.ofList_toList]

theorem open_seal (documented : crates.Documented) {scope : CursorScope} {continueToken : String}
    {issued now : DateTime} (token : continueToken ≠ "")
    (short : (seal_ crates key scope continueToken issued).utf8ByteSize ≤ MAX_CURSOR_LEN)
    (fresh : now.timestamp < issued.timestamp + CURSOR_TTL_SECONDS) :
    open_ crates key scope (seal_ crates key scope continueToken issued) now =
      .ok continueToken := by
  have lower := issued.bounded.1
  have upper := issued.bounded.2
  have ttl : CURSOR_TTL_SECONDS = 900 := rfl
  have parts := splitOnce_seal crates key scope continueToken issued
  have dotted : ¬((seal_ crates key scope continueToken issued).isEmpty = true) := by
    intro empty
    rw [String.isEmpty_iff] at empty
    rw [empty] at parts
    exact nomatch parts
  have read := documented.read_back (sealedPayload crates scope continueToken issued)
    (by simp only [sealedPayload]; omega) (by simp only [sealedPayload]; omega)
  unfold open_
  rw [if_neg (not_or.mpr ⟨dotted, Nat.not_lt.mpr short⟩), parts]
  simp only [Base64.decode_encode, ne_eq, not_true_eq_false, if_false, read]
  have nonempty : ¬(continueToken.isEmpty = true) := fun empty => token (String.isEmpty_iff.mp empty)
  have later : ¬(issued.timestamp + CURSOR_TTL_SECONDS ≤ now.timestamp) := Int.not_le.mpr fresh
  simp only [sealedPayload, not_true_eq_false, false_or, nonempty, Bool.false_eq_true, if_false,
    later]

def escaped (s : String) : Nat := (s.toList.map escapedBytes).sum

theorem escaped_append (s t : String) : escaped (s ++ t) = escaped s + escaped t := by
  rw [escaped, String.toList_append, List.map_append, List.sum_append, escaped, escaped]

theorem escaped_le (s : String) : escaped s ≤ 6 * s.utf8ByteSize := by
  rw [← length_utf8_toList]
  exact escapedBytes_le s.toList

theorem escaped_plain {s : String} (plain : ∀ c ∈ s.toList, 32 ≤ c.toNat) :
    escaped s = 2 * s.utf8ByteSize := by
  rw [← length_utf8_toList]
  exact escapedBytes_plain s.toList plain

theorem length_utf8_compactMembers (members : List (String × Json)) :
    (utf8 (compactMembers members)).length ≤
      (members.map fun m => escaped m.1 + 4 + (utf8 (compact m.2)).length).sum := by
  induction members with
  | nil => exact Nat.le_refl 0
  | cons member members ih =>
      obtain ⟨name, value⟩ := member
      have named : (utf8 (quote name)).length ≤ escaped name + 2 := length_utf8_quote name
      have comma : (utf8 (if members.isEmpty then [] else [','])).length ≤ 1 := by
        split <;> decide
      have colon : ':'.utf8Size = 1 := rfl
      rw [compactMembers, utf8_append, utf8_append, utf8_append, List.length_append,
        List.length_append, List.length_append, length_utf8_cons]
      simp only [List.map_cons, List.sum_cons]
      omega

theorem length_utf8_digits {n k : Nat} (pos : 0 < k) (small : n < 10 ^ k) :
    (utf8 n.repr.toList).length ≤ k := by
  have digit {c : Char} (member : c ∈ Nat.toDigits 10 n) : c.isDigit = true :=
    Nat.isDigit_of_mem_toDigits (by decide) (by decide) member
  rw [Nat.toList_repr, length_utf8_ascii _ fun c member => ascii_of_isDigit (digit member)]
  exact (Nat.length_toDigits_le_iff (by decide) pos).mpr small

theorem length_utf8_expiry {e : Int} (bounded : -10 ^ 14 < e ∧ e < 10 ^ 14) :
    (utf8 (toString e).toList).length ≤ 15 := by
  rw [Int.toString_eq_repr, Int.repr_eq_if]
  split_ifs with positive
  · have digits := length_utf8_digits (n := e.toNat) (k := 14) (by decide) (by omega)
    omega
  · have digits := length_utf8_digits (n := (-e).toNat) (k := 14) (by decide) (by omega)
    rw [String.toList_append, utf8_append, List.length_append]
    have sign : (utf8 "-".toList).length = 1 := by decide
    omega

theorem escaped_hexEncode (bytes : List UInt8) : escaped (hexEncode bytes) = 4 * bytes.length := by
  have lower := hexEncode_lower bytes
  have range {c : Char} (hex : (c.isDigit || (decide ('a' ≤ c) && decide (c ≤ 'f'))) = true) :
      32 ≤ c.toNat ∧ c.val ≤ 127 := by
    rcases Bool.or_eq_true_iff.mp hex with digit | letter
    · have low := (Bool.and_eq_true_iff.mp digit).1
      exact ⟨Nat.le_trans (by decide) (UInt32.le_iff_toNat_le.mp (of_decide_eq_true low)),
        ascii_of_isDigit digit⟩
    · simp only [Bool.and_eq_true, decide_eq_true_eq] at letter
      exact ⟨Nat.le_trans (by decide) (UInt32.le_iff_toNat_le.mp letter.1),
        UInt32.le_trans letter.2 (by decide)⟩
  have single := length_utf8_ascii (hexEncode bytes).toList fun c member =>
    (range (lower c member)).2
  have digits := length_hexEncode bytes
  rw [escaped_plain fun c member => (range (lower c member)).1, ← length_utf8_toList, single,
    String.length_toList, digits]
  omega

theorem escaped_actorDigest (documented : crates.Documented) (actorId : String) :
    escaped (actorDigest crates actorId) = 128 := by
  rw [actorDigest, escaped_hexEncode, documented.sha256_length]

theorem escaped_toString {n k : Nat} (pos : 0 < k) (small : n < 10 ^ k) :
    escaped (toString n) ≤ 2 * k := by
  have plain : ∀ c ∈ (toString n).toList, 32 ≤ c.toNat := by
    intro c member
    have low := (Bool.and_eq_true_iff.mp (isDigit_toString c member)).1
    exact Nat.le_trans (by decide) (UInt32.le_iff_toNat_le.mp (of_decide_eq_true low))
  have digits := length_utf8_digits pos small
  rw [length_utf8_toList] at digits
  rw [escaped_plain plain, Nat.toString_eq_repr]
  omega

theorem length_payload (documented : crates.Documented) (scope : CursorScope)
    (continueToken : String) (now : DateTime) :
    (toVec (sealedPayload crates scope continueToken now).json).length ≤
      escaped scope.route + escaped scope.workspace + escaped scope.filters +
        escaped continueToken + 200 := by
  have digest := escaped_actorDigest crates documented scope.actorId
  have expiry := length_utf8_expiry (e := now.timestamp + CURSOR_TTL_SECONDS) (by
    have bounded := now.bounded
    have ttl : CURSOR_TTL_SECONDS = 900 := rfl
    omega)
  have text (s : String) : (utf8 (compact (.str s))).length ≤ escaped s + 2 := length_utf8_quote s
  have a := text (actorDigest crates scope.actorId)
  have r := text scope.route
  have n := text scope.workspace
  have f := text scope.filters
  have c := text continueToken
  have e : (utf8 (compact (.num (now.timestamp + CURSOR_TTL_SECONDS)))).length ≤ 15 := expiry
  have v : (utf8 (compact (.num VERSION.toNat))).length = 1 := by decide
  have names : escaped "v" = 2 ∧ escaped "a" = 2 ∧ escaped "r" = 2 ∧ escaped "n" = 2 ∧
      escaped "f" = 2 ∧ escaped "e" = 2 ∧ escaped "c" = 2 := by decide
  have open_ : '{'.utf8Size = 1 := rfl
  have close : (utf8 ['}']).length = 1 := by decide
  have members := length_utf8_compactMembers
    [("v", .num VERSION.toNat), ("a", .str (actorDigest crates scope.actorId)),
      ("r", .str scope.route), ("n", .str scope.workspace), ("f", .str scope.filters),
      ("e", .num (now.timestamp + CURSOR_TTL_SECONDS)), ("c", .str continueToken)]
  simp only [List.map_cons, List.map_nil, List.sum_cons, List.sum_nil] at members
  rw [toVec, Payload.json, compact, utf8_append, List.length_append, length_utf8_cons]
  simp only [sealedPayload]
  omega

theorem seal_short (documented : crates.Documented) (scope : CursorScope) (continueToken : String)
    (now : DateTime) (small : escaped scope.route + escaped scope.workspace +
      escaped scope.filters + escaped continueToken ≤ 2838) :
    (seal_ crates key scope continueToken now).utf8ByteSize ≤ MAX_CURSOR_LEN := by
  have payload := length_payload crates documented scope continueToken now
  have dot : ".".utf8ByteSize = 1 := rfl
  have limit : MAX_CURSOR_LEN = 4096 := rfl
  rw [seal_, String.utf8ByteSize_append, String.utf8ByteSize_append,
    Base64.utf8ByteSize_encode, Base64.utf8ByteSize_encode, documented.mac_length]
  omega

end Logweir.Api
