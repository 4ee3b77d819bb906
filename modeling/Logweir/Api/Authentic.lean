import Logweir.Api.Cursor

/-!
# Which cursors open

A sealed cursor opens in its own scope for fifteen minutes, unless it is longer than what is read.
In another scope, or where nobody sealed it, a cursor is invalid and never expired.
-/

set_option autoImplicit false

namespace Logweir.Api

open Logweir.Text Logweir.Json

variable (crates : Crates) (key : List UInt8)

structure Sealing where
  scope : CursorScope
  token : String
  issued : DateTime

def Sealing.cursor (s : Sealing) : String := seal_ crates key s.scope s.token s.issued

def Sealing.payload (s : Sealing) : List UInt8 :=
  toVec (sealedPayload crates s.scope s.token s.issued).json

/-- Nobody who presents a cursor knows the tag of a payload that was not sealed. -/
def Unforged (sealings : Set Sealing) (cursor : String) : Prop :=
  ∀ payload, cursor = Base64.encode payload ++ "." ++ Base64.encode (crates.mac key payload) →
    ∃ s ∈ sealings, s.payload crates = payload

/-- The scope differs in what a cursor is bound to, by the actors' digests for the actors. -/
def CursorScope.Other (scope scope' : CursorScope) : Prop :=
  actorDigest crates scope.actorId ≠ actorDigest crates scope'.actorId ∨
    scope.route ≠ scope'.route ∨ scope.workspace ≠ scope'.workspace ∨
      scope.filters ≠ scope'.filters

theorem open_long {scope : CursorScope} {cursor : String} (long : MAX_CURSOR_LEN < cursor.utf8ByteSize)
    (now : DateTime) : open_ crates key scope cursor now = .error .invalid := by
  rw [open_, if_pos (.inr long)]

theorem parts_of_open {scope : CursorScope} {cursor : String} {now : DateTime}
    (passes : open_ crates key scope cursor now ≠ .error .invalid) :
    ∃ payload, cursor = Base64.encode payload ++ "." ++ Base64.encode (crates.mac key payload) := by
  unfold open_ at passes
  split at passes
  · exact absurd rfl passes
  · split at passes
    · exact absurd rfl passes
    · rename_i payloadB64 tagB64 parts
      split at passes
      · exact absurd rfl passes
      · rename_i payload decoded
        split at passes
        · exact absurd rfl passes
        · rename_i tag decoded'
          split at passes
          · exact absurd rfl passes
          · rename_i same
            rw [ne_eq, not_not] at same
            obtain ⟨⟨before, after⟩, chars, pair⟩ := Option.map_eq_some_iff.mp parts
            obtain ⟨rfl, rfl⟩ := Prod.mk.inj pair
            refine ⟨payload, ?_⟩
            rw [same, Base64.encode_decode decoded, Base64.encode_decode decoded']
            apply String.ext
            rw [splitOnceChars_eq_some chars]
            simp

theorem bound_of_open (documented : crates.Documented) {s : Sealing} {scope : CursorScope}
    {now : DateTime} (passes : open_ crates key scope (s.cursor crates key) now ≠ .error .invalid) :
    ¬ s.scope.Other crates scope := by
  have lower := s.issued.bounded.1
  have upper := s.issued.bounded.2
  have ttl : CURSOR_TTL_SECONDS = 900 := rfl
  have parts := splitOnce_seal crates key s.scope s.token s.issued
  have read := documented.read_back (sealedPayload crates s.scope s.token s.issued)
    (by simp only [sealedPayload]; omega) (by simp only [sealedPayload]; omega)
  unfold open_ at passes
  split at passes
  · exact absurd rfl passes
  · rw [Sealing.cursor, parts] at passes
    simp only [Base64.decode_encode, ne_eq, not_true_eq_false, if_false, read] at passes
    split at passes
    · exact absurd rfl passes
    · rename_i bound
      simp only [sealedPayload, not_true_eq_false, false_or, not_or, not_not] at bound
      rintro (actor | route | workspace | filters)
      · exact actor bound.1
      · exact route bound.2.1
      · exact workspace bound.2.2.1
      · exact filters bound.2.2.2.1

theorem open_seal_expired (documented : crates.Documented) {s : Sealing} {now : DateTime}
    (token : s.token ≠ "") (short : (s.cursor crates key).utf8ByteSize ≤ MAX_CURSOR_LEN)
    (late : s.issued.timestamp + CURSOR_TTL_SECONDS ≤ now.timestamp) :
    open_ crates key s.scope (s.cursor crates key) now = .error .expired := by
  have lower := s.issued.bounded.1
  have upper := s.issued.bounded.2
  have ttl : CURSOR_TTL_SECONDS = 900 := rfl
  have parts := splitOnce_seal crates key s.scope s.token s.issued
  have dotted : ¬((s.cursor crates key).isEmpty = true) := by
    intro empty
    rw [String.isEmpty_iff] at empty
    rw [← Sealing.cursor, empty] at parts
    cases parts
  have read := documented.read_back (sealedPayload crates s.scope s.token s.issued)
    (by simp only [sealedPayload]; omega) (by simp only [sealedPayload]; omega)
  have nonempty : ¬(s.token.isEmpty = true) := fun empty => token (String.isEmpty_iff.mp empty)
  unfold open_
  rw [if_neg (not_or.mpr ⟨dotted, Nat.not_lt.mpr short⟩), Sealing.cursor, parts]
  simp only [Base64.decode_encode, ne_eq, not_true_eq_false, if_false, read]
  simp only [sealedPayload, not_true_eq_false, false_or, nonempty, Bool.false_eq_true, if_false,
    late, if_true]

theorem length_compact_member {name : String} {value : Json} {members : List (String × Json)}
    (member : (name, value) ∈ members) :
    (utf8 (compact value)).length ≤ (utf8 (compactMembers members)).length := by
  induction members with
  | nil => cases member
  | cons other members ih =>
      obtain ⟨name', value'⟩ := other
      rw [compactMembers, utf8_append, utf8_append, utf8_append, List.length_append,
        List.length_append, List.length_append, length_utf8_cons]
      rcases List.mem_cons.mp member with here | later
      · obtain ⟨_, rfl⟩ := Prod.mk.inj here
        omega
      · have rest := ih later
        omega

theorem length_le_quote (s : String) : s.length ≤ (utf8 (quote s)).length := by
  have shown (c : Char) : 1 ≤ (utf8 (escapeChar c)).length := by
    have read := unescapeChar_escapeChar c []
    cases escaped : escapeChar c with
    | nil =>
        rw [escaped] at read
        cases read
    | cons d rest =>
        have pos := d.utf8Size_pos
        rw [length_utf8_cons]
        omega
  have text (chars : List Char) : chars.length ≤ (utf8 (chars.flatMap escapeChar)).length := by
    induction chars with
    | nil => exact Nat.zero_le _
    | cons c chars ih =>
        have pos := shown c
        rw [List.flatMap_cons, utf8_append, List.length_append, List.length_cons]
        omega
  have inner := text s.toList
  rw [quote, utf8_append, List.length_append, length_utf8_cons, ← String.length_toList]
  omega

theorem length_token_lt (s : Sealing) : s.token.length < (s.cursor crates key).utf8ByteSize := by
  have member : ("c", Json.str s.token) ∈
      [("v", .num VERSION.toNat), ("a", .str (actorDigest crates s.scope.actorId)),
        ("r", .str s.scope.route), ("n", .str s.scope.workspace), ("f", .str s.scope.filters),
        ("e", .num (s.issued.timestamp + CURSOR_TTL_SECONDS)), ("c", .str s.token)] := by
    simp
  have inner := Nat.le_trans (length_le_quote s.token) (length_compact_member member)
  have outer : s.token.length ≤ (s.payload crates).length := by
    rw [Sealing.payload, toVec, Payload.json, compact, utf8_append, List.length_append,
      length_utf8_cons]
    simp only [sealedPayload]
    omega
  have dot : ".".utf8ByteSize = 1 := rfl
  rw [Sealing.payload] at outer
  rw [Sealing.cursor, seal_, String.utf8ByteSize_append, String.utf8ByteSize_append,
    Base64.utf8ByteSize_encode]
  omega

open scoped Classical in
noncomputable def writtenPayload (bytes : List UInt8) : Option Payload :=
  if written : ∃ p : Payload, toVec p.json = bytes then some written.choose else none

noncomputable def adaCrates : Crates where
  sha256 _ :=
    [253, 238, 67, 13, 64, 189, 87, 222, 234, 193, 134, 205, 151, 144, 3, 61, 15, 6, 249, 9, 168, 128,
      110, 124, 230, 231, 23, 171, 124, 125, 80, 41]
  mac _ _ :=
    [159, 26, 206, 228, 40, 177, 145, 7, 204, 108, 21, 91, 206, 40, 81, 93, 146, 245, 180, 205, 226,
      253, 64, 68, 108, 10, 3, 105, 24, 31, 222, 3]
  payloadFromSlice := writtenPayload

theorem adaCrates_documented : adaCrates.Documented where
  sha256_length _ := rfl
  mac_length _ _ := rfl
  read_back := by
    intro p _ _
    have written : ∃ p' : Payload, toVec p'.json = toVec p.json := ⟨p, rfl⟩
    have same := payload_json_injective (toVec_injective written.choose_spec)
    exact (dif_pos written).trans (congrArg some same)

def adaKey : List UInt8 := List.replicate 32 7

def adaScope : CursorScope where
  actorId := "ada"
  route := "GET /api/v1/workspaces/{ws}/backups"
  workspace := "team-a"
  filters := ""

def epoch : DateTime := ⟨0, by decide⟩

def nextPage : Sealing := ⟨adaScope, "next", epoch⟩

def lettersPage : Sealing := ⟨adaScope, String.ofList (List.replicate 4096 'a'), epoch⟩

theorem lettersPage_length : lettersPage.token.length = MAX_CURSOR_LEN := by
  rw [lettersPage, String.length_ofList, List.length_replicate]
  rfl

end Logweir.Api
