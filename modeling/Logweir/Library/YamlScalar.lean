import Mathlib.Data.List.Basic

/-!
# Double-quoted scalars

What a reader of YAML 1.1 makes of a double-quoted scalar that is on one line: the characters
between the quotes, each its own or the one its escape names.  A character that may not stand in
a stream, or that breaks the line, is none the scalar can hold as it stands.
-/

set_option autoImplicit false

namespace Logweir.YamlScalar

/-- A character that may stand in a stream. -/
def isPrintable (c : Char) : Bool :=
  decide (c.toNat = 0x09 ∨ c.toNat = 0x0a ∨ c.toNat = 0x0d ∨ 0x20 ≤ c.toNat ∧ c.toNat ≤ 0x7e ∨
    c.toNat = 0x85 ∨ 0xa0 ≤ c.toNat ∧ c.toNat ≤ 0xd7ff ∨ 0xe000 ≤ c.toNat ∧ c.toNat ≤ 0xfffd ∨
    0x10000 ≤ c.toNat)

def isBreak (c : Char) : Bool :=
  decide (c.toNat = 0x0a ∨ c.toNat = 0x0d ∨ c.toNat = 0x85 ∨ c.toNat = 0x2028 ∨ c.toNat = 0x2029)

def isPlain (c : Char) : Bool := isPrintable c && !isBreak c

def hexValue (c : Char) : Option Nat :=
  if '0' ≤ c ∧ c ≤ '9' then some (c.toNat - 48)
  else if 'a' ≤ c ∧ c ≤ 'f' then some (c.toNat - 87)
  else if 'A' ≤ c ∧ c ≤ 'F' then some (c.toNat - 55)
  else none

def readHex (digits : List Char) : Option Char :=
  (digits.foldlM (fun n d => (hexValue d).map fun v => 16 * n + v) 0).bind fun n =>
    if n.isValidChar then some (Char.ofNat n) else none

def named : List (Char × Nat) :=
  [('0', 0x00), ('a', 0x07), ('b', 0x08), ('t', 0x09), ('n', 0x0a), ('v', 0x0b), ('f', 0x0c),
    ('r', 0x0d), ('e', 0x1b), (' ', 0x20), ('"', 0x22), ('\\', 0x5c), ('N', 0x85), ('_', 0xa0),
    ('L', 0x2028), ('P', 0x2029)]

/-- The character a code of `k` hexadecimal digits names. -/
def readCode (k : Nat) (rest : List Char) : Option (Char × List Char) :=
  (readHex (rest.take k)).bind fun c => if k ≤ rest.length then some (c, rest.drop k) else none

/-- What an escape names, from the character after the backslash on. -/
def readEscape : List Char → Option (Char × List Char)
  | [] => none
  | 'x' :: rest => readCode 2 rest
  | 'u' :: rest => readCode 4 rest
  | 'U' :: rest => readCode 8 rest
  | e :: rest => (named.lookup e).map fun n => (Char.ofNat n, rest)

/-- One character of the scalar, or its end. -/
inductive Piece where
  | close (rest : List Char)
  | char (c : Char) (rest : List Char)

def readPiece : List Char → Option Piece
  | [] => none
  | '"' :: rest => some (.close rest)
  | '\\' :: rest => (readEscape rest).map fun (c, rest) => .char c rest
  | c :: rest => if isPlain c then some (.char c rest) else none

theorem length_readCode {k : Nat} {cs rest : List Char} {c : Char}
    (read : readCode k cs = some (c, rest)) : rest.length ≤ cs.length := by
  obtain ⟨_, _, kept⟩ := Option.bind_eq_some_iff.mp read
  split at kept
  · cases kept
    rw [List.length_drop]
    exact Nat.sub_le _ _
  · cases kept

theorem length_readEscape {cs rest : List Char} {c : Char} (read : readEscape cs = some (c, rest)) :
    rest.length < cs.length := by
  unfold readEscape at read
  split at read
  · cases read
  · exact Nat.lt_succ_of_le (length_readCode read)
  · exact Nat.lt_succ_of_le (length_readCode read)
  · exact Nat.lt_succ_of_le (length_readCode read)
  · obtain ⟨_, _, same⟩ := Option.map_eq_some_iff.mp read
    cases same
    exact Nat.lt_succ_self _

theorem length_readPiece {cs rest : List Char} {c : Char}
    (read : readPiece cs = some (.char c rest)) : rest.length < cs.length := by
  unfold readPiece at read
  split at read
  · cases read
  · cases read
  · obtain ⟨⟨_, _⟩, escape, same⟩ := Option.map_eq_some_iff.mp read
    cases same
    exact Nat.lt_succ_of_lt (length_readEscape escape)
  · split at read
    · cases read
      exact Nat.lt_succ_self _
    · cases read

/-- The characters up to the closing quote, and what follows it. -/
def readBody (cs : List Char) : Option (List Char × List Char) :=
  match _h : readPiece cs with
  | none => none
  | some (.close rest) => some ([], rest)
  | some (.char c rest) => (readBody rest).map fun (text, rest) => (c :: text, rest)
termination_by cs.length
decreasing_by exact length_readPiece _h

/-- The text of the scalar at the front, and what follows it. -/
def readDouble : List Char → Option (List Char × List Char)
  | '"' :: rest => readBody rest
  | _ => none

theorem readBody_close (rest : List Char) : readBody ('"' :: rest) = some ([], rest) := by
  rw [readBody]
  rfl

theorem readBody_char {cs rest : List Char} {c : Char}
    (read : readPiece cs = some (.char c rest)) :
    readBody cs = (readBody rest).map fun (text, rest) => (c :: text, rest) := by
  rw [readBody, read]

theorem readBody_none {cs : List Char} (read : readPiece cs = none) : readBody cs = none := by
  rw [readBody, read]

/-- A text written piece by piece is read back exactly when the reader takes every character. -/
theorem readBody_flatMap_iff {write : Char → List Char} {Taken : Char → Prop}
    (taken : ∀ c, Taken c → ∀ rest, readPiece (write c ++ rest) = some (.char c rest))
    (refused : ∀ c, ¬ Taken c → ∀ rest, readPiece (write c ++ rest) = none) (rest : List Char) :
    ∀ text : List Char, readBody (text.flatMap write ++ '"' :: rest) = some (text, rest) ↔
      ∀ c ∈ text, Taken c := by
  intro text
  induction text with
  | nil => exact ⟨fun _ c member => absurd member List.not_mem_nil, fun _ => readBody_close rest⟩
  | cons c text ih =>
      rw [List.flatMap_cons, List.append_assoc, List.forall_mem_cons, ← ih]
      by_cases good : Taken c
      · rw [readBody_char (taken c good _)]
        constructor
        · intro read
          obtain ⟨⟨text', rest'⟩, inner, same⟩ := Option.map_eq_some_iff.mp read
          cases same
          exact ⟨good, inner⟩
        · intro both
          rw [both.2]
          rfl
      · rw [readBody_none (refused c good _)]
        exact ⟨fun read => (by cases read), fun both => absurd both.1 good⟩

end Logweir.YamlScalar
