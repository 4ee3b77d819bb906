import Mathlib.Data.List.Basic
import Logweir.Library.Fields

/-!
# Sealed lines

`logweir_core::runner_line`.  A line a controller acts on is printed with the job's
token before it, on one line whatever it held; `unsealLine` is the only way back, and only
under the same token.
-/

set_option autoImplicit false

namespace Logweir.Runner

open Logweir.Text

def isLowerHex (c : Char) : Bool := c.isDigit || ('a' ≤ c && c ≤ 'f')

def lineTokenMinHex : Nat := 32

def lineTokenMaxHex : Nat := 128

def isToken (text : String) : Bool :=
  lineTokenMinHex ≤ text.utf8ByteSize && text.utf8ByteSize ≤ lineTokenMaxHex &&
    text.toList.all isLowerHex

structure LineToken where
  text : String
  shaped : isToken text = true

def LineToken.parse (text : String) : Option LineToken :=
  if shaped : isToken text = true then some ⟨text, shaped⟩ else none

def utf8 (s : String) : List UInt8 := s.toByteArray.data.toList

def difference (d : UInt8) : List UInt8 → List UInt8 → UInt8
  | a :: own, b :: other => difference (d ||| (a ^^^ b)) own other
  | _, _ => d

def LineToken.matches (token : LineToken) (candidate : String) : Bool :=
  let own := utf8 token.text
  let other := utf8 candidate
  if own.length ≠ other.length then false else difference 0 own other = 0

theorem utf8_inj {s t : String} (same : utf8 s = utf8 t) : s = t := by
  apply String.toByteArray_inj.mp
  apply ByteArray.ext
  exact Array.toList_inj.mp same

theorem difference_eq_zero : ∀ (own other : List UInt8) (d : UInt8), own.length = other.length →
    (difference d own other = 0 ↔ d = 0 ∧ own = other) := by
  intro own
  induction own with
  | nil =>
      intro other d long
      rw [List.eq_nil_of_length_eq_zero long.symm]
      exact ⟨fun zero => ⟨zero, rfl⟩, fun h => h.1⟩
  | cons a own ih =>
      intro other d long
      cases other with
      | nil => cases long
      | cons b other =>
          rw [difference, ih other _ (Nat.succ.inj long), UInt8.or_eq_zero_iff,
            UInt8.xor_eq_zero_iff, List.cons.injEq, and_assoc]

theorem LineToken.matches_iff (token : LineToken) (candidate : String) :
    token.matches candidate = true ↔ candidate = token.text := by
  unfold LineToken.matches
  dsimp only
  by_cases long : (utf8 token.text).length = (utf8 candidate).length
  · rw [if_neg (not_not.mpr long), decide_eq_true_eq, difference_eq_zero _ _ _ long]
    constructor
    · exact fun h => (utf8_inj h.2).symm
    · rintro rfl
      exact ⟨rfl, rfl⟩
  · rw [if_pos long]
    constructor
    · intro none
      cases none
    · rintro rfl
      exact absurd rfl long

theorem LineToken.plain (token : LineToken) {c : Char} (other : isLowerHex c = false) :
    c ∉ token.text.toList := by
  intro member
  have shaped := token.shaped
  unfold isToken at shaped
  have hex := List.all_eq_true.mp (Bool.and_eq_true_iff.mp shaped).2 c member
  rw [hex] at other
  cases other

def oneLineChar (c : Char) : List Char :=
  if c = '\n' then ['\\', 'n']
  else if c = '\r' then ['\\', 'r']
  else if [0xb, 0xc, 0x1c, 0x1d, 0x1e, 0x85, 0x2028, 0x2029].contains c.toNat then
    "\\u\x7b".toList ++ Nat.toDigits 16 c.toNat ++ ['\x7d']
  else [c]

def oneLine (text : String) : String := String.ofList (text.toList.flatMap oneLineChar)

theorem oneLineChar_cases (c : Char) :
    (oneLineChar c = [c] ∧ c ≠ '\n' ∧ c ≠ '\r') ∨
      ∃ rest, oneLineChar c = '\\' :: rest ∧ '\n' ∉ rest ∧ '\r' ∉ rest := by
  unfold oneLineChar
  by_cases feed : c = '\n'
  · exact .inr ⟨['n'], if_pos feed, by decide, by decide⟩
  by_cases ret : c = '\r'
  · exact .inr ⟨['r'], by rw [if_neg feed, if_pos ret], by decide, by decide⟩
  rw [if_neg feed, if_neg ret]
  by_cases breaks : [0xb, 0xc, 0x1c, 0x1d, 0x1e, 0x85, 0x2028, 0x2029].contains c.toNat = true
  · right
    rw [if_pos breaks]
    have known := List.contains_iff_mem.mp breaks
    generalize c.toNat = n at known
    simp only [List.mem_cons, List.not_mem_nil, or_false] at known
    rcases known with rfl | rfl | rfl | rfl | rfl | rfl | rfl | rfl <;>
      exact ⟨_, rfl, by decide, by decide⟩
  · exact .inl ⟨if_neg breaks, feed, ret⟩

theorem oneLine_plain (text : String) :
    '\n' ∉ (oneLine text).toList ∧ '\r' ∉ (oneLine text).toList := by
  unfold oneLine
  rw [String.toList_ofList]
  constructor
  all_goals
    intro member
    obtain ⟨c, -, here⟩ := List.mem_flatMap.mp member
    rcases oneLineChar_cases c with ⟨same, feed, ret⟩ | ⟨rest, same, feed, ret⟩
  · rw [same] at here
    exact feed (List.mem_singleton.mp here).symm
  · rw [same] at here
    rcases List.mem_cons.mp here with mark | later
    · cases mark
    · exact feed later
  · rw [same] at here
    exact ret (List.mem_singleton.mp here).symm
  · rw [same] at here
    rcases List.mem_cons.mp here with mark | later
    · cases mark
    · exact ret later

theorem prefix_oneLine : ∀ {start : List Char} (text : List Char),
    (∀ c ∈ start, oneLineChar c = [c] ∧ c ≠ '\\') →
      (start <+: text.flatMap oneLineChar ↔ start <+: text) := by
  intro start
  induction start with
  | nil => exact fun _ _ => ⟨fun _ => List.nil_prefix, fun _ => List.nil_prefix⟩
  | cons c start ih =>
      intro text plain
      have here := plain c List.mem_cons_self
      have later := fun d member => plain d (List.mem_cons_of_mem c member)
      cases text with
      | nil => exact ⟨fun h => absurd (List.prefix_nil.mp h) (List.cons_ne_nil _ _),
          fun h => absurd (List.prefix_nil.mp h) (List.cons_ne_nil _ _)⟩
      | cons d text =>
          rw [List.flatMap_cons, List.cons_prefix_cons]
          rcases oneLineChar_cases d with ⟨same, -⟩ | ⟨rest, same, -⟩
          · rw [same, List.singleton_append, List.cons_prefix_cons, ih text later]
          · rw [same, List.cons_append, List.cons_prefix_cons]
            constructor
            · rintro ⟨mark, -⟩
              exact absurd mark here.2
            · rintro ⟨equal, -⟩
              subst equal
              have unescaped := same.symm.trans here.1
              exact absurd (List.cons.inj unescaped).1.symm here.2

def sealMark : Char := '@'

def runnerExitPrefix : String := "runner-exit="

def sealedLine (token : LineToken) (line : String) : String :=
  String.ofList (sealMark :: token.text.toList ++ ' ' :: (oneLine line).toList)

def unsealLine (token : LineToken) (line : String) : Option String :=
  match line.toList with
  | [] => none
  | mark :: rest =>
    if mark = sealMark then
      match splitOnceChars ' ' rest with
      | none => none
      | some (candidate, own) =>
        if token.matches (String.ofList candidate) then some (String.ofList own) else none
    else none

def runnerExitLine (code : Nat) : String := runnerExitPrefix ++ toString code

inductive LineScope where
  | refusalDetail
  | everyLine
deriving DecidableEq, Repr

def sealingToken : Option (LineToken × LineScope) → Option LineToken
  | some (token, .everyLine) => some token
  | some (_, .refusalDetail) => none
  | none => none

def inlineLines (token : Option (LineToken × LineScope)) (ls : List String) : String :=
  match sealingToken token with
  | some t => unlines (ls.flatMap fun line => [sealedLine t line, oneLine line])
  | none => unlines (ls.map oneLine)

def finalBlockWith (token : Option (LineToken × LineScope)) (code : Nat)
    (sealedLines plainLines : List String) : String :=
  match sealingToken token with
  | some t =>
    unlines (sealedLines.map (sealedLine t) ++ [sealedLine t (runnerExitLine code)] ++
      plainLines.map oneLine)
  | none => unlines (plainLines.map oneLine)

def finalBlock (token : Option (LineToken × LineScope)) (code : Nat) (ls : List String) : String :=
  finalBlockWith token code ls ls

theorem unsealLine_sealed (token : LineToken) (line : String) :
    unsealLine token (sealedLine token line) = some (oneLine line) := by
  unfold unsealLine sealedLine
  rw [String.toList_ofList, List.cons_append]
  dsimp only
  rw [if_pos rfl, splitOnceChars_append (token.plain (by decide))]
  dsimp only
  rw [String.ofList_toList, String.ofList_toList, if_pos ((token.matches_iff _).mpr rfl)]

theorem unsealLine_other {token token' : LineToken} (other : token.text ≠ token'.text)
    (line : String) : unsealLine token' (sealedLine token line) = none := by
  unfold unsealLine sealedLine
  rw [String.toList_ofList, List.cons_append]
  dsimp only
  rw [if_pos rfl, splitOnceChars_append (token.plain (by decide))]
  dsimp only
  rw [String.ofList_toList, if_neg]
  intro same
  exact other ((token'.matches_iff _).mp same)

theorem sealedLine_plain (token : LineToken) (line : String) :
    '\n' ∉ (sealedLine token line).toList ∧ '\r' ∉ (sealedLine token line).toList := by
  have own := oneLine_plain line
  unfold sealedLine
  rw [String.toList_ofList]
  simp only [List.cons_append, List.mem_cons, List.mem_append, not_or]
  exact ⟨⟨by decide, token.plain (by decide), by decide, own.1⟩,
    ⟨by decide, token.plain (by decide), by decide, own.2⟩⟩

end Logweir.Runner
