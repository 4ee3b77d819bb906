import Logweir.Library.Text

/-!
# JSON documents

JSON values with ordered members, written the two ways `serde_json` writes them:
compact, and pretty with two spaces a level.  A pretty object takes at least a
byte for each of its members.
-/

set_option autoImplicit false

namespace Logweir.Json

open Logweir.Text

inductive Json where
  | null
  | bool (b : Bool)
  | num (n : Int)
  | str (s : String)
  | arr (items : List Json)
  | obj (members : List (String × Json))

def escapeChar (c : Char) : List Char :=
  if c = '"' then ['\\', '"']
  else if c = '\\' then ['\\', '\\']
  else if c.toNat = 8 then ['\\', 'b']
  else if c.toNat = 9 then ['\\', 't']
  else if c.toNat = 10 then ['\\', 'n']
  else if c.toNat = 12 then ['\\', 'f']
  else if c.toNat = 13 then ['\\', 'r']
  else if c.toNat < 32 then
    ['\\', 'u', '0', '0', hexDigit (c.toNat / 16), hexDigit (c.toNat % 16)]
  else [c]

def quote (s : String) : List Char := '"' :: s.toList.flatMap escapeChar ++ ['"']

/-- A new line and the indentation of a level. -/
def newline (depth : Nat) : List Char := '\n' :: List.replicate (2 * depth) ' '

mutual

def pretty (depth : Nat) : Json → List Char
  | .null => "null".toList
  | .bool b => (if b then "true" else "false").toList
  | .num n => (toString n).toList
  | .str s => quote s
  | .arr [] => ['[', ']']
  | .arr (item :: items) =>
      '[' :: prettyItems (depth + 1) (item :: items) ++ newline depth ++ [']']
  | .obj [] => ['{', '}']
  | .obj (member :: members) =>
      '{' :: prettyMembers (depth + 1) (member :: members) ++ newline depth ++ ['}']

def prettyItems (depth : Nat) : List Json → List Char
  | [] => []
  | item :: items =>
      newline depth ++ pretty depth item ++ (if items.isEmpty then [] else [',']) ++
        prettyItems depth items

def prettyMembers (depth : Nat) : List (String × Json) → List Char
  | [] => []
  | (key, value) :: members =>
      newline depth ++ quote key ++ [':', ' '] ++ pretty depth value ++
        (if members.isEmpty then [] else [',']) ++ prettyMembers depth members

end

def utf8 (text : List Char) : List UInt8 := text.flatMap String.utf8EncodeChar

/-- `to_deterministic_json`: the pretty text and a final newline. -/
def toDeterministicJson (value : Json) : List UInt8 := utf8 (pretty 0 value ++ ['\n'])

theorem length_le_utf8 (text : List Char) : text.length ≤ (utf8 text).length := by
  induction text with
  | nil => exact Nat.le_refl 0
  | cons c text ih =>
      have positive := c.utf8Size_pos
      rw [utf8, List.flatMap_cons, List.length_append, String.length_utf8EncodeChar,
        List.length_cons]
      rw [utf8] at ih
      omega

theorem length_le_prettyMembers (depth : Nat) : ∀ members : List (String × Json),
    members.length ≤ (prettyMembers depth members).length := by
  intro members
  induction members with
  | nil => exact Nat.zero_le _
  | cons member members ih =>
      obtain ⟨key, value⟩ := member
      simp only [prettyMembers, newline, List.length_append, List.length_cons]
      omega

theorem length_prettyMembers_le (depth : Nat) (members : List (String × Json)) :
    (prettyMembers (depth + 1) members).length ≤ (pretty depth (.obj members)).length := by
  cases members with
  | nil => exact Nat.zero_le _
  | cons member members =>
      simp only [pretty, List.length_append, List.length_cons]
      omega

theorem length_le_pretty (depth : Nat) (members : List (String × Json)) :
    members.length ≤ (pretty depth (.obj members)).length :=
  Nat.le_trans (length_le_prettyMembers (depth + 1) members) (length_prettyMembers_le depth members)

theorem length_member_le (depth : Nat) (key : String) (value : Json) :
    ∀ members : List (String × Json), (key, value) ∈ members →
      (pretty depth value).length ≤ (prettyMembers depth members).length := by
  intro members
  induction members with
  | nil => exact fun none => nomatch none
  | cons member members ih =>
      intro mem
      obtain ⟨key', value'⟩ := member
      simp only [prettyMembers, List.length_append]
      rcases List.mem_cons.mp mem with same | later
      · cases same
        omega
      · have := ih later
        omega

theorem length_lt_toDeterministicJson (value : Json) :
    (pretty 0 value).length < (toDeterministicJson value).length := by
  have := length_le_utf8 (pretty 0 value ++ ['\n'])
  rw [List.length_append, List.length_singleton] at this
  rw [toDeterministicJson]
  omega

end Logweir.Json
