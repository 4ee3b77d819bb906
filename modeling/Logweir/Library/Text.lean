/-!
# Texts

Hexadecimal digits, Rust's `{:?}` of a string as messages quote names, and the
character classes its string functions read.
-/

set_option autoImplicit false

namespace Logweir.Text

def hexDigit (n : Nat) : Char := if n < 10 then Char.ofNat (48 + n) else Char.ofNat (87 + n)

def hexEncode (bytes : List UInt8) : String :=
  String.ofList (bytes.flatMap fun b => [hexDigit (b.toNat / 16), hexDigit (b.toNat % 16)])

theorem length_hexEncode (bytes : List UInt8) : (hexEncode bytes).length = 2 * bytes.length := by
  rw [hexEncode, String.length_ofList]
  induction bytes with
  | nil => rfl
  | cons b bytes ih =>
      rw [List.flatMap_cons, List.length_append, ih, List.length_cons]
      simp only [List.length_cons, List.length_nil]
      omega

/-- The digits are `0` to `9` and `a` to `f`. -/
theorem hexDigit_lower (n : Nat) (small : n < 16) :
    ((hexDigit n).isDigit || (decide ('a' ≤ hexDigit n) && decide (hexDigit n ≤ 'f'))) = true := by
  revert n
  decide

theorem hexEncode_lower (bytes : List UInt8) : ∀ c ∈ (hexEncode bytes).toList,
    (c.isDigit || (decide ('a' ≤ c) && decide (c ≤ 'f'))) = true := by
  intro c mem
  rw [hexEncode, String.toList_ofList] at mem
  obtain ⟨b, _, digit⟩ := List.mem_flatMap.mp mem
  have bound := b.toNat_lt
  rw [List.mem_cons, List.mem_singleton] at digit
  rcases digit with rfl | rfl
  · exact hexDigit_lower _ (by omega)
  · exact hexDigit_lower _ (by omega)

theorem toNat_ofNat_byte (n : Nat) (small : n < 256) : (Char.ofNat n).toNat = n := by
  have valid : n.isValidChar := .inl (by omega)
  rw [Char.ofNat, dif_pos valid]
  rfl

/-- Bytes as the characters of their codes. -/
def byteText (bytes : List UInt8) : String := String.ofList (bytes.map fun b => Char.ofNat b.toNat)

theorem byteText_injective {bytes bytes' : List UInt8} (same : byteText bytes = byteText bytes') :
    bytes = bytes' := by
  refine (List.map_inj_right ?_).mp (String.ofList_injective same)
  intro b b' char
  apply UInt8.toNat_inj.mp
  rw [← toNat_ofNat_byte b.toNat b.toNat_lt, ← toNat_ofNat_byte b'.toNat b'.toNat_lt, char]

/-- One character of `{:?}`; printable characters stand for themselves. -/
def debugChar (c : Char) : List Char :=
  if c.toNat = 0 then ['\\', '0']
  else if c.toNat = 9 then ['\\', 't']
  else if c.toNat = 10 then ['\\', 'n']
  else if c.toNat = 13 then ['\\', 'r']
  else if c = '"' then ['\\', '"']
  else if c = '\\' then ['\\', '\\']
  else if c.toNat < 32 ∨ c.toNat = 127 then
    "\\u\x7b".toList ++ Nat.toDigits 16 c.toNat ++ "\x7d".toList
  else [c]

def debug (s : String) : String := String.ofList ('"' :: s.toList.flatMap debugChar ++ ['"'])

/-- Unicode's `White_Space`. -/
def isWhitespace (c : Char) : Bool :=
  let n := c.toNat
  (9 ≤ n && n ≤ 13) || n == 32 || n == 0x85 || n == 0xA0 || n == 0x1680 ||
    (0x2000 ≤ n && n ≤ 0x200A) || n == 0x2028 || n == 0x2029 || n == 0x202F || n == 0x205F ||
    n == 0x3000

def isControl (c : Char) : Bool := c.toNat < 32 || (127 ≤ c.toNat && c.toNat ≤ 159)

def trim (s : String) : String :=
  String.ofList ((s.toList.dropWhile isWhitespace).reverse.dropWhile isWhitespace).reverse

def toAsciiLowercase (s : String) : String := String.ofList (s.toList.map Char.toLower)

/-- `split('.')`, and of any other separator. -/
def splitChars (sep : Char) : List Char → List (List Char)
  | [] => [[]]
  | c :: rest =>
      if c = sep then [] :: splitChars sep rest
      else
        match splitChars sep rest with
        | [] => [[c]]
        | part :: parts => (c :: part) :: parts

theorem isUpper_iff {c : Char} : c.isUpper = true ↔ 65 ≤ c.toNat ∧ c.toNat ≤ 90 :=
  decide_eq_true_iff.trans (and_congr UInt32.le_iff_toNat_le UInt32.le_iff_toNat_le)

theorem isLower_iff {c : Char} : c.isLower = true ↔ 97 ≤ c.toNat ∧ c.toNat ≤ 122 :=
  (Bool.and_eq_true_iff.trans (and_congr decide_eq_true_iff decide_eq_true_iff)).trans
    (and_congr UInt32.le_iff_toNat_le UInt32.le_iff_toNat_le)

theorem isAlphanum_iff {c : Char} :
    c.isAlphanum = true ↔ c.isUpper = true ∨ c.isLower = true ∨ c.isDigit = true :=
  Bool.or_eq_true_iff.trans ((or_congr_left Bool.or_eq_true_iff).trans or_assoc)

end Logweir.Text
