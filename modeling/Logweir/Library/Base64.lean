import Logweir.Library.Text

/-!
# Base64

The URL-safe alphabet without padding: four characters for three bytes, and two
or three for what is left.  A reader refuses a lone last character and last bits
that no writer leaves.
-/

set_option autoImplicit false

namespace Logweir.Base64

def symbol (n : Nat) : Char :=
  if n < 26 then Char.ofNat (65 + n)
  else if n < 52 then Char.ofNat (71 + n)
  else if n < 62 then Char.ofNat (n - 4)
  else if n = 62 then '-' else '_'

def value (c : Char) : Option Nat :=
  if c.isUpper then some (c.toNat - 65)
  else if c.isLower then some (c.toNat - 71)
  else if c.isDigit then some (c.toNat + 4)
  else if c = '-' then some 62
  else if c = '_' then some 63
  else none

def encodeChars : List UInt8 → List Char
  | [] => []
  | [a] => [symbol (a.toNat / 4), symbol (a.toNat % 4 * 16)]
  | [a, b] =>
      [symbol (a.toNat / 4), symbol (a.toNat % 4 * 16 + b.toNat / 16), symbol (b.toNat % 16 * 4)]
  | a :: b :: c :: rest =>
      symbol (a.toNat / 4) :: symbol (a.toNat % 4 * 16 + b.toNat / 16) ::
        symbol (b.toNat % 16 * 4 + c.toNat / 64) :: symbol (c.toNat % 64) :: encodeChars rest

def decodeChars : List Char → Option (List UInt8)
  | [] => some []
  | [_] => none
  | [w, x] => do
      let w ← value w
      let x ← value x
      if x % 16 = 0 then some [UInt8.ofNat (w * 4 + x / 16)] else none
  | [w, x, y] => do
      let w ← value w
      let x ← value x
      let y ← value y
      if y % 4 = 0 then
        some [UInt8.ofNat (w * 4 + x / 16), UInt8.ofNat (x % 16 * 16 + y / 4)]
      else none
  | w :: x :: y :: z :: rest => do
      let w ← value w
      let x ← value x
      let y ← value y
      let z ← value z
      let bytes ← decodeChars rest
      some (UInt8.ofNat (w * 4 + x / 16) :: UInt8.ofNat (x % 16 * 16 + y / 4) ::
        UInt8.ofNat (y % 4 * 64 + z) :: bytes)

/-- `URL_SAFE_NO_PAD.encode`. -/
def encode (bytes : List UInt8) : String := String.ofList (encodeChars bytes)

/-- `URL_SAFE_NO_PAD.decode`. -/
def decode (text : String) : Option (List UInt8) := decodeChars text.toList

theorem value_symbol : ∀ n, n < 64 → value (symbol n) = some n := by decide

theorem symbol_ascii : ∀ n, n < 64 → (symbol n).val ≤ 127 := by decide

theorem symbol_ne_dot : ∀ n, n < 64 → symbol n ≠ '.' := by decide

theorem ofNat_toNat {b : UInt8} {n : Nat} (same : n = b.toNat) : UInt8.ofNat n = b := by
  rw [same, UInt8.ofNat_toNat]

theorem decodeChars_encodeChars (bytes : List UInt8) :
    decodeChars (encodeChars bytes) = some bytes := by
  induction bytes using encodeChars.induct with
  | case1 => rfl
  | case2 a =>
      have := a.toNat_lt
      rw [encodeChars, decodeChars, value_symbol _ (by omega), value_symbol _ (by omega)]
      simp only [Option.bind_eq_bind, Option.bind_some]
      rw [if_pos (by omega), ofNat_toNat (b := a) (by omega)]
  | case3 a b =>
      have := a.toNat_lt
      have := b.toNat_lt
      rw [encodeChars, decodeChars, value_symbol _ (by omega), value_symbol _ (by omega),
        value_symbol _ (by omega)]
      simp only [Option.bind_eq_bind, Option.bind_some]
      rw [if_pos (by omega), ofNat_toNat (b := a) (by omega), ofNat_toNat (b := b) (by omega)]
  | case4 a b c rest ih =>
      have := a.toNat_lt
      have := b.toNat_lt
      have := c.toNat_lt
      rw [encodeChars, decodeChars, value_symbol _ (by omega), value_symbol _ (by omega),
        value_symbol _ (by omega), value_symbol _ (by omega), ih]
      simp only [Option.bind_eq_bind, Option.bind_some]
      rw [ofNat_toNat (b := a) (by omega), ofNat_toNat (b := b) (by omega),
        ofNat_toNat (b := c) (by omega)]

theorem decode_encode (bytes : List UInt8) : decode (encode bytes) = some bytes := by
  rw [decode, encode, String.toList_ofList, decodeChars_encodeChars]

theorem mem_encodeChars (bytes : List UInt8) : ∀ c ∈ encodeChars bytes, ∃ n < 64, c = symbol n := by
  induction bytes using encodeChars.induct with
  | case1 => exact fun _ member => absurd member List.not_mem_nil
  | case2 a =>
      have := a.toNat_lt
      simp only [encodeChars, List.mem_cons, List.not_mem_nil, or_false]
      rintro c (rfl | rfl)
      · exact ⟨_, by omega, rfl⟩
      · exact ⟨_, by omega, rfl⟩
  | case3 a b =>
      have := a.toNat_lt
      have := b.toNat_lt
      simp only [encodeChars, List.mem_cons, List.not_mem_nil, or_false]
      rintro c (rfl | rfl | rfl)
      · exact ⟨_, by omega, rfl⟩
      · exact ⟨_, by omega, rfl⟩
      · exact ⟨_, by omega, rfl⟩
  | case4 a b c rest ih =>
      have := a.toNat_lt
      have := b.toNat_lt
      have := c.toNat_lt
      simp only [encodeChars, List.mem_cons]
      rintro d (rfl | rfl | rfl | rfl | later)
      · exact ⟨_, by omega, rfl⟩
      · exact ⟨_, by omega, rfl⟩
      · exact ⟨_, by omega, rfl⟩
      · exact ⟨_, by omega, rfl⟩
      · exact ih d later

theorem encodeChars_ascii (bytes : List UInt8) : ∀ c ∈ encodeChars bytes, c.val ≤ 127 := by
  intro c member
  obtain ⟨n, small, rfl⟩ := mem_encodeChars bytes c member
  exact symbol_ascii n small

theorem dot_not_mem_encode (bytes : List UInt8) : '.' ∉ (encode bytes).toList := by
  intro member
  rw [encode, String.toList_ofList] at member
  obtain ⟨n, small, same⟩ := mem_encodeChars bytes '.' member
  exact symbol_ne_dot n small same.symm

theorem length_encodeChars (bytes : List UInt8) :
    (encodeChars bytes).length = (4 * bytes.length + 2) / 3 := by
  induction bytes using encodeChars.induct with
  | case1 => rfl
  | case2 a => simp [encodeChars]
  | case3 a b => simp [encodeChars]
  | case4 a b c rest ih =>
      simp only [encodeChars, List.length_cons, ih]
      omega

theorem utf8ByteSize_ascii (text : List Char) (ascii : ∀ c ∈ text, c.val ≤ 127) :
    (String.ofList text).utf8ByteSize = text.length := by
  induction text with
  | nil => rfl
  | cons c text ih =>
      have single : c.utf8Size = 1 := Char.utf8Size_eq_one_iff.mpr (ascii c List.mem_cons_self)
      rw [String.ofList_cons, String.utf8ByteSize_append, String.utf8ByteSize_singleton, single,
        ih fun d member => ascii d (List.mem_cons_of_mem c member), List.length_cons, Nat.add_comm]

theorem utf8ByteSize_encode (bytes : List UInt8) :
    (encode bytes).utf8ByteSize = (4 * bytes.length + 2) / 3 := by
  rw [encode, utf8ByteSize_ascii _ (encodeChars_ascii bytes), length_encodeChars]

theorem symbol_value {c : Char} {n : Nat} (read : value c = some n) : symbol n = c ∧ n < 64 := by
  unfold value at read
  split at read
  · rename_i upper
    obtain rfl := Option.some.inj read
    obtain ⟨low, high⟩ := Text.isUpper_iff.mp upper
    have same : 65 + (c.toNat - 65) = c.toNat := by omega
    rw [symbol, if_pos (by omega), same, Char.ofNat_toNat]
    exact ⟨rfl, by omega⟩
  · split at read
    · rename_i lower
      obtain rfl := Option.some.inj read
      obtain ⟨low, high⟩ := Text.isLower_iff.mp lower
      have same : 71 + (c.toNat - 71) = c.toNat := by omega
      rw [symbol, if_neg (by omega), if_pos (by omega), same, Char.ofNat_toNat]
      exact ⟨rfl, by omega⟩
    · split at read
      · rename_i digit
        obtain rfl := Option.some.inj read
        simp only [Char.isDigit, Bool.and_eq_true, decide_eq_true_eq] at digit
        have low : 48 ≤ c.toNat := UInt32.le_iff_toNat_le.mp digit.1
        have high : c.toNat ≤ 57 := UInt32.le_iff_toNat_le.mp digit.2
        rw [symbol, if_neg (by omega), if_neg (by omega), if_pos (by omega), Nat.add_sub_cancel,
          Char.ofNat_toNat]
        exact ⟨rfl, by omega⟩
      · split at read
        · rename_i hyphen
          obtain rfl := Option.some.inj read
          exact ⟨hyphen.symm, by decide⟩
        · split at read
          · rename_i underscore
            obtain rfl := Option.some.inj read
            exact ⟨underscore.symm, by decide⟩
          · cases read

theorem toNat_ofNat_small {n : Nat} (small : n < 256) : (UInt8.ofNat n).toNat = n := by
  simp only [UInt8.toNat_ofNat']
  omega

theorem encodeChars_decodeChars (text : List Char) :
    ∀ bytes, decodeChars text = some bytes → encodeChars bytes = text := by
  induction text using decodeChars.induct with
  | case1 =>
      intro bytes read
      cases read
      rfl
  | case2 =>
      intro bytes read
      cases read
  | case3 w x =>
      intro bytes read
      simp only [decodeChars, Option.bind_eq_bind, Option.bind_eq_some_iff] at read
      obtain ⟨m, first, n, second, read⟩ := read
      split at read
      · obtain ⟨rfl, small⟩ := symbol_value first
        obtain ⟨rfl, small'⟩ := symbol_value second
        cases read
        have byte := toNat_ofNat_small (n := m * 4 + n / 16) (by omega)
        have high : (m * 4 + n / 16) / 4 = m := by omega
        have low : (m * 4 + n / 16) % 4 * 16 = n := by omega
        rw [encodeChars, byte, high, low]
      · cases read
  | case4 w x y =>
      intro bytes read
      simp only [decodeChars, Option.bind_eq_bind, Option.bind_eq_some_iff] at read
      obtain ⟨m, first, n, second, k, third, read⟩ := read
      split at read
      · obtain ⟨rfl, small⟩ := symbol_value first
        obtain ⟨rfl, small'⟩ := symbol_value second
        obtain ⟨rfl, less⟩ := symbol_value third
        cases read
        have byte := toNat_ofNat_small (n := m * 4 + n / 16) (by omega)
        have byte' := toNat_ofNat_small (n := n % 16 * 16 + k / 4) (by omega)
        have one : (m * 4 + n / 16) / 4 = m := by omega
        have two : (m * 4 + n / 16) % 4 * 16 + (n % 16 * 16 + k / 4) / 16 = n := by omega
        have three : (n % 16 * 16 + k / 4) % 16 * 4 = k := by omega
        rw [encodeChars, byte, byte', one, two, three]
      · cases read
  | case5 w x y z rest ih =>
      intro bytes read
      simp only [decodeChars, Option.bind_eq_bind, Option.bind_eq_some_iff] at read
      obtain ⟨m, first, n, second, k, third, j, fourth, more, later, read⟩ := read
      obtain ⟨rfl, small⟩ := symbol_value first
      obtain ⟨rfl, small'⟩ := symbol_value second
      obtain ⟨rfl, less⟩ := symbol_value third
      obtain ⟨rfl, less'⟩ := symbol_value fourth
      cases read
      have byte := toNat_ofNat_small (n := m * 4 + n / 16) (by omega)
      have byte' := toNat_ofNat_small (n := n % 16 * 16 + k / 4) (by omega)
      have last := toNat_ofNat_small (n := k % 4 * 64 + j) (by omega)
      have one : (m * 4 + n / 16) / 4 = m := by omega
      have two : (m * 4 + n / 16) % 4 * 16 + (n % 16 * 16 + k / 4) / 16 = n := by omega
      have three : (n % 16 * 16 + k / 4) % 16 * 4 + (k % 4 * 64 + j) / 64 = k := by omega
      have four : (k % 4 * 64 + j) % 64 = j := by omega
      rw [encodeChars, byte, byte', last, one, two, three, four, ih more later]

theorem encode_decode {text : String} {bytes : List UInt8} (read : decode text = some bytes) :
    encode bytes = text := by
  rw [encode, encodeChars_decodeChars _ bytes read, String.ofList_toList]

end Logweir.Base64
