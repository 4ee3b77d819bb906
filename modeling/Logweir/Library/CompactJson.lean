import Logweir.Library.Json
import Std.Data.String.ToInt
import Mathlib.Algebra.Ring.Nat
import Mathlib.Tactic.SplitIfs

/-!
# Compact JSON

A JSON value written with no spaces, as `serde_json::to_vec` writes it.  The
text is self-delimiting: what follows a value inside a document never continues
it, so one text has one value and one reading.
-/

set_option autoImplicit false
set_option linter.dupNamespace false

namespace Logweir.Json

open Logweir.Text

mutual

def compact : Json → List Char
  | .null => "null".toList
  | .bool b => (if b then "true" else "false").toList
  | .num n => (toString n).toList
  | .str s => quote s
  | .arr items => '[' :: compactItems items ++ [']']
  | .obj members => '{' :: compactMembers members ++ ['}']

def compactItems : List Json → List Char
  | [] => []
  | item :: items => compact item ++ (if items.isEmpty then [] else [',']) ++ compactItems items

def compactMembers : List (String × Json) → List Char
  | [] => []
  | (key, value) :: members =>
      quote key ++ ':' :: compact value ++ (if members.isEmpty then [] else [',']) ++
        compactMembers members

end

/-- `serde_json::to_vec`. -/
def toVec (value : Json) : List UInt8 := utf8 (compact value)

def hexValue (c : Char) : Nat := if c.toNat < 58 then c.toNat - 48 else c.toNat - 87

/-- What follows a backslash inside a string. -/
def unescapeTail : List Char → Option (Char × List Char)
  | '"' :: rest => some ('"', rest)
  | '\\' :: rest => some ('\\', rest)
  | 'b' :: rest => some (Char.ofNat 8, rest)
  | 't' :: rest => some (Char.ofNat 9, rest)
  | 'n' :: rest => some (Char.ofNat 10, rest)
  | 'f' :: rest => some (Char.ofNat 12, rest)
  | 'r' :: rest => some (Char.ofNat 13, rest)
  | 'u' :: '0' :: '0' :: a :: b :: rest =>
      some (Char.ofNat (16 * hexValue a + hexValue b), rest)
  | _ => none

/-- Reads one character back out of a string's text; its closing quote is none. -/
def unescapeChar : List Char → Option (Char × List Char)
  | [] => none
  | c :: rest =>
      if c = '\\' then unescapeTail rest else if c = '"' then none else some (c, rest)

theorem hexValue_hexDigit : ∀ n, n < 16 → hexValue (hexDigit n) = n := by decide

theorem char_of_toNat {c : Char} {n : Nat} (h : c.toNat = n) : c = Char.ofNat n := by
  rw [← h, Char.ofNat_toNat]

theorem unescapeChar_escapeChar (c : Char) (rest : List Char) :
    unescapeChar (escapeChar c ++ rest) = some (c, rest) := by
  unfold escapeChar
  split_ifs with quoted slash back tab line form carriage control
  · rw [quoted]; rfl
  · rw [slash]; rfl
  · rw [char_of_toNat back]; rfl
  · rw [char_of_toNat tab]; rfl
  · rw [char_of_toNat line]; rfl
  · rw [char_of_toNat form]; rfl
  · rw [char_of_toNat carriage]; rfl
  · change some (Char.ofNat (16 * hexValue (hexDigit (c.toNat / 16)) +
      hexValue (hexDigit (c.toNat % 16))), rest) = some (c, rest)
    rw [hexValue_hexDigit _ (by omega), hexValue_hexDigit _ (by omega), Nat.div_add_mod,
      Char.ofNat_toNat]
  · rw [List.singleton_append, unescapeChar, if_neg slash, if_neg quoted]

theorem escaped_inj : ∀ (s s' : List Char) (rest rest' : List Char),
    s.flatMap escapeChar ++ '"' :: rest = s'.flatMap escapeChar ++ '"' :: rest' →
      s = s' ∧ rest = rest' := by
  intro s
  induction s with
  | nil =>
      intro s' rest rest' same
      cases s' with
      | nil => exact ⟨rfl, (List.cons.inj same).2⟩
      | cons c s' =>
          have read := congrArg unescapeChar same
          rw [List.flatMap_cons, List.append_assoc, unescapeChar_escapeChar] at read
          cases read
  | cons c s ih =>
      intro s' rest rest' same
      have read := congrArg unescapeChar same
      rw [List.flatMap_cons, List.append_assoc, unescapeChar_escapeChar] at read
      cases s' with
      | nil => cases read
      | cons c' s' =>
          rw [List.flatMap_cons, List.append_assoc, unescapeChar_escapeChar] at read
          obtain ⟨here, later⟩ := Prod.mk.inj (Option.some.inj read)
          obtain ⟨s_eq, rest_eq⟩ := ih s' rest rest' later
          exact ⟨by rw [here, s_eq], rest_eq⟩

theorem quote_inj {s s' : String} {rest rest' : List Char}
    (same : quote s ++ rest = quote s' ++ rest') : s = s' ∧ rest = rest' := by
  unfold quote at same
  simp only [List.cons_append, List.append_assoc, List.nil_append] at same
  obtain ⟨text, later⟩ := escaped_inj _ _ _ _ (List.cons.inj same).2
  exact ⟨String.toList_inj.mp text, later⟩

/-- What may follow a value inside a document. -/
def Ends (rest : List Char) : Prop := ∀ c, rest.head? = some c → c = ',' ∨ c = ']' ∨ c = '}'

def isNumeral (c : Char) : Bool := c.isDigit || c = '-'

theorem isNumeral_toString (n : Int) : ∀ c ∈ (toString n).toList, isNumeral c = true := by
  intro c mem
  have digit {m : Nat} (member : c ∈ m.repr.toList) : isNumeral c = true := by
    rw [Nat.toList_repr] at member
    unfold isNumeral
    rw [Nat.isDigit_of_mem_toDigits (by omega) (by omega) member, Bool.true_or]
  rw [Int.toString_eq_repr, Int.repr_eq_if] at mem
  split_ifs at mem with positive
  · exact digit mem
  · rw [String.toList_append, List.mem_append] at mem
    rcases mem with sign | member
    · rw [show "-".toList = ['-'] from rfl, List.mem_singleton] at sign
      rw [sign]
      rfl
    · exact digit member

theorem toString_ne_nil (n : Int) : (toString n).toList ≠ [] := by
  rw [Int.toString_eq_repr, Int.repr_eq_if]
  split_ifs with positive
  · rw [Nat.toList_repr]
    exact List.ne_nil_of_length_pos Nat.length_toDigits_pos
  · rw [String.toList_append]
    exact List.cons_ne_nil '-' _

theorem run_inj {p : Char → Bool} : ∀ (a a' rest rest' : List Char),
    (∀ c ∈ a, p c = true) → (∀ c ∈ a', p c = true) →
    (∀ c, rest.head? = some c → p c = false) → (∀ c, rest'.head? = some c → p c = false) →
    a ++ rest = a' ++ rest' → a = a' ∧ rest = rest' := by
  intro a
  induction a with
  | nil =>
      intro a' rest rest' _ inside' outside _ same
      cases a' with
      | nil => exact ⟨rfl, same⟩
      | cons c a' =>
          have head := outside c (by rw [List.nil_append] at same; rw [same]; rfl)
          rw [inside' c List.mem_cons_self] at head
          cases head
  | cons c a ih =>
      intro a' rest rest' inside inside' outside outside' same
      cases a' with
      | nil =>
          have head := outside' c (by rw [List.nil_append] at same; rw [← same]; rfl)
          rw [inside c List.mem_cons_self] at head
          cases head
      | cons c' a' =>
          obtain ⟨here, later⟩ := List.cons.inj same
          obtain ⟨run, rest_eq⟩ := ih a' rest rest'
            (fun d member => inside d (List.mem_cons_of_mem c member))
            (fun d member => inside' d (List.mem_cons_of_mem c' member)) outside outside' later
          exact ⟨by rw [here, run], rest_eq⟩

theorem Ends.not_numeral {rest : List Char} (ends : Ends rest) :
    ∀ c, rest.head? = some c → isNumeral c = false := by
  intro c head
  rcases ends c head with rfl | rfl | rfl <;> rfl

/-- Which kind of value a text starts; 7 is none. -/
def charKind (c : Char) : Nat :=
  if c = 'n' then 0 else if c = 't' then 1 else if c = 'f' then 2 else if isNumeral c then 3
  else if c = '"' then 4 else if c = '[' then 5 else if c = '{' then 6 else 7

def Json.kind : Json → Nat
  | .null => 0
  | .bool true => 1
  | .bool false => 2
  | .num _ => 3
  | .str _ => 4
  | .arr _ => 5
  | .obj _ => 6

theorem charKind_numeral {c : Char} (numeral : isNumeral c = true) : charKind c = 3 := by
  have plain : c ≠ 'n' ∧ c ≠ 't' ∧ c ≠ 'f' := by
    refine ⟨?_, ?_, ?_⟩ <;>
    · rintro rfl
      cases numeral
  unfold charKind
  rw [if_neg plain.1, if_neg plain.2.1, if_neg plain.2.2, if_pos numeral]

theorem head_compact (v : Json) : ∃ c tail, compact v = c :: tail ∧ charKind c = v.kind := by
  cases v with
  | null => exact ⟨_, _, rfl, rfl⟩
  | bool b => cases b <;> exact ⟨_, _, rfl, rfl⟩
  | num n =>
      obtain ⟨c, tail, text⟩ := List.exists_cons_of_ne_nil (toString_ne_nil n)
      refine ⟨c, tail, text, charKind_numeral (isNumeral_toString n c ?_)⟩
      rw [text]
      exact List.mem_cons_self
  | str s => exact ⟨_, _, rfl, rfl⟩
  | arr items => exact ⟨_, _, rfl, rfl⟩
  | obj members => exact ⟨_, _, rfl, rfl⟩

theorem kind_of_text {v v' : Json} {rest rest' : List Char}
    (same : compact v ++ rest = compact v' ++ rest') : v.kind = v'.kind := by
  obtain ⟨c, tail, text, kind⟩ := head_compact v
  obtain ⟨c', tail', text', kind'⟩ := head_compact v'
  rw [text, text'] at same
  rw [← kind, ← kind', (List.cons.inj same).1]

theorem kind_le (v : Json) : v.kind ≤ 6 := by
  cases v with
  | bool b => cases b <;> decide
  | _ => exact of_decide_eq_true rfl

theorem compact_ne_close {v : Json} {rest rest' : List Char} {c : Char} (close : charKind c = 7)
    (same : compact v ++ rest = c :: rest') : False := by
  obtain ⟨d, tail, text, kind⟩ := head_compact v
  rw [text] at same
  have bound := kind_le v
  rw [← kind, (List.cons.inj same).1, close] at bound
  omega

theorem ends_close (c : Char) (rest : List Char) (h : c = ',' ∨ c = ']' ∨ c = '}') :
    Ends (c :: rest) := by
  intro d head
  cases head
  exact h

theorem separated_inj {α : Type} {more more' : List α} {text text' rest rest' : List Char}
    {close : Char} (closes : close ≠ ',') (empty : more = [] → text = [])
    (empty' : more' = [] → text' = [])
    (same : (if more.isEmpty then [] else [',']) ++ text ++ close :: rest =
      (if more'.isEmpty then [] else [',']) ++ text' ++ close :: rest') :
    text ++ close :: rest = text' ++ close :: rest' := by
  cases more with
  | nil =>
      cases more' with
      | nil => exact same
      | cons b more' =>
          rw [empty rfl] at same
          exact absurd (List.cons.inj same).1 closes
  | cons a more =>
      cases more' with
      | nil =>
          rw [empty' rfl] at same
          exact absurd (List.cons.inj same).1.symm closes
      | cons b more' => exact (List.cons.inj same).2

theorem ends_separated {α : Type} {more : List α} {text rest : List Char} {close : Char}
    (closes : close = ',' ∨ close = ']' ∨ close = '}') (empty : more = [] → text = []) :
    Ends ((if more.isEmpty then [] else [',']) ++ text ++ close :: rest) := by
  cases more with
  | nil =>
      rw [empty rfl]
      exact ends_close close rest closes
  | cons a more => exact ends_close ',' _ (.inl rfl)

mutual

theorem compact_inj : ∀ (v v' : Json) (rest rest' : List Char), Ends rest → Ends rest' →
    compact v ++ rest = compact v' ++ rest' → v = v' ∧ rest = rest'
  | .null, v', rest, rest', _, _, same => by
      have kind := kind_of_text same
      cases v' with
      | null => exact ⟨rfl, List.append_cancel_left same⟩
      | bool b => cases b <;> cases kind
      | _ => cases kind
  | .bool b, v', rest, rest', _, _, same => by
      have kind := kind_of_text same
      cases v' with
      | bool b' =>
          cases b <;> cases b'
          · exact ⟨rfl, List.append_cancel_left same⟩
          · cases kind
          · cases kind
          · exact ⟨rfl, List.append_cancel_left same⟩
      | _ => cases b <;> cases kind
  | .num n, v', rest, rest', ends, ends', same => by
      have kind := kind_of_text same
      cases v' with
      | num n' =>
          obtain ⟨text, rest_eq⟩ := run_inj _ _ _ _ (isNumeral_toString n) (isNumeral_toString n')
            ends.not_numeral ends'.not_numeral same
          have number := Int.repr_injective (String.toList_inj.mp text)
          exact ⟨by rw [number], rest_eq⟩
      | bool b => cases b <;> cases kind
      | _ => cases kind
  | .str s, v', rest, rest', _, _, same => by
      have kind := kind_of_text same
      cases v' with
      | str s' =>
          obtain ⟨text, rest_eq⟩ := quote_inj same
          exact ⟨by rw [text], rest_eq⟩
      | bool b => cases b <;> cases kind
      | _ => cases kind
  | .arr items, v', rest, rest', _, _, same => by
      have kind := kind_of_text same
      cases v' with
      | arr items' =>
          simp only [compact, List.cons_append, List.append_assoc, List.nil_append] at same
          obtain ⟨list, rest_eq⟩ := compactItems_inj items items' rest rest' (List.cons.inj same).2
          exact ⟨by rw [list], rest_eq⟩
      | bool b => cases b <;> cases kind
      | _ => cases kind
  | .obj members, v', rest, rest', _, _, same => by
      have kind := kind_of_text same
      cases v' with
      | obj members' =>
          simp only [compact, List.cons_append, List.append_assoc, List.nil_append] at same
          obtain ⟨list, rest_eq⟩ :=
            compactMembers_inj members members' rest rest' (List.cons.inj same).2
          exact ⟨by rw [list], rest_eq⟩
      | bool b => cases b <;> cases kind
      | _ => cases kind

theorem compactItems_inj : ∀ (items items' : List Json) (rest rest' : List Char),
    compactItems items ++ ']' :: rest = compactItems items' ++ ']' :: rest' →
      items = items' ∧ rest = rest'
  | [], [], rest, rest', same => ⟨rfl, (List.cons.inj same).2⟩
  | [], item' :: items', rest, rest', same => by
      simp only [compactItems, List.nil_append, List.append_assoc] at same
      exact (compact_ne_close rfl same.symm).elim
  | item :: items, [], rest, rest', same => by
      simp only [compactItems, List.nil_append, List.append_assoc] at same
      exact (compact_ne_close rfl same).elim
  | item :: items, item' :: items', rest, rest', same => by
      have empty {l : List Json} (h : l = []) : compactItems l = [] := by rw [h]; rfl
      have first : compact item ++ ((if items.isEmpty then [] else [',']) ++ compactItems items ++
          ']' :: rest) = compact item' ++ ((if items'.isEmpty then [] else [',']) ++
          compactItems items' ++ ']' :: rest') := by
        simpa only [compactItems, List.append_assoc] using same
      obtain ⟨here, later⟩ := compact_inj item item' _ _ (ends_separated (.inr (.inl rfl)) empty)
        (ends_separated (.inr (.inl rfl)) empty) first
      have tail := separated_inj (by decide) empty empty later
      obtain ⟨list, rest_eq⟩ := compactItems_inj items items' rest rest' tail
      exact ⟨by rw [here, list], rest_eq⟩

theorem compactMembers_inj : ∀ (members members' : List (String × Json)) (rest rest' : List Char),
    compactMembers members ++ '}' :: rest = compactMembers members' ++ '}' :: rest' →
      members = members' ∧ rest = rest'
  | [], [], rest, rest', same => ⟨rfl, (List.cons.inj same).2⟩
  | [], (key', value') :: members', rest, rest', same => by
      simp only [compactMembers, quote, List.cons_append] at same
      cases (List.cons.inj same).1
  | (key, value) :: members, [], rest, rest', same => by
      simp only [compactMembers, quote, List.cons_append] at same
      cases (List.cons.inj same).1
  | (key, value) :: members, (key', value') :: members', rest, rest', same => by
      have empty {l : List (String × Json)} (h : l = []) : compactMembers l = [] := by rw [h]; rfl
      have first : quote key ++ ':' :: (compact value ++ ((if members.isEmpty then [] else [',']) ++
          compactMembers members ++ '}' :: rest)) = quote key' ++ ':' :: (compact value' ++
          ((if members'.isEmpty then [] else [',']) ++ compactMembers members' ++ '}' :: rest')) := by
        simpa only [compactMembers, List.append_assoc, List.cons_append] using same
      obtain ⟨name, second⟩ := quote_inj first
      obtain ⟨here, later⟩ := compact_inj value value' _ _
        (ends_separated (.inr (.inr rfl)) empty) (ends_separated (.inr (.inr rfl)) empty)
        (List.cons.inj second).2
      have tail := separated_inj (by decide) empty empty later
      obtain ⟨list, rest_eq⟩ := compactMembers_inj members members' rest rest' tail
      exact ⟨by rw [name, here, list], rest_eq⟩

end

theorem compact_injective {v v' : Json} (same : compact v = compact v') : v = v' := by
  have none : Ends [] := fun c head => nomatch head
  have whole : compact v ++ [] = compact v' ++ [] := by rw [same]
  exact (compact_inj v v' [] [] none none whole).1

theorem utf8_injective {text text' : List Char} (same : utf8 text = utf8 text') : text = text' := by
  have bytes : text.utf8Encode = text'.utf8Encode := congrArg List.toByteArray same
  rw [← String.toByteArray_ofList, ← String.toByteArray_ofList, String.toByteArray_inj] at bytes
  exact String.ofList_injective bytes

theorem toVec_injective {v v' : Json} (same : toVec v = toVec v') : v = v' :=
  compact_injective (utf8_injective same)

theorem utf8_append (text more : List Char) : utf8 (text ++ more) = utf8 text ++ utf8 more :=
  List.flatMap_append

theorem length_utf8_cons (c : Char) (text : List Char) :
    (utf8 (c :: text)).length = c.utf8Size + (utf8 text).length := by
  rw [utf8, List.flatMap_cons, List.length_append, String.length_utf8EncodeChar, utf8]

theorem length_utf8_toList (s : String) : (utf8 s.toList).length = s.utf8ByteSize := by
  obtain ⟨text, rfl⟩ : ∃ text, String.ofList text = s := ⟨s.toList, String.ofList_toList⟩
  rw [String.toList_ofList]
  induction text with
  | nil => rfl
  | cons c text ih =>
      rw [length_utf8_cons, ih, String.ofList_cons, String.utf8ByteSize_append,
        String.utf8ByteSize_singleton]

theorem length_utf8_ascii (text : List Char) (ascii : ∀ c ∈ text, c.val ≤ 127) :
    (utf8 text).length = text.length := by
  induction text with
  | nil => rfl
  | cons c text ih =>
      have single : c.utf8Size = 1 := Char.utf8Size_eq_one_iff.mpr (ascii c List.mem_cons_self)
      rw [length_utf8_cons, single, ih fun d member => ascii d (List.mem_cons_of_mem _ member),
        List.length_cons, Nat.add_comm]

theorem ascii_of_isDigit {c : Char} (digit : c.isDigit = true) : c.val ≤ 127 := by
  simp only [Char.isDigit, Bool.and_eq_true, decide_eq_true_eq] at digit
  exact UInt32.le_trans digit.2 (by decide)

theorem utf8Size_hexDigit : ∀ n, n < 16 → (hexDigit n).utf8Size = 1 := by decide

/-- A control character takes at most six bytes, another at most twice its own. -/
def escapedBytes (c : Char) : Nat := if c.toNat < 32 then 6 else 2 * c.utf8Size

theorem two_le_escapedBytes (c : Char) : 2 ≤ escapedBytes c := by
  have := c.utf8Size_pos
  unfold escapedBytes
  split <;> omega

theorem length_utf8_escapeChar (c : Char) : (utf8 (escapeChar c)).length ≤ escapedBytes c := by
  have two := two_le_escapedBytes c
  have pair (d : Char) (single : d.utf8Size = 1) :
      (utf8 ['\\', d]).length ≤ escapedBytes c := by
    rw [length_utf8_cons, length_utf8_cons, single]
    exact two
  unfold escapeChar
  split_ifs with quoted slash back tab line form carriage control
  · exact pair _ (by decide)
  · exact pair _ (by decide)
  · exact pair _ (by decide)
  · exact pair _ (by decide)
  · exact pair _ (by decide)
  · exact pair _ (by decide)
  · exact pair _ (by decide)
  · have high := utf8Size_hexDigit (c.toNat / 16) (by omega)
    have low := utf8Size_hexDigit (c.toNat % 16) (by omega)
    rw [escapedBytes, if_pos control]
    simp only [length_utf8_cons, high, low]
    decide
  · rw [escapedBytes, if_neg control, length_utf8_cons, show (utf8 []).length = 0 from rfl]
    omega

theorem length_utf8_escaped (text : List Char) :
    (utf8 (text.flatMap escapeChar)).length ≤ (text.map escapedBytes).sum := by
  induction text with
  | nil => exact Nat.le_refl 0
  | cons c text ih =>
      have here := length_utf8_escapeChar c
      rw [List.flatMap_cons, utf8_append, List.length_append, List.map_cons, List.sum_cons]
      omega

theorem length_utf8_quote (s : String) :
    (utf8 (quote s)).length ≤ (s.toList.map escapedBytes).sum + 2 := by
  have inner := length_utf8_escaped s.toList
  have mark : (utf8 ['"']).length = 1 := by decide
  rw [quote, utf8_append, List.length_append, length_utf8_cons, mark, show '"'.utf8Size = 1 from rfl]
  omega

theorem escapedBytes_le (text : List Char) :
    (text.map escapedBytes).sum ≤ 6 * (utf8 text).length := by
  induction text with
  | nil => exact Nat.le_refl 0
  | cons c text ih =>
      have pos := c.utf8Size_pos
      have here : escapedBytes c ≤ 6 * c.utf8Size := by
        unfold escapedBytes
        split <;> omega
      rw [length_utf8_cons, List.map_cons, List.sum_cons]
      omega

theorem escapedBytes_plain (text : List Char) (plain : ∀ c ∈ text, 32 ≤ c.toNat) :
    (text.map escapedBytes).sum = 2 * (utf8 text).length := by
  induction text with
  | nil => rfl
  | cons c text ih =>
      have later := ih fun d member => plain d (List.mem_cons_of_mem _ member)
      have here : escapedBytes c = 2 * c.utf8Size :=
        if_neg (Nat.not_lt.mpr (plain c List.mem_cons_self))
      rw [length_utf8_cons, List.map_cons, List.sum_cons, later, here, Nat.mul_add]

end Logweir.Json
