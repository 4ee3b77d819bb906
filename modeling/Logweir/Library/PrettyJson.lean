import Logweir.Library.JsonReading

/-!
# Pretty JSON

A pretty text is its value's compact text with blanks added outside the strings.  Read
past the blanks it is the compact one, so it too has one value.
-/

set_option autoImplicit false

namespace Logweir.Json

open Logweir.Text

/-- Where a reader of a document stands: between strings, in one, or past a backslash. -/
inductive Place where
  | outside
  | inside
  | escaped

def isBlank (c : Char) : Bool := c = '\n' || c = ' '

/-- A document without the blanks outside its strings. -/
def dense : Place → List Char → List Char
  | _, [] => []
  | .outside, c :: rest =>
      if isBlank c then dense .outside rest
      else c :: dense (if c = '"' then .inside else .outside) rest
  | .inside, c :: rest =>
      c :: dense (if c = '\\' then .escaped else if c = '"' then .outside else .inside) rest
  | .escaped, c :: rest => c :: dense .inside rest

def isPlain (c : Char) : Bool := !isBlank c && c != '"'

theorem dense_plain {text : List Char} (rest : List Char) (plain : ∀ c ∈ text, isPlain c = true) :
    dense .outside (text ++ rest) = text ++ dense .outside rest := by
  induction text with
  | nil => rfl
  | cons c text ih =>
      have here := plain c List.mem_cons_self
      rw [isPlain, Bool.and_eq_true, Bool.not_eq_true', bne_iff_ne] at here
      rw [List.cons_append, dense, here.1, if_neg Bool.false_ne_true, if_neg here.2,
        ih fun d member => plain d (List.mem_cons_of_mem c member), List.cons_append]

theorem dense_newline (depth : Nat) (rest : List Char) :
    dense .outside (newline depth ++ rest) = dense .outside rest := by
  have spaces : ∀ n : Nat,
      dense .outside (List.replicate n ' ' ++ rest) = dense .outside rest := by
    intro n
    induction n with
    | zero => rfl
    | succ n ih =>
        rw [List.replicate_succ, List.cons_append, dense]
        exact ih
  exact spaces (2 * depth)

theorem dense_inside {c : Char} (rest : List Char) (slash : c ≠ '\\') (quoted : c ≠ '"') :
    dense .inside (c :: rest) = c :: dense .inside rest := by
  rw [dense, if_neg slash, if_neg quoted]

theorem hexDigit_plain : ∀ n, n < 16 → hexDigit n ≠ '\\' ∧ hexDigit n ≠ '"' := by decide

theorem dense_escapeChar (c : Char) (rest : List Char) :
    dense .inside (escapeChar c ++ rest) = escapeChar c ++ dense .inside rest := by
  unfold escapeChar
  split_ifs with quoted slash back tab line form carriage control
  · rfl
  · rfl
  · rfl
  · rfl
  · rfl
  · rfl
  · rfl
  · obtain ⟨high, high'⟩ := hexDigit_plain (c.toNat / 16) (by omega)
    obtain ⟨low, low'⟩ := hexDigit_plain (c.toNat % 16) (by omega)
    simp only [List.cons_append, List.nil_append]
    rw [← dense_inside rest low low', ← dense_inside _ high high']
    rfl
  · exact dense_inside rest slash quoted

theorem dense_quote (s : String) (rest : List Char) :
    dense .outside (quote s ++ rest) = quote s ++ dense .outside rest := by
  have text : ∀ l : List Char, dense .inside (l.flatMap escapeChar ++ '"' :: rest) =
      l.flatMap escapeChar ++ '"' :: dense .outside rest := by
    intro l
    induction l with
    | nil => rfl
    | cons c l ih =>
        rw [List.flatMap_cons, List.append_assoc, dense_escapeChar, ih, List.append_assoc]
  have opened : quote s ++ rest = '"' :: (s.toList.flatMap escapeChar ++ '"' :: rest) := by
    rw [quote, List.append_assoc]
    rfl
  have closed : quote s ++ dense .outside rest =
      '"' :: (s.toList.flatMap escapeChar ++ '"' :: dense .outside rest) := by
    rw [quote, List.append_assoc]
    rfl
  rw [opened, closed, ← text]
  rfl

theorem plain_of_numeral {c : Char} (numeral : isNumeral c = true) : isPlain c = true := by
  have plain : c ≠ '\n' ∧ c ≠ ' ' ∧ c ≠ '"' := by
    refine ⟨?_, ?_, ?_⟩ <;>
    · rintro rfl
      cases numeral
  simp [isPlain, isBlank, plain]

theorem dense_separator {α : Type} (more : List α) (rest : List Char) :
    dense .outside ((if more.isEmpty then [] else [',']) ++ rest) =
      (if more.isEmpty then [] else [',']) ++ dense .outside rest := by
  cases more <;> rfl

mutual

theorem dense_pretty (depth : Nat) : ∀ (v : Json) (rest : List Char),
    dense .outside (pretty depth v ++ rest) = compact v ++ dense .outside rest
  | .null, rest => dense_plain rest (List.all_eq_true.mp rfl)
  | .bool true, rest => dense_plain rest (List.all_eq_true.mp rfl)
  | .bool false, rest => dense_plain rest (List.all_eq_true.mp rfl)
  | .num n, rest => dense_plain rest fun c member => plain_of_numeral (isNumeral_toString n c member)
  | .str s, rest => dense_quote s rest
  | .arr [], rest => rfl
  | .arr (item :: items), rest => by
      have inner := dense_prettyItems (depth + 1) (item :: items) (newline depth ++ ']' :: rest)
      rw [dense_newline] at inner
      simp only [pretty, compact, List.cons_append, List.append_assoc, List.nil_append]
      exact congrArg (List.cons '[') inner
  | .obj [], rest => rfl
  | .obj (member :: members), rest => by
      have inner := dense_prettyMembers (depth + 1) (member :: members) (newline depth ++ '}' :: rest)
      rw [dense_newline] at inner
      simp only [pretty, compact, List.cons_append, List.append_assoc, List.nil_append]
      exact congrArg (List.cons '{') inner

theorem dense_prettyItems (depth : Nat) : ∀ (items : List Json) (rest : List Char),
    dense .outside (prettyItems depth items ++ rest) = compactItems items ++ dense .outside rest
  | [], rest => rfl
  | item :: items, rest => by
      simp only [prettyItems, compactItems, List.append_assoc]
      rw [dense_newline, dense_pretty depth item, dense_separator, dense_prettyItems depth items]

theorem dense_prettyMembers (depth : Nat) : ∀ (members : List (String × Json)) (rest : List Char),
    dense .outside (prettyMembers depth members ++ rest) =
      compactMembers members ++ dense .outside rest
  | [], rest => rfl
  | (key, value) :: members, rest => by
      have colon : ∀ more, dense .outside (':' :: ' ' :: more) = ':' :: dense .outside more :=
        fun _ => rfl
      simp only [prettyMembers, compactMembers, List.append_assoc, List.cons_append, List.nil_append]
      rw [dense_newline, dense_quote, colon, dense_pretty depth value, dense_separator,
        dense_prettyMembers depth members]

end

theorem pretty_injective {v v' : Json} (same : pretty 0 v = pretty 0 v') : v = v' := by
  have text := dense_pretty 0 v []
  rw [same, dense_pretty 0 v' []] at text
  exact compact_injective (List.append_cancel_right text).symm

theorem toDeterministicJson_injective {v v' : Json}
    (same : toDeterministicJson v = toDeterministicJson v') : v = v' :=
  pretty_injective (List.append_cancel_right (utf8_injective same))

end Logweir.Json

/-!
## How long an indented text is

The bytes of an indented value are its members' bytes and what stands between them, so of two objects
the one whose members add up to less is the shorter.
-/

namespace Logweir.Json

/-- The bytes of a value written at a level. -/
def prettySize (depth : Nat) (v : Json) : Nat := (utf8 (pretty depth v)).length

/-- The bytes of a member on its own line, with its comma or the line's end after the last. -/
def memberSize (depth : Nat) (m : String × Json) : Nat :=
  (utf8 (newline depth)).length + (utf8 (quote m.1)).length + prettySize depth m.2 + 3

def membersSize (depth : Nat) (members : List (String × Json)) : Nat :=
  (members.map (memberSize depth)).sum

theorem length_toDeterministicJson (v : Json) :
    (toDeterministicJson v).length = prettySize 0 v + 1 := by
  rw [toDeterministicJson, utf8_append, List.length_append]
  rfl

theorem prettySize_str (depth : Nat) (s : String) :
    prettySize depth (.str s) = (utf8 (quote s)).length := by
  rw [prettySize, pretty]

theorem length_escapeChar_pos (c : Char) : 1 ≤ (escapeChar c).length := by
  unfold escapeChar
  split_ifs <;> simp

theorem length_le_quote (s : String) : s.length ≤ (utf8 (quote s)).length := by
  have escaped : ∀ text : List Char, text.length ≤ (text.flatMap escapeChar).length := by
    intro text
    induction text with
    | nil => exact Nat.le_refl 0
    | cons c text ih =>
        have here := length_escapeChar_pos c
        rw [List.flatMap_cons, List.length_append, List.length_cons]
        omega
  calc s.length = s.toList.length := String.length_toList.symm
    _ ≤ (s.toList.flatMap escapeChar).length := escaped s.toList
    _ ≤ (quote s).length := by
        rw [quote, List.length_append, List.length_cons]
        omega
    _ ≤ (utf8 (quote s)).length := length_le_utf8 _

theorem prettySize_num_le {depth n digits : Nat} (some_ : 0 < digits) (small : n < 10 ^ digits) :
    prettySize depth (.num n) ≤ digits := by
  have short := length_number_le some_ small
  rw [compact] at short
  rw [prettySize, pretty]
  exact short

theorem length_prettyMembers (depth : Nat) : ∀ members : List (String × Json), members ≠ [] →
    (utf8 (prettyMembers depth members)).length + 1 = membersSize depth members := by
  have colon : (utf8 [':', ' ']).length = 2 := by decide
  have comma : (utf8 [',']).length = 1 := by decide
  have nothing : (utf8 []).length = 0 := rfl
  intro members
  induction members with
  | nil => exact fun none_ => absurd rfl none_
  | cons m members ih =>
      intro _
      obtain ⟨key, v⟩ := m
      rw [prettyMembers, membersSize, List.map_cons, List.sum_cons]
      simp only [memberSize, prettySize, utf8_append, List.length_append]
      cases members with
      | nil =>
          rw [List.isEmpty_nil, if_pos rfl, prettyMembers, List.map_nil, List.sum_nil]
          omega
      | cons m' members =>
          have rest := ih (List.cons_ne_nil _ _)
          rw [membersSize] at rest
          rw [List.isEmpty_cons, if_neg Bool.false_ne_true]
          omega

theorem prettySize_obj (depth : Nat) {members : List (String × Json)} (some_ : members ≠ []) :
    prettySize depth (.obj members) =
      membersSize (depth + 1) members + (utf8 (newline depth)).length + 1 := by
  obtain ⟨m, rest, rfl⟩ := List.exists_cons_of_ne_nil some_
  have inside := length_prettyMembers (depth + 1) (m :: rest) some_
  have closing : (utf8 ['}']).length = 1 := by decide
  have opening : '{'.utf8Size = 1 := by decide
  rw [prettySize, pretty, List.cons_append, List.cons_append, length_utf8_cons, opening,
    utf8_append, utf8_append, List.length_append, List.length_append]
  omega

theorem prettySize_obj_le {depth : Nat} {members members' : List (String × Json)}
    (less : membersSize (depth + 1) members ≤ membersSize (depth + 1) members')
    (some_ : members' ≠ []) :
    prettySize depth (.obj members) ≤ prettySize depth (.obj members') := by
  have whole := prettySize_obj depth some_
  by_cases none_ : members = []
  · subst none_
    obtain ⟨m, rest, rfl⟩ := List.exists_cons_of_ne_nil some_
    have empty : prettySize depth (.obj []) = 2 := by rw [prettySize, pretty]; rfl
    have positive : 3 ≤ membersSize (depth + 1) (m :: rest) := by
      rw [membersSize, List.map_cons, List.sum_cons, memberSize]
      omega
    omega
  · have whole' := prettySize_obj depth none_
    omega

theorem membersSize_cons (depth : Nat) (m : String × Json) (members : List (String × Json)) :
    membersSize depth (m :: members) = memberSize depth m + membersSize depth members := by
  rw [membersSize, List.map_cons, List.sum_cons, membersSize]

theorem membersSize_perm {depth : Nat} {members members' : List (String × Json)}
    (same : members.Perm members') : membersSize depth members = membersSize depth members' :=
  (same.map _).sum_nat

theorem memberSize_le {depth : Nat} {key : String} {v v' : Json}
    (less : prettySize depth v ≤ prettySize depth v') :
    memberSize depth (key, v) ≤ memberSize depth (key, v') := by
  unfold memberSize
  exact Nat.add_le_add_right (Nat.add_le_add_left less _) 3

theorem membersSize_map_le {depth : Nat} {keys : List String} {f g : String → Json}
    (less : ∀ key ∈ keys, prettySize depth (f key) ≤ prettySize depth (g key)) :
    membersSize depth (keys.map fun key => (key, f key)) ≤
      membersSize depth (keys.map fun key => (key, g key)) := by
  induction keys with
  | nil => exact Nat.le_refl _
  | cons key keys ih =>
      rw [List.map_cons, List.map_cons, membersSize_cons, membersSize_cons]
      exact Nat.add_le_add (memberSize_le (less key List.mem_cons_self))
        (ih fun other member => less other (List.mem_cons_of_mem key member))

end Logweir.Json
