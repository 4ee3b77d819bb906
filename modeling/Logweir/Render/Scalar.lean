import Logweir.Library.Text
import Logweir.Library.YamlScalar
import Mathlib.Data.List.Infix
import Mathlib.Data.List.TakeWhile

/-!
# Scalars of the engine's documents

`logweir_engine_oso::yaml`.  Every value is written between double quotes, and no document may name
a variable of the engine's environment other than the two passwords.
-/

set_option autoImplicit false

namespace Logweir.Render

open Logweir.Text (hexDigit)

inductive RenderError where
  | dollarBrace (value : String)
  | unnamedPlaceholder (found : String)
deriving DecidableEq, Repr

def escapeChar (c : Char) : List Char :=
  match c with
  | '\\' => ['\\', '\\']
  | '"' => ['\\', '"']
  | '\n' => ['\\', 'n']
  | '\r' => ['\\', 'r']
  | '\t' => ['\\', 't']
  | c =>
      if c.toNat < 0x20 then ['\\', 'x', hexDigit (c.toNat / 16), hexDigit (c.toNat % 16)] else [c]

def yamlScalar (value : String) : String :=
  String.ofList ('"' :: value.toList.flatMap escapeChar ++ ['"'])

def yamlScalarChecked (value : String) : Except RenderError String :=
  if ['$', '{'] <:+: value.toList then .error (.dollarBrace value) else .ok (yamlScalar value)

def PLACEHOLDER_SOURCE_PASSWORD : String := "$\x7bLOGWEIR_SOURCE_PASSWORD\x7d"

def PLACEHOLDER_TARGET_PASSWORD : String := "$\x7bLOGWEIR_TARGET_PASSWORD\x7d"

def isInside (c : Char) : Bool := c != '}' && c != '\n'

def foundAt (after : List Char) : List Char × List Char :=
  match after.dropWhile isInside with
  | '}' :: rest => ('$' :: '{' :: after.takeWhile isInside ++ ['}'], rest)
  | rest => ('$' :: '{' :: after.takeWhile isInside, rest)

theorem length_foundAt (after : List Char) : (foundAt after).2.length ≤ after.length := by
  have size : (after.dropWhile isInside).length ≤ after.length :=
    (List.dropWhile_suffix isInside).length_le
  unfold foundAt
  split
  · rename_i rest stop
    rw [stop] at size
    exact Nat.le_of_succ_le size
  · exact size

/-- The sweep, over the characters: what it looks for is ASCII, so no byte of another character is
one of it. -/
def sweep : List Char → Except RenderError Unit
  | '$' :: '{' :: after =>
      if String.ofList (foundAt after).1 ≠ PLACEHOLDER_SOURCE_PASSWORD ∧
          String.ofList (foundAt after).1 ≠ PLACEHOLDER_TARGET_PASSWORD then
        .error (.unnamedPlaceholder (String.ofList (foundAt after).1))
      else sweep (foundAt after).2
  | _ :: rest => sweep rest
  | [] => .ok ()
termination_by doc => doc.length
decreasing_by
  · exact Nat.lt_succ_of_le (Nat.le_succ_of_le (length_foundAt after))
  · exact Nat.lt_succ_self _

def assertNoUnnamedDollarBrace (doc : String) : Except RenderError Unit := sweep doc.toList

/-- A character that is a C0 control, which is escaped, or may stand on a line as it is. -/
def Kept (c : Char) : Prop :=
  ¬ (0x7f ≤ c.toNat ∧ c.toNat ≤ 0x9f) ∧ c.toNat ≠ 0x2028 ∧ c.toNat ≠ 0x2029 ∧ c.toNat ≠ 0xfffe ∧
    c.toNat ≠ 0xffff

instance : DecidablePred Kept := fun _ => inferInstanceAs (Decidable (_ ∧ _))

theorem readHex_control : ∀ n, n < 0x20 →
    YamlScalar.readHex [hexDigit (n / 16), hexDigit (n % 16)] = some (Char.ofNat n) := by
  decide

theorem readPiece_control {n : Nat} (control : n < 0x20) (rest : List Char) :
    YamlScalar.readPiece ('\\' :: 'x' :: hexDigit (n / 16) :: hexDigit (n % 16) :: rest) =
      some (.char (Char.ofNat n) rest) := by
  have code : YamlScalar.readCode 2 (hexDigit (n / 16) :: hexDigit (n % 16) :: rest) =
      some (Char.ofNat n, rest) := by
    have long : 2 ≤ (hexDigit (n / 16) :: hexDigit (n % 16) :: rest).length :=
      Nat.le_add_left 2 rest.length
    rw [YamlScalar.readCode]
    simp only [List.take_succ_cons, List.take_zero, readHex_control n control, Option.bind_some,
      if_pos long, List.drop_succ_cons, List.drop_zero]
  change (YamlScalar.readCode 2 _).map _ = _
  rw [code]
  rfl

theorem isPlain_iff {c : Char} (high : 0x20 ≤ c.toNat) : YamlScalar.isPlain c = true ↔ Kept c := by
  have valid : c.toNat < 0xd800 ∨ 0xdfff < c.toNat ∧ c.toNat < 0x110000 := c.valid
  unfold YamlScalar.isPlain YamlScalar.isPrintable YamlScalar.isBreak Kept
  rw [Bool.and_eq_true, Bool.not_eq_true', decide_eq_true_eq, decide_eq_false_iff_not]
  omega

theorem readPiece_escapeChar {c : Char} (kept : Kept c) (rest : List Char) :
    YamlScalar.readPiece (escapeChar c ++ rest) = some (.char c rest) := by
  unfold escapeChar
  split
  · rfl
  · rfl
  · rfl
  · rfl
  · rfl
  · rename_i backslash quote _ _ _
    split
    · rename_i control
      exact (readPiece_control control rest).trans (by rw [Char.ofNat_toNat])
    · rename_i high
      have plain := (isPlain_iff (Nat.le_of_not_lt high)).mpr kept
      rw [List.singleton_append, YamlScalar.readPiece.eq_4 _ _ quote backslash, if_pos plain]

theorem readPiece_escapeChar_none {c : Char} (lost : ¬ Kept c) (rest : List Char) :
    YamlScalar.readPiece (escapeChar c ++ rest) = none := by
  have high : 0x20 ≤ c.toNat := by
    unfold Kept at lost
    omega
  have bare : escapeChar c = [c] := by
    unfold escapeChar
    split
    · exact absurd (by decide) lost
    · exact absurd (by decide) lost
    · exact absurd (by decide) lost
    · exact absurd (by decide) lost
    · exact absurd (by decide) lost
    · rw [if_neg (Nat.not_lt.mpr high)]
  have unread : ¬ YamlScalar.isPlain c = true := fun plain => lost ((isPlain_iff high).mp plain)
  rw [bare, List.singleton_append, YamlScalar.readPiece.eq_4 _ _ _ _, if_neg unread]
  · rintro rfl
    exact lost (by decide)
  · rintro rfl
    exact lost (by decide)

theorem readDouble_yamlScalar {value : String} :
    (∀ rest, YamlScalar.readDouble ((yamlScalar value).toList ++ rest) = some (value.toList, rest)) ↔
      ∀ c ∈ value.toList, Kept c := by
  have text (rest : List Char) : YamlScalar.readDouble ((yamlScalar value).toList ++ rest) =
      YamlScalar.readBody (value.toList.flatMap escapeChar ++ '"' :: rest) := by
    rw [yamlScalar, String.toList_ofList, List.append_assoc]
    rfl
  have read (rest : List Char) := YamlScalar.readBody_flatMap_iff (fun _ => readPiece_escapeChar)
    (fun _ => readPiece_escapeChar_none) rest value.toList
  constructor
  · intro reads
    exact (read []).mp ((text []).symm.trans (reads []))
  · intro kept rest
    exact (text rest).trans ((read rest).mpr kept)

def SOURCE_PASSWORD : List Char := "LOGWEIR_SOURCE_PASSWORD".toList

def TARGET_PASSWORD : List Char := "LOGWEIR_TARGET_PASSWORD".toList

def placeholder (name : List Char) : List Char := '$' :: '{' :: (name ++ ['}'])

theorem source_placeholder : PLACEHOLDER_SOURCE_PASSWORD.toList = placeholder SOURCE_PASSWORD := by
  decide

theorem target_placeholder : PLACEHOLDER_TARGET_PASSWORD.toList = placeholder TARGET_PASSWORD := by
  decide

/-- The text starts with one of the two placeholders. -/
def Named (text : List Char) : Prop :=
  PLACEHOLDER_SOURCE_PASSWORD.toList <+: text ∨ PLACEHOLDER_TARGET_PASSWORD.toList <+: text

/-- Every `${` of the text starts one of the two. -/
def AllNamed (text : List Char) : Prop :=
  ∀ after, '$' :: '{' :: after <:+ text → Named ('$' :: '{' :: after)

section Placeholder

variable {name after : List Char}

theorem foundAt_eq_iff (inside : ∀ c ∈ name, isInside c = true) :
    (foundAt after).1 = placeholder name ↔ ∃ rest, after = name ++ '}' :: rest := by
  constructor
  · intro found
    have parts := List.takeWhile_append_dropWhile (p := isInside) (l := after)
    unfold foundAt placeholder at found
    split at found
    · rename_i rest stop
      have same : after.takeWhile isInside = name := List.append_cancel_right
        (List.cons.inj (List.cons.inj found).2).2
      rw [same, stop] at parts
      exact ⟨rest, parts.symm⟩
    · have same : after.takeWhile isInside = name ++ ['}'] := (List.cons.inj (List.cons.inj found).2).2
      have closes : isInside '}' = true :=
        List.mem_takeWhile_imp (same ▸ List.mem_append_right name List.mem_cons_self)
      cases closes
  · rintro ⟨rest, rfl⟩
    have taken : (name ++ '}' :: rest).takeWhile isInside = name := by
      rw [List.takeWhile_append_of_pos inside]
      exact List.append_nil name
    have dropped : (name ++ '}' :: rest).dropWhile isInside = '}' :: rest :=
      List.dropWhile_append_of_pos inside
    rw [foundAt, taken, dropped]
    rfl

theorem foundAt_rest (inside : ∀ c ∈ name, isInside c = true) (rest : List Char) :
    (foundAt (name ++ '}' :: rest)).2 = rest := by
  have dropped : (name ++ '}' :: rest).dropWhile isInside = '}' :: rest :=
    List.dropWhile_append_of_pos inside
  rw [foundAt, dropped]
  rfl

theorem placeholder_prefix_iff :
    placeholder name <+: '$' :: '{' :: after ↔ ∃ rest, after = name ++ '}' :: rest := by
  constructor
  · rintro ⟨rest, same⟩
    refine ⟨rest, ?_⟩
    have tail : name ++ ['}'] ++ rest = after := (List.cons.inj (List.cons.inj same).2).2
    rw [← tail, List.append_assoc]
    rfl
  · rintro ⟨rest, rfl⟩
    exact ⟨rest, by simp [placeholder]⟩

theorem suffix_append_iff {rest : List Char} : ∀ {inner : List Char}, '$' ∉ inner →
    ('$' :: '{' :: after <:+ inner ++ rest ↔ '$' :: '{' :: after <:+ rest) := by
  intro inner
  induction inner with
  | nil => exact fun _ => Iff.rfl
  | cons c inner ih =>
      intro none_
      rw [List.cons_append, List.suffix_cons_iff,
        ih fun member => none_ (List.mem_cons_of_mem c member)]
      constructor
      · rintro (same | there)
        · exact absurd (List.mem_cons.mpr (.inl (List.cons.inj same).1)) none_
        · exact there
      · exact .inr

theorem allNamed_placeholder (bare : '$' ∉ name) {rest : List Char}
    (named : Named ('$' :: '{' :: (name ++ '}' :: rest))) :
    AllNamed ('$' :: '{' :: (name ++ '}' :: rest)) ↔ AllNamed rest := by
  have inner : '$' ∉ '{' :: (name ++ ['}']) := by
    simpa using bare
  have tail : '{' :: (name ++ '}' :: rest) = '{' :: (name ++ ['}']) ++ rest := by simp
  constructor
  · intro all_ after there
    refine all_ after (List.suffix_cons_iff.mpr (.inr ?_))
    rw [tail]
    exact (suffix_append_iff inner).mpr there
  · intro all_ after there
    rcases List.suffix_cons_iff.mp there with same | there
    · exact same ▸ named
    · rw [tail] at there
      exact all_ after ((suffix_append_iff inner).mp there)

end Placeholder

theorem named_iff {after : List Char} : Named ('$' :: '{' :: after) ↔
    (foundAt after).1 = PLACEHOLDER_SOURCE_PASSWORD.toList ∨
      (foundAt after).1 = PLACEHOLDER_TARGET_PASSWORD.toList := by
  rw [Named, source_placeholder, target_placeholder, placeholder_prefix_iff, placeholder_prefix_iff,
    foundAt_eq_iff (List.all_eq_true.mp (by decide)), foundAt_eq_iff (List.all_eq_true.mp (by decide))]

theorem allNamed_found {after : List Char} (named : Named ('$' :: '{' :: after)) :
    AllNamed ('$' :: '{' :: after) ↔ AllNamed (foundAt after).2 := by
  have start := named
  rw [Named, source_placeholder, target_placeholder, placeholder_prefix_iff,
    placeholder_prefix_iff] at start
  rcases start with ⟨rest, rfl⟩ | ⟨rest, rfl⟩
  · rw [foundAt_rest (List.all_eq_true.mp (by decide))]
    exact allNamed_placeholder (by decide) named
  · rw [foundAt_rest (List.all_eq_true.mp (by decide))]
    exact allNamed_placeholder (by decide) named

theorem sweep_iff (text : List Char) : sweep text = .ok () ↔ AllNamed text := by
  induction text using sweep.induct with
  | case1 after unnamed =>
      rw [sweep, if_pos unnamed]
      have not_ : ¬ Named ('$' :: '{' :: after) := fun named => by
        rcases named_iff.mp named with same | same
        · exact unnamed.1 (by rw [same, String.ofList_toList])
        · exact unnamed.2 (by rw [same, String.ofList_toList])
      exact ⟨fun same => (by cases same), fun all_ => absurd (all_ after List.suffix_rfl) not_⟩
  | case2 after named ih =>
      rw [sweep, if_neg named, ih]
      refine (allNamed_found (named_iff.mpr ?_)).symm
      by_contra unnamed
      rw [not_or] at unnamed
      refine named ⟨fun same => unnamed.1 ?_, fun same => unnamed.2 ?_⟩
      · rw [← same, String.toList_ofList]
      · rw [← same, String.toList_ofList]
  | case3 c rest other ih =>
      rw [sweep, ih]
      · constructor
        · intro all_ after there
          rcases List.suffix_cons_iff.mp there with same | there
          · exact absurd (List.cons.inj same).2.symm (other after (List.cons.inj same).1.symm)
          · exact all_ after there
        · exact fun all_ after there => all_ after (List.suffix_cons_iff.mpr (.inr there))
      · exact other
  | case4 =>
      rw [sweep]
      exact ⟨fun _ after there => absurd there (by simp), fun _ => rfl⟩

/-- A rendered value is one scalar of its own text, and a swept document has only placeholders. -/
structure Renders (value doc : String) : Prop where
  scalar : ∀ rest,
    YamlScalar.readDouble ((yamlScalar value).toList ++ rest) = some (value.toList, rest)
  checked : ∀ out, yamlScalarChecked value = .ok out → ∀ rest,
    YamlScalar.readDouble (out.toList ++ rest) = some (value.toList, rest)
  swept : assertNoUnnamedDollarBrace doc = .ok () ↔ AllNamed doc.toList

/-- They do exactly for the values without a character that no line may hold as it is. -/
theorem renders_iff (value doc : String) : Renders value doc ↔ ∀ c ∈ value.toList, Kept c := by
  constructor
  · intro renders
    exact readDouble_yamlScalar.mp renders.scalar
  · intro kept
    refine ⟨readDouble_yamlScalar.mpr kept, ?_, sweep_iff doc.toList⟩
    intro out accepted
    unfold yamlScalarChecked at accepted
    split at accepted
    · cases accepted
    · cases accepted
      exact readDouble_yamlScalar.mpr kept

/-- A next-line character is written as it is. -/
theorem next_line_not_rendered : ¬ ∀ value doc : String, Renders value doc := by
  intro claim
  have kept := readDouble_yamlScalar.mp (claim "orders\u0085" "").scalar '\u0085' (by decide)
  exact absurd kept (by decide)

end Logweir.Render
