import Logweir.Library.Text
import Mathlib.Algebra.Group.Nat.Defs
import Mathlib.Data.List.DropRight
import Mathlib.Data.List.TakeWhile
import Mathlib.Tactic.SplitIfs

/-!
# Fields

Texts cut at a separator, lines, and the decimal numbers they carry, as Rust's
string functions read them; and what a writer that joins the pieces gets back.
-/

set_option autoImplicit false

namespace Logweir.Text

/-- `str::split(sep)`. -/
def split (sep : Char) (s : String) : List String := (splitChars sep s.toList).map String.ofList

/-- `str::split_once(sep)`. -/
def splitOnceChars (sep : Char) : List Char → Option (List Char × List Char)
  | [] => none
  | c :: rest =>
      if c = sep then some ([], rest)
      else (splitOnceChars sep rest).map fun (before, after) => (c :: before, after)

def splitOnce (sep : Char) (s : String) : Option (String × String) :=
  (splitOnceChars sep s.toList).map fun (before, after) => (String.ofList before, String.ofList after)

/-- `str::strip_prefix`. -/
def stripPrefix (start s : String) : Option String :=
  if start.toList.isPrefixOf s.toList then
    some (String.ofList (s.toList.drop start.toList.length))
  else none

/-- `str::starts_with`. -/
def startsWith (s start : String) : Bool := start.toList.isPrefixOf s.toList

/-- `parts.join(sep)`. -/
def joinChars (sep : Char) : List (List Char) → List Char
  | [] => []
  | [part] => part
  | part :: parts => part ++ sep :: joinChars sep parts

theorem splitChars_ne_nil (sep : Char) (s : List Char) : splitChars sep s ≠ [] := by
  induction s with
  | nil => exact List.cons_ne_nil _ _
  | cons c rest ih =>
      rw [splitChars]
      split_ifs
      · exact List.cons_ne_nil _ _
      · split
        · exact List.cons_ne_nil _ _
        · exact List.cons_ne_nil _ _

theorem splitChars_plain {sep : Char} {s : List Char} (plain : sep ∉ s) :
    splitChars sep s = [s] := by
  induction s with
  | nil => rfl
  | cons c rest ih =>
      rw [List.mem_cons, not_or] at plain
      rw [splitChars, if_neg (Ne.symm plain.1), ih plain.2]

theorem splitChars_append {sep : Char} {s : List Char} (plain : sep ∉ s) (rest : List Char) :
    splitChars sep (s ++ sep :: rest) = s :: splitChars sep rest := by
  induction s with
  | nil => rw [List.nil_append, splitChars, if_pos rfl]
  | cons c s ih =>
      rw [List.mem_cons, not_or] at plain
      rw [List.cons_append, splitChars, if_neg (Ne.symm plain.1), ih plain.2]

/-- Joined pieces that hold no separator are the pieces of what they make. -/
theorem splitChars_joinChars {sep : Char} : ∀ (parts : List (List Char)), parts ≠ [] →
    (∀ part ∈ parts, sep ∉ part) → splitChars sep (joinChars sep parts) = parts
  | [], some_, _ => absurd rfl some_
  | [part], _, plain => by
      rw [joinChars, splitChars_plain (plain part List.mem_cons_self)]
  | part :: next :: parts, _, plain => by
      have later := splitChars_joinChars (next :: parts) (List.cons_ne_nil _ _)
        fun p member => plain p (List.mem_cons_of_mem _ member)
      rw [joinChars, splitChars_append (plain part List.mem_cons_self), later]
      exact List.cons_ne_nil _ _

theorem splitOnceChars_append {sep : Char} {s : List Char} (plain : sep ∉ s) (rest : List Char) :
    splitOnceChars sep (s ++ sep :: rest) = some (s, rest) := by
  induction s with
  | nil => rw [List.nil_append, splitOnceChars, if_pos rfl]
  | cons c s ih =>
      rw [List.mem_cons, not_or] at plain
      rw [List.cons_append, splitOnceChars, if_neg (Ne.symm plain.1), ih plain.2]
      rfl

theorem split_join {sep : Char} (parts : List String) (some_ : parts ≠ [])
    (plain : ∀ part ∈ parts, sep ∉ part.toList) :
    split sep (String.ofList (joinChars sep (parts.map String.toList))) = parts := by
  rw [split, String.toList_ofList, splitChars_joinChars, List.map_map]
  · rw [show String.ofList ∘ String.toList = id from funext fun s => String.ofList_toList,
      List.map_id]
  · rwa [ne_eq, List.map_eq_nil_iff]
  · intro chars member
    obtain ⟨part, here, rfl⟩ := List.mem_map.mp member
    exact plain part here

theorem stripPrefix_append (start s : String) : stripPrefix start (start ++ s) = some s := by
  rw [stripPrefix, String.toList_append, if_pos (List.isPrefixOf_iff_prefix.mpr
    (List.prefix_append _ _)), List.drop_left, String.ofList_toList]

theorem splitOnceChars_eq_none {sep : Char} {s : List Char} (plain : sep ∉ s) :
    splitOnceChars sep s = none := by
  induction s with
  | nil => rfl
  | cons c s ih =>
      rw [List.mem_cons, not_or] at plain
      rw [splitOnceChars, if_neg (Ne.symm plain.1), ih plain.2]
      rfl

theorem splitOnceChars_eq_some {sep : Char} {s before after : List Char}
    (parts : splitOnceChars sep s = some (before, after)) : s = before ++ sep :: after := by
  induction s generalizing before with
  | nil => exact absurd parts.symm (Option.some_ne_none _)
  | cons c s ih =>
      rw [splitOnceChars] at parts
      split at parts
      · rename_i here
        obtain ⟨rfl, rfl⟩ := Prod.mk.inj (Option.some.inj parts)
        rw [here, List.nil_append]
      · obtain ⟨⟨first, rest⟩, found, pair⟩ := Option.map_eq_some_iff.mp parts
        obtain ⟨rfl, rfl⟩ := Prod.mk.inj pair
        rw [ih found, List.cons_append]

theorem stripPrefix_eq_some {start s rest : String} (some_ : stripPrefix start s = some rest) :
    s = start ++ rest := by
  unfold stripPrefix at some_
  split at some_
  · rename_i starts
    obtain ⟨tail, whole⟩ := List.isPrefixOf_iff_prefix.mp starts
    apply String.ext
    rw [← Option.some.inj some_, String.toList_append, String.toList_ofList, ← whole,
      List.drop_left]
  · exact absurd some_.symm (Option.some_ne_none _)

theorem append_sep_inj {sep : Char} {a b c d : List Char} (plain : sep ∉ a) (plain' : sep ∉ c)
    (same : a ++ sep :: b = c ++ sep :: d) : a = c ∧ b = d := by
  have cut := splitOnceChars_append plain b
  rw [same, splitOnceChars_append plain' d] at cut
  obtain ⟨first, rest⟩ := Prod.mk.inj (Option.some.inj cut)
  exact ⟨first.symm, rest.symm⟩

theorem append_sep_inj_right {sep : Char} {a b c d : List Char} (plain : sep ∉ b) (plain' : sep ∉ d)
    (same : a ++ sep :: b = c ++ sep :: d) : a = c ∧ b = d := by
  have inside {t u v : List Char} (absent : sep ∉ u) (whole : sep :: u = t ++ sep :: v) :
      t = [] ∧ u = v := by
    cases t with
    | nil => exact ⟨rfl, (List.cons.inj whole).2⟩
    | cons s t =>
        apply absurd _ absent
        rw [(List.cons.inj whole).2]
        exact List.mem_append_right _ List.mem_cons_self
  rcases List.append_eq_append_iff.mp same with ⟨t, rfl, tail⟩ | ⟨t, rfl, tail⟩
  · obtain ⟨rfl, rest⟩ := inside plain tail
    exact ⟨(List.append_nil a).symm, rest⟩
  · obtain ⟨rfl, rest⟩ := inside plain' tail
    exact ⟨List.append_nil c, rest.symm⟩

/-- A mark that begins with a character found nowhere else in it does not overlap itself. -/
theorem mark_append_cases {sep : Char} {mark : List Char} (plain : sep ∉ mark)
    {a b c : List Char} (same : sep :: mark ++ b = a ++ (sep :: mark ++ c)) :
    (a = [] ∧ b = c) ∨ ∃ x, a = sep :: mark ++ x ∧ b = x ++ (sep :: mark ++ c) := by
  cases a with
  | nil => exact .inl ⟨rfl, List.append_cancel_left same⟩
  | cons s a =>
      rcases List.append_eq_append_iff.mp same with ⟨u, longer, tail⟩ | ⟨u, shorter, tail⟩
      · exact .inr ⟨u, longer, tail⟩
      · cases u with
        | nil =>
            rw [List.append_nil] at shorter
            exact .inr ⟨[], by rw [← shorter, List.append_nil], tail.symm⟩
        | cons r u =>
            -- the mark would begin again inside itself
            obtain ⟨rfl, _⟩ := List.cons.inj tail
            apply absurd _ plain
            rw [(List.cons.inj shorter).2]
            exact List.mem_append_right _ List.mem_cons_self

/-- Two texts around such a mark are told apart by what they make, unless one of them holds
the mark as well. -/
theorem around_mark_iff {sep : Char} {mark : List Char} (plain : sep ∉ mark)
    {a b c d : List Char} :
    a ++ (sep :: mark ++ b) = c ++ (sep :: mark ++ d) ↔
      (a = c ∧ b = d) ∨
      (∃ x, c = a ++ (sep :: mark ++ x) ∧ b = x ++ (sep :: mark ++ d)) ∨
      ∃ x, a = c ++ (sep :: mark ++ x) ∧ d = x ++ (sep :: mark ++ b) := by
  constructor
  · intro same
    rcases List.append_eq_append_iff.mp same with ⟨t, rfl, tail⟩ | ⟨t, rfl, tail⟩
    · rcases mark_append_cases plain tail with ⟨rfl, rest⟩ | ⟨x, rfl, rest⟩
      · exact .inl ⟨(List.append_nil a).symm, rest⟩
      · exact .inr (.inl ⟨x, rfl, rest⟩)
    · rcases mark_append_cases plain tail with ⟨rfl, rest⟩ | ⟨x, rfl, rest⟩
      · exact .inl ⟨List.append_nil c, rest.symm⟩
      · exact .inr (.inr ⟨x, rfl, rest⟩)
  · rintro (⟨rfl, rfl⟩ | ⟨x, rfl, rfl⟩ | ⟨x, rfl, rfl⟩)
    · rfl
    · simp only [List.append_assoc]
    · simp only [List.append_assoc]

/-- `str::trim_matches`. -/
def trimMatches (p : Char → Bool) (s : List Char) : List Char := (s.dropWhile p).rdropWhile p

theorem mem_of_mem_trimMatches {p : Char → Bool} {s : List Char} {c : Char}
    (member : c ∈ trimMatches p s) : c ∈ s :=
  (List.dropWhile_sublist p).subset ((List.rdropWhile_prefix p _).subset member)

theorem head?_trimMatches {p : Char → Bool} {s : List Char} {c : Char}
    (first : (trimMatches p s).head? = some c) : p c = false := by
  have kept := List.head?_dropWhile_not p s
  obtain ⟨rest, whole⟩ := List.rdropWhile_prefix p (s.dropWhile p)
  rw [← whole, List.head?_append, ← trimMatches, first, Option.some_or] at kept
  exact eq_false_of_ne_true (by simpa using kept)

theorem getLast?_trimMatches {p : Char → Bool} {s : List Char} {c : Char}
    (last : (trimMatches p s).getLast? = some c) : p c = false := by
  have nonempty : trimMatches p s ≠ [] := by
    intro empty
    rw [empty] at last
    cases last
  have kept := List.rdropWhile_last_not p (s.dropWhile p) nonempty
  rw [List.getLast?_eq_some_getLast nonempty] at last
  rw [← Option.some.inj last]
  exact eq_false_of_ne_true kept

theorem trimMatches_eq_self {p : Char → Bool} {s : List Char}
    (first : ∀ c, s.head? = some c → p c = false) (last : ∀ c, s.getLast? = some c → p c = false) :
    trimMatches p s = s := by
  have front : s.dropWhile p = s := by
    cases s with
    | nil => rfl
    | cons c s => exact List.dropWhile_cons_of_neg (by rw [first c rfl]; decide)
  rw [trimMatches, front, List.rdropWhile_eq_self_iff]
  intro nonempty
  rw [last _ (List.getLast?_eq_some_getLast nonempty)]
  decide

/-- Strips a beginning as often as it stands there, at most `n` times. -/
def trimStartChars (start : List Char) : Nat → List Char → List Char
  | 0, s => s
  | n + 1, s =>
      if start.isPrefixOf s then trimStartChars start n (s.drop start.length) else s

/-- `str::trim_start_matches`, for a beginning that is not empty. -/
def trimStartMatches (start s : String) : String :=
  String.ofList (trimStartChars start.toList s.length s.toList)

theorem trimStartMatches_append {c : Char} {start s : String} (begins : start.toList.head? = some c)
    (plain : c ∉ s.toList) : trimStartMatches start (start ++ s) = s := by
  have nonempty : 0 < start.length := by
    rw [← String.length_toList]
    exact List.length_pos_of_mem (List.mem_of_mem_head? begins)
  have stays : ∀ n, trimStartChars start.toList n s.toList = s.toList := by
    intro n
    cases n with
    | zero => rfl
    | succ n =>
        rw [trimStartChars, if_neg]
        intro starts
        obtain ⟨rest, whole⟩ := List.isPrefixOf_iff_prefix.mp starts
        apply plain
        rw [← whole]
        exact List.mem_append_left _ (List.mem_of_mem_head? begins)
  obtain ⟨n, more⟩ : ∃ n, (start ++ s).length = n + 1 := by
    rw [String.length_append]
    exact ⟨start.length + s.length - 1, by omega⟩
  rw [trimStartMatches, more, trimStartChars, String.toList_append, if_pos
    (List.isPrefixOf_iff_prefix.mpr (List.prefix_append _ _)), List.drop_left, stays,
    String.ofList_toList]

def getToChars : List Char → Nat → Option (List Char)
  | _, 0 => some []
  | [], _ + 1 => none
  | c :: rest, n + 1 =>
      if n + 1 < c.utf8Size then none else (getToChars rest (n + 1 - c.utf8Size)).map (c :: ·)

/-- `s.get(..n)`: none past the end and inside a character. -/
def getTo (n : Nat) (s : String) : Option String := (getToChars s.toList n).map String.ofList

theorem getToChars_ascii (s : List Char) (ascii : ∀ c ∈ s, c.val ≤ 127) :
    ∀ n, n ≤ s.length → getToChars s n = some (s.take n) := by
  induction s with
  | nil =>
      intro n short
      rw [Nat.le_zero.mp short]
      rfl
  | cons c s ih =>
      intro n short
      cases n with
      | zero => rfl
      | succ n =>
          have single : c.utf8Size = 1 := Char.utf8Size_eq_one_iff.mpr (ascii c List.mem_cons_self)
          rw [getToChars, single, if_neg (by omega), Nat.add_sub_cancel,
            ih (fun d member => ascii d (List.mem_cons_of_mem c member)) n (Nat.le_of_succ_le_succ short)]
          rfl

/-- What `str::replace` makes of the rest of a text, once `skip` characters of a replaced part are
past. -/
def replaceChars (part new_ : List Char) : Nat → List Char → List Char
  | _, [] => []
  | skip + 1, _ :: rest => replaceChars part new_ skip rest
  | 0, c :: rest =>
      if part.isPrefixOf (c :: rest) then new_ ++ replaceChars part new_ (part.length - 1) rest
      else c :: replaceChars part new_ 0 rest

/-- `str::replace`, of a part that is not empty. -/
def replace (s part new_ : String) : String :=
  String.ofList (replaceChars part.toList new_.toList 0 s.toList)

def containsChars (part : List Char) : List Char → Bool
  | [] => part.isEmpty
  | c :: rest => part.isPrefixOf (c :: rest) || containsChars part rest

/-- `str::contains`. -/
def contains (s part : String) : Bool := containsChars part.toList s.toList

theorem lt_of_lt_prefix {start s : List Char} (starts : start <+: s) :
    ∀ {low : List Char}, low < start → low < s := by
  obtain ⟨rest, rfl⟩ := starts
  induction start with
  | nil => exact fun below => absurd below (List.not_lt_nil _)
  | cons c start ih =>
      intro low below
      cases low with
      | nil => exact List.nil_lt_cons _ _
      | cons d low =>
          rw [List.cons_append, List.cons_lt_cons_iff]
          rcases List.cons_lt_cons_iff.mp below with less | ⟨same, later⟩
          · exact .inl less
          · exact .inr ⟨same, ih later⟩

theorem prefix_of_between {start s : List Char} (starts : start <+: s) :
    ∀ {mid : List Char}, start < mid → ¬s < mid → start <+: mid := by
  obtain ⟨rest, rfl⟩ := starts
  induction start with
  | nil => exact fun _ _ => List.nil_prefix
  | cons c start ih =>
      intro mid above notPast
      cases mid with
      | nil => exact absurd above (List.not_lt_nil _)
      | cons d mid =>
          rw [List.cons_append, List.cons_lt_cons_iff, not_or] at notPast
          rcases List.cons_lt_cons_iff.mp above with less | ⟨same, later⟩
          · exact absurd less notPast.1
          · subst same
            exact List.cons_prefix_cons.mpr ⟨rfl, ih later fun below => notPast.2 ⟨rfl, below⟩⟩

/-- `str::split_inclusive('\n')`. -/
def splitInclusive : List Char → List (List Char)
  | [] => []
  | c :: rest =>
      if c = '\n' then [c] :: splitInclusive rest
      else
        match splitInclusive rest with
        | [] => [[c]]
        | part :: parts => (c :: part) :: parts

def stripSuffixChar (c : Char) (s : List Char) : Option (List Char) :=
  if s.getLast? = some c then some s.dropLast else none

/-- A line without its end, `\n` or `\r\n`. -/
def stripLine (line : List Char) : List Char :=
  match stripSuffixChar '\n' line with
  | none => line
  | some body => (stripSuffixChar '\r' body).getD body

/-- `str::lines`. -/
def lines (s : String) : List String :=
  (splitInclusive s.toList).map fun line => String.ofList (stripLine line)

theorem splitInclusive_line {body : List Char} (plain : '\n' ∉ body) (rest : List Char) :
    splitInclusive (body ++ '\n' :: rest) = (body ++ ['\n']) :: splitInclusive rest := by
  induction body with
  | nil => rw [List.nil_append, splitInclusive, if_pos rfl]; rfl
  | cons c body ih =>
      rw [List.mem_cons, not_or] at plain
      rw [List.cons_append, splitInclusive, if_neg (Ne.symm plain.1), ih plain.2]
      rfl

theorem stripLine_line {body : List Char} (plain : '\r' ∉ body) :
    stripLine (body ++ ['\n']) = body := by
  have last : (body ++ ['\n']).getLast? = some '\n' := List.getLast?_concat
  have bare : stripSuffixChar '\r' body = none := by
    apply if_neg
    intro ends
    exact plain (List.mem_of_getLast? ends)
  rw [stripLine, stripSuffixChar, if_pos last, List.dropLast_concat]
  simp only [bare, Option.getD_none]

theorem lines_written (bodies : List String)
    (plain : ∀ body ∈ bodies, '\n' ∉ body.toList ∧ '\r' ∉ body.toList) :
    lines (String.ofList (bodies.flatMap fun body => body.toList ++ ['\n'])) = bodies := by
  unfold lines
  rw [String.toList_ofList]
  induction bodies with
  | nil => rfl
  | cons body bodies ih =>
      have here := plain body List.mem_cons_self
      have later := ih fun b member => plain b (List.mem_cons_of_mem _ member)
      rw [List.flatMap_cons, List.append_assoc, List.singleton_append,
        splitInclusive_line here.1, List.map_cons, later, stripLine_line here.2,
        String.ofList_toList]

/-- The digits after a sign that an unsigned number may carry. -/
def signless : List Char → List Char
  | '+' :: rest => rest
  | chars => chars

/-- The `FromStr` of an unsigned integer type of that many bits. -/
def parseUnsigned (bits : Nat) (s : String) : Option Nat :=
  let digits := signless s.toList
  if digits.isEmpty || !digits.all Char.isDigit then none
  else
    let value := digits.foldl (fun n c => 10 * n + (c.toNat - 48)) 0
    if value < 2 ^ bits then some value else none

theorem isDigit_toString {n : Nat} : ∀ c ∈ (toString n).toList, c.isDigit = true := by
  intro c member
  rw [Nat.toString_eq_repr, Nat.toList_repr] at member
  exact Nat.isDigit_of_mem_toDigits (by omega) (by omega) member

theorem toList_toString_ne_nil (n : Nat) : (toString n).toList ≠ [] := by
  rw [Nat.toString_eq_repr, Nat.toList_repr]
  exact Nat.toDigits_ne_nil

theorem not_mem_toString {n : Nat} {c : Char} (other : c.isDigit = false) :
    c ∉ (toString n).toList := by
  intro member
  rw [isDigit_toString c member] at other
  exact Bool.noConfusion other

theorem parseUnsigned_toString {bits n : Nat} (fits : n < 2 ^ bits) :
    parseUnsigned bits (toString n) = some n := by
  have digits : (toString n).toList.all Char.isDigit = true :=
    List.all_eq_true.mpr isDigit_toString
  have some_ : (toString n).toList.isEmpty = false := by
    rw [← Bool.not_eq_true, List.isEmpty_iff]
    exact toList_toString_ne_nil n
  have unsigned : signless (toString n).toList = (toString n).toList := by
    unfold signless
    split
    · rename_i rest text
      have plus := isDigit_toString (n := n) '+' (text ▸ List.mem_cons_self)
      exact absurd plus (by decide)
    · rfl
  have value : (toString n).toList.foldl (fun n c => 10 * n + (c.toNat - 48)) 0 = n := by
    rw [Nat.toString_eq_repr, Nat.toList_repr]
    exact Nat.ofDigitChars_eq_foldl.symm.trans Nat.ofDigitChars_ten_toDigits
  unfold parseUnsigned
  simp only [unsigned, some_, digits, value, Bool.not_true, Bool.or_self, Bool.false_eq_true,
    if_false, if_pos fits]

theorem utf8ByteSize_le (s : String) : s.utf8ByteSize ≤ 4 * s.toList.length := by
  obtain ⟨text, rfl⟩ : ∃ text, String.ofList text = s := ⟨s.toList, String.ofList_toList⟩
  rw [String.toList_ofList]
  induction text with
  | nil => exact Nat.le_refl 0
  | cons c text ih =>
      have four := c.utf8Size_le_four
      rw [String.ofList_cons, String.utf8ByteSize_append, String.utf8ByteSize_singleton,
        List.length_cons]
      omega

theorem trim_ne_empty {s : String} {c : Char} (mem : c ∈ s.toList)
    (visible : isWhitespace c = false) : trim s ≠ "" := by
  intro empty
  have rest : ((s.toList.dropWhile isWhitespace).reverse.dropWhile isWhitespace) = [] := by
    have chars := congrArg String.toList empty
    rw [trim, String.toList_ofList] at chars
    exact List.reverse_eq_nil_iff.mp chars
  rw [List.dropWhile_eq_nil_iff] at rest
  rw [← List.takeWhile_append_dropWhile (p := isWhitespace) (l := s.toList)] at mem
  have white : isWhitespace c = true := by
    rcases List.mem_append.mp mem with early | late
    · exact List.mem_takeWhile_imp early
    · exact rest c (List.mem_reverse.mpr late)
  rw [visible] at white
  cases white

theorem mem_intercalate {sep part : String} {c : Char} (mem : c ∈ part.toList) :
    ∀ {parts : List String}, part ∈ parts → c ∈ (sep.intercalate parts).toList := by
  intro parts
  induction parts with
  | nil => exact fun none_ => (List.not_mem_nil none_).elim
  | cons first rest ih =>
      intro member
      rcases List.mem_cons.mp member with rfl | later
      · cases rest with
        | nil =>
            rw [String.intercalate_singleton]
            exact mem
        | cons second rest =>
            rw [String.intercalate_cons_cons, String.toList_append, String.toList_append]
            exact List.mem_append_left _ (List.mem_append_left _ mem)
      · rw [String.intercalate_cons_of_ne_nil (List.ne_nil_of_mem later), String.toList_append]
        exact List.mem_append_right _ (ih later)

end Logweir.Text

/-!
## Texts written line by line

A text of pieces each on a line of its own, and what `str::lines` reads back of it,
also where a piece ends in carriage returns.
-/

namespace Logweir.Text

theorem startsWith_append (start rest : String) : startsWith (start ++ rest) start = true := by
  unfold startsWith
  rw [String.toList_append]
  exact List.isPrefixOf_iff_prefix.mpr (List.prefix_append _ _)

/-- `trim_end_matches(c)`. -/
def trimEnd (c : Char) (s : String) : String :=
  String.ofList (s.toList.reverse.dropWhile fun d => d == c).reverse

def unlines (parts : List String) : String := String.join (parts.map fun part => part ++ "\n")

theorem unlines_cons (part : String) (parts : List String) :
    unlines (part :: parts) = part ++ "\n" ++ unlines parts := by
  unfold unlines
  rw [List.map_cons, String.join_cons]

theorem unlines_append (parts parts' : List String) :
    unlines (parts ++ parts') = unlines parts ++ unlines parts' := by
  induction parts with
  | nil => exact String.empty_append.symm
  | cons part parts ih =>
      rw [List.cons_append, unlines_cons, unlines_cons, ih]
      simp only [String.append_assoc]

theorem lines_cons {part : String} (plain : '\n' ∉ part.toList) (rest : String) :
    lines (part ++ "\n" ++ rest) =
      String.ofList (stripLine (part.toList ++ ['\n'])) :: lines rest := by
  have cut : splitInclusive (part ++ "\n" ++ rest).toList =
      (part.toList ++ ['\n']) :: splitInclusive rest.toList := by
    rw [String.toList_append, String.toList_append, List.append_assoc]
    exact splitInclusive_line plain rest.toList
  unfold lines
  rw [cut, List.map_cons]

theorem lines_unlines {parts : List String} (plain : ∀ part ∈ parts, '\n' ∉ part.toList) :
    lines (unlines parts) =
      parts.map fun part => String.ofList (stripLine (part.toList ++ ['\n'])) := by
  induction parts with
  | nil => rfl
  | cons part parts ih =>
      rw [unlines_cons, lines_cons (plain part List.mem_cons_self), List.map_cons,
        ih fun p member => plain p (List.mem_cons_of_mem part member)]

/-- The carriage return a line's end takes along is one that trimming takes anyway. -/
theorem trimEnd_stripLine (s : String) :
    trimEnd '\r' (String.ofList (stripLine (s.toList ++ ['\n']))) = trimEnd '\r' s := by
  have last : (s.toList ++ ['\n']).getLast? = some '\n' := List.getLast?_concat
  unfold trimEnd
  rw [String.toList_ofList, stripLine, stripSuffixChar, if_pos last, List.dropLast_concat]
  dsimp only
  unfold stripSuffixChar
  split
  · rename_i ends
    obtain ⟨front, shape⟩ := List.getLast?_eq_some_iff.mp ends
    rw [Option.getD_some, shape, List.dropLast_concat, List.reverse_append,
      List.reverse_singleton, List.singleton_append]
    rfl
  · rfl

theorem trimEnd_of_not_mem {c : Char} {s : String} (absent : c ∉ s.toList) : trimEnd c s = s := by
  have kept : (s.toList.reverse.dropWhile fun d => d == c) = s.toList.reverse := by
    cases back : s.toList.reverse with
    | nil => rfl
    | cons d rest =>
        have here : d ∈ s.toList := by
          rw [← List.mem_reverse, back]
          exact List.mem_cons_self
        have other : ¬ (d == c) = true := fun same => absent (eq_of_beq same ▸ here)
        exact List.dropWhile_cons_of_neg other
  unfold trimEnd
  rw [kept, List.reverse_reverse, String.ofList_toList]

end Logweir.Text
