import Logweir.Cadence.Fields
import Logweir.Library.Checked
import Mathlib.Data.List.Induction

/-!
# The grammar of the expressions

`Cron::parse` against its grammar: the texts it accepts, the values each field's bits stand for,
and the 64-bit arithmetic of a build that checks it.  One step is too wide for that arithmetic,
where a field begins at 1.
-/

set_option autoImplicit false

namespace Logweir.Cadence

open Logweir.Text
open Logweir.Checked (Run Outcome Follows Agrees)

/-- Decimal digits without a sign, of a number of 64 bits. -/
def Numeral (text : String) (n : Nat) : Prop := '+' ∉ text.toList ∧ parseUnsigned 64 text = some n

inductive Term (row : FieldRow) : String → Prop
  | every : Term row "*"
  | step {text : String} {n : Nat} : Numeral text n → 1 ≤ n → Term row ("*/" ++ text)
  | range {first last : String} {a b : Nat} :
      Numeral first a → Numeral last b → row.min ≤ a → a ≤ b → b ≤ row.max →
      Term row (first ++ "-" ++ last)
  | literal {text : String} {v : Nat} : Numeral text v → row.min ≤ v → v ≤ row.max → Term row text

def Field (row : FieldRow) (field : String) : Prop := ∀ term ∈ split ',' field, Term row term

namespace FiveFields

def words (f : FiveFields) : List String :=
  [f.minute, f.hour, f.dayOfMonth, f.month, f.dayOfWeek]

structure Accepted (f : FiveFields) : Prop where
  minute : Field minuteField f.minute
  hour : Field hourField f.hour
  dayOfMonth : Field dayOfMonthField f.dayOfMonth
  month : Field monthField f.month
  dayOfWeek : Field dayOfWeekField f.dayOfWeek

end FiveFields

inductive Grammar (text : String) : FiveFields → Prop
  | form {f : FiveFields} {expansion : String} :
      (trim text, expansion) ∈ atForms → splitWhitespace expansion = f.words → Grammar text f
  | fields {f : FiveFields} : splitWhitespace text = f.words → f.Accepted → Grammar text f

/-- Each field's bits are the values its terms name, and the flags are set where a field does not
start with `*`. -/
structure Cron.Means (c : Cron) (f : FiveFields) : Prop where
  minute : ∀ v, c.minute.testBit v = true ↔ inField minuteField f.minute v
  hour : ∀ v, c.hour.testBit v = true ↔ inField hourField f.hour v
  dayOfMonth : ∀ v, c.dayOfMonth.testBit v = true ↔ inField dayOfMonthField f.dayOfMonth v
  month : ∀ v, c.month.testBit v = true ↔ inField monthField f.month v
  dayOfWeek : ∀ v, c.dayOfWeek.testBit v = true ↔ inField dayOfWeekField f.dayOfWeek v
  domRestricted : c.domRestricted = !starred f.dayOfMonth
  dowRestricted : c.dowRestricted = !starred f.dayOfWeek

namespace Debug

/-- `for v in first..=last { bits |= 1u64 << v }`. -/
def setBits {ε : Type} : List Nat → Nat → Run ε Nat
  | [], bits => .done bits
  | v :: values, bits => do
      let one ← .one 64 v
      setBits values (bits ||| one)

def mask {ε : Type} (min max : Nat) : Run ε Nat := setBits (List.range' min (max + 1 - min)) 0

def stepBits {ε : Type} (n max : Nat) : Nat → Nat → Nat → Run ε Nat
  | 0, _, bits => .done bits
  | fuel + 1, v, bits =>
      if v ≤ max then do
        let one ← .one 64 v
        let v ← .add 64 v n
        stepBits n max fuel v (bits ||| one)
      else .done bits

def parseTerm (term : String) (min max : Nat) : Run FieldProblem Nat :=
  if '+' ∈ term.toList then .fail .unrecognised
  else if term = "*" then mask min max
  else
    match stripPrefix "*/" term with
    | some step =>
        match parseUnsigned 64 step with
        | none => .fail .unrecognised
        | some n => if n = 0 then .fail .zeroStep else stepBits n max (max + 2) min 0
    | none =>
        match splitOnce '-' term with
        | some (first, last) =>
            match parseUnsigned 64 first, parseUnsigned 64 last with
            | some first, some last => do
                .lift (checkRange first min max)
                .lift (checkRange last min max)
                if last < first then .fail (.descendingRange first last)
                else setBits (List.range' first (last + 1 - first)) 0
            | _, _ => .fail .unrecognised
        | none =>
            match parseUnsigned 64 term with
            | none => .fail .unrecognised
            | some value => do
                .lift (checkRange value min max)
                .one 64 value

def parseTerms (row : FieldRow) : List String → Nat → Run CronError Nat
  | [], bits => .done bits
  | term :: terms, bits => do
      let more ← (parseTerm term row.min row.max).mapError (.field row.index row.name term)
      parseTerms row terms (bits ||| more)

def parseField (row : FieldRow) (field : String) : Run CronError (Nat × Bool) := do
  let bits ← parseTerms row (split ',' field) 0
  .done (bits, !starred field)

def parse (expr : String) : Run CronError Cron := do
  let expanded ← .lift (expand expr)
  match splitWhitespace expanded with
  | [minute, hour, dayOfMonth, month, dayOfWeek] => do
      let (minute, _) ← parseField minuteField minute
      let (hour, _) ← parseField hourField hour
      let (dayOfMonth, domRestricted) ← parseField dayOfMonthField dayOfMonth
      let (month, _) ← parseField monthField month
      let (dayOfWeek, dowRestricted) ← parseField dayOfWeekField dayOfWeek
      .done { minute, hour, dayOfMonth, month, dayOfWeek, domRestricted, dowRestricted }
  | fields => .fail (.fieldCount fields.length)

end Debug

/-- The parse accepts exactly the grammar, its bits mean what the text says, and none of its
arithmetic leaves 64 bits. -/
structure ParsesItsGrammar (text : String) : Prop where
  accepts : (∃ c, Cron.parse text = .ok c) ↔ ∃ f, Grammar text f
  means : ∀ c, Cron.parse text = .ok c → ∀ f, Grammar text f → c.Means f
  fits : (Debug.parse text).outcome ≠ .panic

/-- The step whose sum with 1 is past 64 bits. -/
def Widest (term : String) : Prop := ∃ text, term = "*/" ++ text ∧ Numeral text (2 ^ 64 - 1)

/-- The field begins at 1 and has that step among its terms, the ones before it accepted. -/
def Meets (row : FieldRow) (terms : List String) : Prop :=
  row.min = 1 ∧ ∃ before term after, terms = before ++ term :: after ∧
    (∀ t ∈ before, Term row t) ∧ Widest term

def MeetsWidest (row : FieldRow) (field : String) : Prop := Meets row (split ',' field)

/-- The parse comes to that step: the fields before it are accepted. -/
def FiveFields.Overflows (f : FiveFields) : Prop :=
  Field minuteField f.minute ∧ Field hourField f.hour ∧
    (MeetsWidest dayOfMonthField f.dayOfMonth ∨
      Field dayOfMonthField f.dayOfMonth ∧ MeetsWidest monthField f.month)

def Overflows (text : String) : Prop :=
  ∃ f : FiveFields, splitWhitespace text = f.words ∧ f.Overflows

theorem head_word {text : String} {c : Char} {rest : List Char} (begins : text.toList = c :: rest)
    (visible : isWhitespace c = false) :
    ∃ word words, splitWhitespace text = word :: words ∧ c ∈ word.toList := by
  obtain ⟨first, others, parts⟩ :=
    List.exists_cons_of_ne_nil (List.splitOnP_ne_nil isWhitespace rest)
  unfold splitWhitespace
  rw [begins, List.splitOnP_cons_eq_if_modifyHead, if_neg (by simp [visible]), parts,
    List.modifyHead_cons, List.filter_cons_of_pos (by simp), List.map_cons]
  refine ⟨_, _, rfl, ?_⟩
  rw [String.toList_ofList]
  exact List.mem_cons_self

theorem mem_splitChars {sep c : Char} (other : c ≠ sep) :
    ∀ {s : List Char}, c ∈ s → ∃ piece ∈ splitChars sep s, c ∈ piece := by
  intro s
  induction s with
  | nil => exact fun none_ => (List.not_mem_nil none_).elim
  | cons d s ih =>
      intro member
      rw [splitChars]
      split_ifs with cut
      · rcases List.mem_cons.mp member with rfl | later
        · exact absurd cut other
        · obtain ⟨piece, here, inside⟩ := ih later
          exact ⟨piece, List.mem_cons_of_mem _ here, inside⟩
      · split
        · rename_i none_
          exact absurd none_ (splitChars_ne_nil sep s)
        · rename_i first rest parts
          rw [parts] at ih
          rcases List.mem_cons.mp member with rfl | later
          · exact ⟨c :: first, List.mem_cons_self, List.mem_cons_self⟩
          · obtain ⟨piece, here, inside⟩ := ih later
            rcases List.mem_cons.mp here with rfl | there
            · exact ⟨d :: piece, List.mem_cons_self, List.mem_cons_of_mem _ inside⟩
            · exact ⟨piece, List.mem_cons_of_mem _ there, inside⟩

theorem mem_piece {field : String} {c : Char} (other : c ≠ ',') (member : c ∈ field.toList) :
    ∃ term ∈ split ',' field, c ∈ term.toList := by
  obtain ⟨piece, here, inside⟩ := mem_splitChars other member
  refine ⟨String.ofList piece, List.mem_map_of_mem here, ?_⟩
  rwa [String.toList_ofList]

theorem words_dropWhile (p : Char → Bool) (s : List Char) :
    ((s.dropWhile p).splitOnP p).filter (· ≠ []) = (s.splitOnP p).filter (· ≠ []) := by
  induction s with
  | nil => rfl
  | cons c s ih =>
      rw [List.dropWhile_cons]
      split_ifs with white
      · rw [ih, List.splitOnP_cons_eq_if_modifyHead, if_pos white,
          List.filter_cons_of_neg (by simp)]
      · rfl

theorem splitOnP_concat {p : Char → Bool} {c : Char} (white : p c = true) (s : List Char) :
    (s ++ [c]).splitOnP p = s.splitOnP p ++ [[]] := by
  induction s with
  | nil => rw [List.nil_append, List.splitOnP_cons_eq_if_modifyHead, if_pos white]; rfl
  | cons d s ih =>
      obtain ⟨first, rest, parts⟩ := List.exists_cons_of_ne_nil (List.splitOnP_ne_nil p s)
      rw [List.cons_append, List.splitOnP_cons_eq_if_modifyHead,
        List.splitOnP_cons_eq_if_modifyHead, ih, parts]
      split_ifs <;> rfl

theorem words_append_white {p : Char → Bool} (s : List Char) {white : List Char}
    (blank : ∀ c ∈ white, p c = true) :
    ((s ++ white).splitOnP p).filter (· ≠ []) = (s.splitOnP p).filter (· ≠ []) := by
  induction white using List.reverseRecOn with
  | nil => rw [List.append_nil]
  | append_singleton white c ih =>
      have later := ih fun d member => blank d (List.mem_append_left _ member)
      rw [← List.append_assoc, splitOnP_concat (blank c (by simp)), List.filter_append, later]
      simp

theorem splitWhitespace_trim (text : String) :
    splitWhitespace (trim text) = splitWhitespace text := by
  unfold splitWhitespace trim
  rw [String.toList_ofList]
  congr 1
  generalize text.toList = s
  rw [← words_dropWhile isWhitespace s]
  generalize s.dropWhile isWhitespace = s
  have whole : (s.reverse.dropWhile isWhitespace).reverse ++
      (s.reverse.takeWhile isWhitespace).reverse = s := by
    rw [← List.reverse_append, List.takeWhile_append_dropWhile, List.reverse_reverse]
  conv_rhs => rw [← whole]
  exact (words_append_white _ fun c member =>
    List.mem_takeWhile_imp (List.mem_reverse.mp member)).symm

theorem checkRange_within {value min max : Nat} (low : min ≤ value) (high : value ≤ max) :
    checkRange value min max = .ok () := if_neg (by omega)

theorem stripPrefix_starless {text : String} (plain : '*' ∉ text.toList) :
    stripPrefix "*/" text = none := by
  apply if_neg
  intro starts
  obtain ⟨rest, whole⟩ := List.isPrefixOf_iff_prefix.mp starts
  exact plain (whole ▸ List.mem_cons_self)

theorem ne_star_of_starless {text : String} (plain : '*' ∉ text.toList) : text ≠ "*" := by
  rintro rfl
  exact plain List.mem_cons_self

theorem splitOnce_plain {text : String} {sep : Char} (plain : sep ∉ text.toList) :
    splitOnce sep text = none := by
  rw [splitOnce, splitOnceChars_eq_none plain]
  rfl

theorem Numeral.plain {text : String} {n : Nat} (numeral : Numeral text n) :
    '*' ∉ text.toList ∧ '/' ∉ text.toList ∧ '-' ∉ text.toList :=
  plain_of_parse numeral.2 numeral.1

section
variable {row : FieldRow} {term : String}

theorem Term.chars (accepted : Term row term) {c : Char} (member : c ∈ term.toList) :
    c.isDigit = true ∨ c = '*' ∨ c = '/' ∨ c = '-' := by
  cases accepted with
  | every =>
      obtain rfl : c = '*' := by simpa using member
      exact .inr (.inl rfl)
  | @step text n numeral pos =>
      simp only [String.toList_append, List.mem_append] at member
      rcases member with form | digit
      · have star : c = '*' ∨ c = '/' := by simpa using form
        exact star.elim (fun h => .inr (.inl h)) fun h => .inr (.inr (.inl h))
      · exact .inl ((digits_of_parse numeral.2 numeral.1).2 c digit)
  | @range first last a b numeral numeral' low order high =>
      simp only [String.toList_append, List.mem_append] at member
      rcases member with (digit | form) | digit
      · exact .inl ((digits_of_parse numeral.2 numeral.1).2 c digit)
      · exact .inr (.inr (.inr (by simpa using form)))
      · exact .inl ((digits_of_parse numeral'.2 numeral'.1).2 c digit)
  | literal numeral low high =>
      exact .inl ((digits_of_parse numeral.2 numeral.1).2 c member)

theorem Term.unsigned (accepted : Term row term) : '+' ∉ term.toList := by
  intro member
  rcases accepted.chars member with digit | star | slash | dash
  · exact absurd digit (by decide)
  · exact absurd star (by decide)
  · exact absurd slash (by decide)
  · exact absurd dash (by decide)

theorem parseTerm_of_term (accepted : Term row term) :
    ∃ bits, parseTerm term row.min row.max = .ok bits := by
  have unsigned := accepted.unsigned
  unfold parseTerm
  rw [if_neg unsigned]
  cases accepted with
  | every => exact ⟨_, if_pos rfl⟩
  | @step text n numeral pos =>
      have longer : "*/" ++ text ≠ "*" := by
        intro same
        have chars := congrArg String.toList same
        simp at chars
      rw [if_neg longer, stripPrefix_append]
      simp only [numeral.2]
      exact ⟨_, if_neg (by omega)⟩
  | @range first last a b numeral numeral' low order high =>
      have starless : '*' ∉ (first ++ "-" ++ last).toList := by
        simp [numeral.plain.1, numeral'.plain.1]
      have cut : splitOnce '-' (first ++ "-" ++ last) = some (first, last) := by
        rw [splitOnce, String.toList_append, String.toList_append, List.append_assoc]
        change Option.map _ (splitOnceChars '-' (first.toList ++ '-' :: last.toList)) = _
        rw [splitOnceChars_append numeral.plain.2.2]
        simp
      rw [if_neg (ne_star_of_starless starless), stripPrefix_starless starless, cut]
      simp only [numeral.2, numeral'.2, checkRange_within low (by omega : a ≤ row.max),
        checkRange_within (by omega : row.min ≤ b) high]
      exact ⟨_, if_neg (by omega)⟩
  | @literal _ v numeral low high =>
      rw [if_neg (ne_star_of_starless numeral.plain.1), stripPrefix_starless numeral.plain.1,
        splitOnce_plain numeral.plain.2.2]
      simp only [numeral.2, checkRange_within low high]
      exact ⟨_, rfl⟩

theorem term_of_parseTerm {bits : Nat} (parsed : parseTerm term row.min row.max = .ok bits) :
    Term row term := by
  obtain ⟨unsigned, ⟨rfl, -⟩ | ⟨step, n, rfl, number, pos, -⟩ |
    ⟨first, last, a, b, rfl, number, number', low, order, high, -⟩ | ⟨v, number, low, high, -⟩⟩ :=
    parseTerm_cases parsed
  · exact .every
  · refine .step ⟨fun plus => unsigned ?_, number⟩ pos
    rw [String.toList_append]
    exact List.mem_append_right _ plus
  · refine .range ⟨fun plus => unsigned ?_, number⟩ ⟨fun plus => unsigned ?_, number'⟩ low order high
    · rw [String.toList_append, String.toList_append]
      exact List.mem_append_left _ (List.mem_append_left _ plus)
    · rw [String.toList_append]
      exact List.mem_append_right _ plus
  · exact .literal ⟨unsigned, number⟩ low high

theorem parseTerm_iff : (∃ bits, parseTerm term row.min row.max = .ok bits) ↔ Term row term :=
  ⟨fun ⟨_, parsed⟩ => term_of_parseTerm parsed, parseTerm_of_term⟩

theorem parseTerms_iff (terms : List String) (bits : Nat) :
    (∃ all, parseTerms row terms bits = .ok all) ↔ ∀ term ∈ terms, Term row term := by
  induction terms generalizing bits with
  | nil => simp [parseTerms]
  | cons term terms ih =>
      rw [parseTerms, List.forall_mem_cons, ← parseTerm_iff]
      cases parseTerm term row.min row.max with
      | error problem => simp
      | ok more => simp [ih]

theorem parseField_iff {field : String} :
    (∃ bits, parseField row field = .ok (bits, !starred field)) ↔ Field row field := by
  rw [Field, ← parseTerms_iff _ 0]
  unfold parseField
  constructor
  · rintro ⟨bits, parsed⟩
    obtain ⟨all, terms, -⟩ := Results.bind_eq_ok.mp parsed
    exact ⟨all, terms⟩
  · rintro ⟨all, terms⟩
    exact ⟨all, Results.bind_eq_ok.mpr ⟨all, terms, rfl⟩⟩

theorem field_of_parseField {field : String} {read : Nat × Bool}
    (parsed : parseField row field = .ok read) : Field row field := by
  obtain ⟨all, terms, -⟩ := Results.bind_eq_ok.mp parsed
  exact (parseTerms_iff _ 0).mp ⟨all, terms⟩

end

theorem testBit_stepBits_le {n max : Nat} (pos : 0 < n) (high : max < 64) {min : Nat}
    (fits : min + n < 2 ^ 64) {v : Nat}
    (set : (stepBits n max (max + 2) min 0).testBit v = true) : min ≤ v ∧ v ≤ max := by
  rcases Nat.lt_or_ge (max + n) (2 ^ 64) with narrow | wide
  · rw [testBit_stepBits pos narrow _ _ _ (by omega), Nat.zero_testBit] at set
    obtain ⟨k, rfl, below⟩ := set.resolve_left Bool.false_ne_true
    exact ⟨Nat.le_add_right _ _, below⟩
  · rw [stepBits] at set
    split_ifs at set with inside
    · rw [Nat.mod_eq_of_lt fits, stepBits, if_neg (by omega), Nat.testBit_or, Nat.zero_testBit,
        Bool.false_or, Nat.one_shiftLeft, Nat.testBit_two_pow, decide_eq_true_iff] at set
      omega
    · rw [Nat.zero_testBit] at set
      cases set

section
variable {row : FieldRow} {term : String} {bits : Nat}

theorem parseTerm_inside (fits : row.fits) (narrow : ¬ (row.min = 1 ∧ Widest term))
    (parsed : parseTerm term row.min row.max = .ok bits) {v : Nat} (set : bits.testBit v = true) :
    row.min ≤ v ∧ v ≤ row.max := by
  obtain ⟨unsigned, ⟨rfl, rfl⟩ | ⟨step, n, rfl, number, pos, rfl⟩ |
    ⟨first, last, a, b, rfl, -, -, low, order, high, rfl⟩ | ⟨w, -, low, high, rfl⟩⟩ :=
    parseTerm_cases parsed
  · rw [mask, testBit_setBits] at set
    omega
  · refine testBit_stepBits_le pos fits.2 ?_ set
    have small := parseUnsigned_lt number
    have low := fits.1
    by_contra wide
    refine narrow ⟨by omega, step, rfl, fun plus => unsigned ?_, ?_⟩
    · rw [String.toList_append]
      exact List.mem_append_right _ plus
    · rw [number]
      exact congrArg some (by omega)
  · rw [testBit_setBits] at set
    omega
  · rw [Nat.one_shiftLeft, Nat.testBit_two_pow, decide_eq_true_iff] at set
    omega

theorem parseTerms_inside (fits : row.fits) {v : Nat} (terms : List String) :
    ∀ {bits all : Nat}, (∀ term ∈ terms, ¬ (row.min = 1 ∧ Widest term)) →
      parseTerms row terms bits = .ok all → all.testBit v = true →
      bits.testBit v = true ∨ row.min ≤ v ∧ v ≤ row.max := by
  induction terms with
  | nil =>
      intro bits all _ parsed set
      obtain rfl := Except.ok.inj parsed
      exact .inl set
  | cons term terms ih =>
      intro bits all narrow parsed set
      rw [parseTerms] at parsed
      split at parsed
      · exact Results.not_ok parsed
      · rename_i more one
        have later := ih (fun t member => narrow t (List.mem_cons_of_mem _ member)) parsed set
        rcases later with either | inside
        · rw [Nat.testBit_or, Bool.or_eq_true] at either
          exact either.imp id (parseTerm_inside fits (narrow term List.mem_cons_self) one)
        · exact .inr inside

theorem parseField_exact (fits : row.fits) {field : String} {restricted : Bool}
    (narrow : ∀ term ∈ split ',' field, ¬ (row.min = 1 ∧ Widest term))
    (parsed : parseField row field = .ok (bits, restricted)) (v : Nat) :
    bits.testBit v = true ↔ inField row field v := by
  have named := (parseField_spec fits parsed).2 v
  have within (low : row.min ≤ v) (high : v ≤ row.max) :
      bits.testBit v = true ↔ inField row field v := by
    rw [← named low high, bit, decide_eq_true (Nat.lt_of_le_of_lt high fits.2), Bool.true_and]
  constructor
  · intro set
    obtain ⟨all, terms, pair⟩ := Results.bind_eq_ok.mp parsed
    obtain ⟨rfl, -⟩ := Prod.mk.inj (Except.ok.inj pair)
    have inside := (parseTerms_inside fits _ narrow terms set).resolve_left (by simp)
    exact (within inside.1 inside.2).mp set
  · intro inside
    exact (within inside.1 inside.2.1).mpr inside

end

namespace Debug

theorem setBits_eq {ε : Type} {values : List Nat} (small : ∀ v ∈ values, v < 64) (bits : Nat) :
    (setBits values bits : Run ε Nat) =
      .done (values.foldl (fun bits v => bits ||| 1 <<< v) bits) := by
  induction values generalizing bits with
  | nil => rfl
  | cons v values ih =>
      rw [setBits, Run.one_eq (small v List.mem_cons_self), Run.done_bind, List.foldl_cons]
      exact ih (fun w member => small w (List.mem_cons_of_mem _ member)) _

theorem setBits_range {ε : Type} {first count : Nat} (small : first + count ≤ 64) :
    (setBits (List.range' first count) 0 : Run ε Nat) = .done (Cadence.setBits first count) := by
  refine setBits_eq (fun v member => ?_) 0
  have := List.mem_range'_1.mp member
  omega

theorem stepBits_eq {ε : Type} {n max : Nat} (high : max < 64) :
    ∀ (fuel v bits : Nat), (v ≤ max → v + n < 2 ^ 64) →
      (stepBits n max fuel v bits : Run ε Nat) = .done (Cadence.stepBits n max fuel v bits) := by
  intro fuel
  induction fuel with
  | zero => exact fun _ _ _ => rfl
  | succ fuel ih =>
      intro v bits fits
      rw [stepBits, Cadence.stepBits]
      split_ifs with inside
      · have sum := fits inside
        rw [Run.one_eq (by omega), Run.done_bind, Run.add_eq sum, Run.done_bind,
          Nat.mod_eq_of_lt sum]
        exact ih _ _ fun inside' => by omega
      · rfl

section
variable {row : FieldRow} {term : String}

theorem parseTerm_eq (fits : row.fits) (narrow : ¬ (row.min = 1 ∧ Widest term)) :
    parseTerm term row.min row.max = .lift (Cadence.parseTerm term row.min row.max) := by
  have low := fits.1
  have high := fits.2
  unfold parseTerm Cadence.parseTerm
  split_ifs with signed star
  · rfl
  · exact setBits_range (by omega)
  · cases stripped : stripPrefix "*/" term with
    | some step =>
        simp only
        cases number : parseUnsigned 64 step with
        | none => rfl
        | some n =>
            simp only
            split_ifs with zero
            · rfl
            · refine stepBits_eq high _ _ _ fun inside => ?_
              have small := parseUnsigned_lt number
              by_contra wide
              have whole := stripPrefix_eq_some stripped
              refine narrow ⟨by omega, step, whole, fun plus => signed ?_, ?_⟩
              · rw [whole, String.toList_append]
                exact List.mem_append_right _ plus
              · rw [number]
                exact congrArg some (by omega)
    | none =>
        cases splitOnce '-' term with
        | some parts =>
            obtain ⟨first, last⟩ := parts
            simp only
            cases parseUnsigned 64 first with
            | none => rfl
            | some a =>
                cases parseUnsigned 64 last with
                | none => rfl
                | some b =>
                    simp only [Run.lift_bind]
                    congr 1
                    funext _
                    cases upper : checkRange b row.min row.max with
                    | error problem => rfl
                    | ok u =>
                        have inside := checkRange_ok upper
                        have size : a ≤ b → a + (b + 1 - a) ≤ 64 := by omega
                        change (if _ then _ else _) = Run.lift (if _ then _ else _)
                        split_ifs with order
                        · rfl
                        · exact setBits_range (size (by omega))
        | none =>
            simp only
            cases parseUnsigned 64 term with
            | none => rfl
            | some value =>
                simp only
                cases upper : checkRange value row.min row.max with
                | error problem => rfl
                | ok u =>
                    have inside := checkRange_ok upper
                    exact Run.one_eq (by omega)

theorem parseTerm_panics (one : row.min = 1) (room : 1 ≤ row.max) (fits : row.fits)
    (widest : Widest term) : (parseTerm term row.min row.max).outcome = .panic := by
  obtain ⟨text, rfl, numeral⟩ := widest
  have accepted : Term row ("*/" ++ text) := .step numeral (by decide)
  have longer : "*/" ++ text ≠ "*" := by
    intro same
    have chars := congrArg String.toList same
    simp at chars
  have high := fits.2
  unfold parseTerm
  rw [if_neg accepted.unsigned, if_neg longer, stripPrefix_append]
  simp only [numeral.2]
  rw [if_neg (by decide), one, stepBits, if_pos room, Run.one_eq (by decide), Run.done_bind]
  exact Run.outcome_bind_panic _ rfl

theorem parseTerms_eq (fits : row.fits) (terms : List String) :
    ∀ bits, ¬ Meets row terms →
      parseTerms row terms bits = .lift (Cadence.parseTerms row terms bits) := by
  induction terms with
  | nil => exact fun _ _ => rfl
  | cons term terms ih =>
      intro bits narrow
      have here : ¬ (row.min = 1 ∧ Widest term) := by
        rintro ⟨one, widest⟩
        refine narrow ⟨one, [], term, terms, rfl, fun t member => ?_, widest⟩
        exact (List.not_mem_nil member).elim
      rw [parseTerms, Cadence.parseTerms, parseTerm_eq fits here]
      cases parsed : Cadence.parseTerm term row.min row.max with
      | error problem => rfl
      | ok more =>
          refine (Run.done_bind more _).trans (ih _ ?_)
          rintro ⟨one, before, wide, after, rfl, accepted, widest⟩
          refine narrow ⟨one, term :: before, wide, after, rfl, ?_, widest⟩
          exact List.forall_mem_cons.mpr ⟨term_of_parseTerm parsed, accepted⟩

theorem parseTerms_panics (fits : row.fits) (room : 1 ≤ row.max) :
    ∀ (terms : List String) (bits : Nat), Meets row terms →
      (parseTerms row terms bits).outcome = .panic := by
  intro terms bits ⟨one, before, wide, after, parts, accepted, widest⟩
  induction before generalizing terms bits with
  | nil =>
      rw [parts, List.nil_append, parseTerms]
      refine Run.outcome_bind_panic _ ?_
      simp only [Run.mapError, parseTerm_panics one room fits widest]
  | cons term before ih =>
      rw [parts, List.cons_append, parseTerms]
      by_cases early : Widest term
      · refine Run.outcome_bind_panic _ ?_
        simp only [Run.mapError, parseTerm_panics one room fits early]
      · obtain ⟨more, parsed⟩ := parseTerm_of_term (accepted term List.mem_cons_self)
        rw [parseTerm_eq fits fun both => early both.2, parsed]
        refine (congrArg Run.outcome (Run.done_bind more _)).trans ?_
        exact ih _ _ rfl fun t member => accepted t (List.mem_cons_of_mem _ member)

theorem parseField_eq (fits : row.fits) {field : String} (narrow : ¬ MeetsWidest row field) :
    parseField row field = .lift (Cadence.parseField row field) := by
  unfold parseField Cadence.parseField
  rw [parseTerms_eq fits _ 0 narrow]
  exact (Run.lift_bind _ fun bits => .ok (bits, !starred field)).symm

theorem parseField_panics (fits : row.fits) (room : 1 ≤ row.max) {field : String}
    (meets : MeetsWidest row field) : (parseField row field).outcome = .panic :=
  Run.outcome_bind_panic _ (parseTerms_panics fits room _ 0 meets)

theorem parseField_reads (fits : row.fits) {field : String} (accepted : Field row field)
    (narrow : ¬ MeetsWidest row field) :
    ∃ bits, parseField row field = .done (bits, !starred field) := by
  obtain ⟨bits, parsed⟩ := parseField_iff.mpr accepted
  exact ⟨bits, by rw [parseField_eq fits narrow, parsed]; rfl⟩

end

end Debug

namespace FiveFields

def parse (f : FiveFields) : Except CronError Cron := do
  let (minute, _) ← parseField minuteField f.minute
  let (hour, _) ← parseField hourField f.hour
  let (dayOfMonth, domRestricted) ← parseField dayOfMonthField f.dayOfMonth
  let (month, _) ← parseField monthField f.month
  let (dayOfWeek, dowRestricted) ← parseField dayOfWeekField f.dayOfWeek
  .ok { minute, hour, dayOfMonth, month, dayOfWeek, domRestricted, dowRestricted }

def debugParse (f : FiveFields) : Run CronError Cron := do
  let (minute, _) ← Debug.parseField minuteField f.minute
  let (hour, _) ← Debug.parseField hourField f.hour
  let (dayOfMonth, domRestricted) ← Debug.parseField dayOfMonthField f.dayOfMonth
  let (month, _) ← Debug.parseField monthField f.month
  let (dayOfWeek, dowRestricted) ← Debug.parseField dayOfWeekField f.dayOfWeek
  .done { minute, hour, dayOfMonth, month, dayOfWeek, domRestricted, dowRestricted }

variable {f : FiveFields} {c : Cron} {text expanded : String}

theorem parse_text (expands : expand text = .ok expanded)
    (words : splitWhitespace expanded = f.words) : Cron.parse text = f.parse := by
  unfold Cron.parse
  rw [expands, Results.ok_bind, words]
  rfl

theorem debugParse_text (expands : expand text = .ok expanded)
    (words : splitWhitespace expanded = f.words) : Debug.parse text = f.debugParse := by
  unfold Debug.parse
  rw [expands, Run.lift_ok, Run.done_bind, words]
  rfl

theorem parse_iff : (∃ c, f.parse = .ok c) ↔ f.Accepted := by
  unfold parse
  constructor
  · rintro ⟨c, parsed⟩
    obtain ⟨⟨minutes, _⟩, one, parsed⟩ := Results.bind_eq_ok.mp parsed
    obtain ⟨⟨hours, _⟩, two, parsed⟩ := Results.bind_eq_ok.mp parsed
    obtain ⟨⟨days, _⟩, three, parsed⟩ := Results.bind_eq_ok.mp parsed
    obtain ⟨⟨months, _⟩, four, parsed⟩ := Results.bind_eq_ok.mp parsed
    obtain ⟨⟨weekdays, _⟩, five, parsed⟩ := Results.bind_eq_ok.mp parsed
    exact ⟨field_of_parseField one, field_of_parseField two, field_of_parseField three,
      field_of_parseField four, field_of_parseField five⟩
  · intro accepted
    obtain ⟨minutes, one⟩ := parseField_iff.mpr accepted.minute
    obtain ⟨hours, two⟩ := parseField_iff.mpr accepted.hour
    obtain ⟨days, three⟩ := parseField_iff.mpr accepted.dayOfMonth
    obtain ⟨months, four⟩ := parseField_iff.mpr accepted.month
    obtain ⟨weekdays, five⟩ := parseField_iff.mpr accepted.dayOfWeek
    rw [one, two, three, four, five]
    exact ⟨_, rfl⟩

theorem not_meets_of_zero {row : FieldRow} {field : String} (zero : row.min = 0) :
    ¬ MeetsWidest row field := by
  rintro ⟨one, -⟩
  omega

theorem debugParse_eq (narrow : ¬ f.Overflows) : f.debugParse = .lift f.parse := by
  unfold debugParse parse
  rw [Debug.parseField_eq ⟨by decide, by decide⟩ (not_meets_of_zero rfl)]
  refine Run.bind_lift fun ⟨minutes, _⟩ one => ?_
  simp only
  rw [Debug.parseField_eq ⟨by decide, by decide⟩ (not_meets_of_zero rfl)]
  refine Run.bind_lift fun ⟨hours, _⟩ two => ?_
  simp only
  have early : Field minuteField f.minute ∧ Field hourField f.hour :=
    ⟨field_of_parseField one, field_of_parseField two⟩
  rw [Debug.parseField_eq ⟨by decide, by decide⟩ fun meets => narrow ⟨early.1, early.2, .inl meets⟩]
  refine Run.bind_lift fun ⟨days, _⟩ three => ?_
  simp only
  rw [Debug.parseField_eq ⟨by decide, by decide⟩ fun meets =>
    narrow ⟨early.1, early.2, .inr ⟨field_of_parseField three, meets⟩⟩]
  refine Run.bind_lift fun ⟨months, _⟩ four => ?_
  simp only
  rw [Debug.parseField_eq ⟨by decide, by decide⟩ (not_meets_of_zero rfl)]
  exact Run.bind_lift fun ⟨weekdays, _⟩ five => rfl

theorem debugParse_panics (wide : f.Overflows) : f.debugParse.outcome = .panic := by
  obtain ⟨minute, hour, late⟩ := wide
  obtain ⟨minutes, one⟩ :=
    Debug.parseField_reads ⟨by decide, by decide⟩ minute (not_meets_of_zero rfl)
  obtain ⟨hours, two⟩ := Debug.parseField_reads ⟨by decide, by decide⟩ hour (not_meets_of_zero rfl)
  unfold debugParse
  rw [one, Run.done_bind]
  simp only
  rw [two, Run.done_bind]
  simp only
  by_cases here : MeetsWidest dayOfMonthField f.dayOfMonth
  · exact Run.outcome_bind_panic _
      (Debug.parseField_panics ⟨by decide, by decide⟩ (by decide) here)
  · obtain ⟨dayOfMonth, month⟩ := late.resolve_left here
    obtain ⟨days, three⟩ := Debug.parseField_reads ⟨by decide, by decide⟩ dayOfMonth here
    rw [three, Run.done_bind]
    exact Run.outcome_bind_panic _
      (Debug.parseField_panics ⟨by decide, by decide⟩ (by decide) month)

theorem Accepted.narrow {row : FieldRow} {field : String} (accepted : Field row field)
    (narrow : ¬ MeetsWidest row field) :
    ∀ term ∈ split ',' field, ¬ (row.min = 1 ∧ Widest term) := by
  rintro term member ⟨one, widest⟩
  obtain ⟨before, after, parts⟩ := List.append_of_mem member
  refine narrow ⟨one, before, term, after, parts, fun t early => accepted t ?_, widest⟩
  rw [parts]
  exact List.mem_append_left _ early

theorem means_of_parse (narrow : ¬ f.Overflows) (parsed : f.parse = .ok c) : c.Means f := by
  have accepted := parse_iff.mp ⟨c, parsed⟩
  have days : ¬ MeetsWidest dayOfMonthField f.dayOfMonth := fun meets =>
    narrow ⟨accepted.minute, accepted.hour, .inl meets⟩
  have months : ¬ MeetsWidest monthField f.month := fun meets =>
    narrow ⟨accepted.minute, accepted.hour, .inr ⟨accepted.dayOfMonth, meets⟩⟩
  obtain ⟨⟨minutes, _⟩, one, parsed⟩ := Results.bind_eq_ok.mp parsed
  obtain ⟨⟨hours, _⟩, two, parsed⟩ := Results.bind_eq_ok.mp parsed
  obtain ⟨⟨dates, _⟩, three, parsed⟩ := Results.bind_eq_ok.mp parsed
  obtain ⟨⟨months', _⟩, four, parsed⟩ := Results.bind_eq_ok.mp parsed
  obtain ⟨⟨weekdays, _⟩, five, parsed⟩ := Results.bind_eq_ok.mp parsed
  rw [← Except.ok.inj parsed]
  exact {
    minute := parseField_exact ⟨by decide, by decide⟩
      (Accepted.narrow accepted.minute (not_meets_of_zero rfl)) one
    hour := parseField_exact ⟨by decide, by decide⟩
      (Accepted.narrow accepted.hour (not_meets_of_zero rfl)) two
    dayOfMonth := parseField_exact ⟨by decide, by decide⟩
      (Accepted.narrow accepted.dayOfMonth days) three
    month := parseField_exact ⟨by decide, by decide⟩
      (Accepted.narrow accepted.month months) four
    dayOfWeek := parseField_exact ⟨by decide, by decide⟩
      (Accepted.narrow accepted.dayOfWeek (not_meets_of_zero rfl)) five
    domRestricted := (parseField_spec ⟨by decide, by decide⟩ three).1
    dowRestricted := (parseField_spec ⟨by decide, by decide⟩ five).1 }

end FiveFields

theorem starts_at_iff {text : String} :
    startsWith text "@" = true ↔ ∃ rest, text.toList = '@' :: rest := by
  rw [startsWith, List.isPrefixOf_iff_prefix]
  constructor
  · rintro ⟨rest, whole⟩
    exact ⟨rest, whole.symm⟩
  · rintro ⟨rest, begins⟩
    exact ⟨rest, begins.symm⟩

theorem Field.no_at {row : FieldRow} {field : String} (accepted : Field row field) :
    '@' ∉ field.toList := by
  intro member
  obtain ⟨term, here, inside⟩ := mem_piece (by decide) member
  rcases (accepted term here).chars inside with digit | star | slash | dash
  · exact absurd digit (by decide)
  · exact absurd star (by decide)
  · exact absurd slash (by decide)
  · exact absurd dash (by decide)

section
variable {text : String} {f : FiveFields}

theorem spells_of_words (words : splitWhitespace text = f.words)
    (minute : Field minuteField f.minute) : Spells text f := by
  refine ⟨trim text, ?_, (splitWhitespace_trim text).trans words⟩
  unfold expand
  apply if_neg
  intro starts
  obtain ⟨rest, begins⟩ := starts_at_iff.mp starts
  obtain ⟨word, others, parts, inside⟩ := head_word begins (by decide)
  rw [splitWhitespace_trim, words] at parts
  obtain ⟨rfl, -⟩ := List.cons.inj parts
  exact minute.no_at inside

theorem alias_fields {expansion : String} (form : (trim text, expansion) ∈ atForms)
    (words : splitWhitespace expansion = f.words) :
    expand text = .ok expansion ∧ f.Accepted ∧ f.dayOfMonth = "*" ∧ f.month = "*" := by
  have daily (minute hour dayOfWeek : String)
      (parsed : ∃ c, (FiveFields.mk minute hour "*" "*" dayOfWeek).parse = .ok c)
      (same : [minute, hour, "*", "*", dayOfWeek] = f.words) :
      f.Accepted ∧ f.dayOfMonth = "*" ∧ f.month = "*" := by
    obtain ⟨minute', hour', dayOfMonth, month, dayOfWeek'⟩ := f
    simp only [FiveFields.words, List.cons.injEq, and_true] at same
    obtain ⟨rfl, rfl, rfl, rfl, rfl⟩ := same
    exact ⟨FiveFields.parse_iff.mp parsed, rfl, rfl⟩
  unfold expand
  simp only [atForms, List.mem_cons, Prod.mk.injEq, List.not_mem_nil, or_false] at form
  rcases form with ⟨named, rfl⟩ | ⟨named, rfl⟩ | ⟨named, rfl⟩
  · rw [named]
    exact ⟨rfl, daily "0" "*" "*" ⟨_, rfl⟩ words⟩
  · rw [named]
    exact ⟨rfl, daily "0" "0" "*" ⟨_, rfl⟩ words⟩
  · rw [named]
    exact ⟨rfl, daily "0" "0" "0" ⟨_, rfl⟩ words⟩

theorem grammar_iff : Grammar text f ↔ Spells text f ∧ f.Accepted := by
  constructor
  · intro derived
    cases derived with
    | @form expansion form words =>
        obtain ⟨expands, accepted, -⟩ := alias_fields form words
        exact ⟨⟨expansion, expands, words⟩, accepted⟩
    | fields words accepted => exact ⟨spells_of_words words accepted.minute, accepted⟩
  · rintro ⟨⟨expanded, expands, words⟩, accepted⟩
    unfold expand at expands
    simp only at expands
    split_ifs at expands with starts
    · split at expands
      · rename_i form expansion found
        obtain rfl := Except.ok.inj expands
        have named : form = trim text := by simpa using List.find?_some found
        exact .form (named ▸ List.mem_of_find?_eq_some found) words
      · exact Results.not_ok expands
    · obtain rfl := Except.ok.inj expands
      exact .fields ((splitWhitespace_trim text).symm.trans words) accepted

theorem parse_iff : (∃ c, Cron.parse text = .ok c) ↔ ∃ f, Grammar text f := by
  simp only [grammar_iff]
  constructor
  · rintro ⟨c, parsed⟩
    obtain ⟨f, spells, -⟩ := (⟨text, c, parsed⟩ : Expression).reads
    obtain ⟨expanded, expands, words⟩ := spells
    rw [FiveFields.parse_text expands words] at parsed
    exact ⟨f, ⟨expanded, expands, words⟩, FiveFields.parse_iff.mp ⟨c, parsed⟩⟩
  · rintro ⟨f, ⟨expanded, expands, words⟩, accepted⟩
    rw [FiveFields.parse_text expands words]
    exact FiveFields.parse_iff.mpr accepted

theorem not_meets_star {row : FieldRow} : ¬ MeetsWidest row "*" := by
  rintro ⟨-, before, term, after, parts, -, step, rfl, -⟩
  have member : "*/" ++ step ∈ split ',' "*" := by
    rw [parts]
    exact List.mem_append_right _ List.mem_cons_self
  have same : "*/" ++ step = "*" := by simpa [split, splitChars] using member
  have chars := congrArg String.toList same
  simp at chars

theorem narrow_of_spells (narrow : ¬ Overflows text) (spells : Spells text f) : ¬ f.Overflows := by
  obtain ⟨expanded, expands, words⟩ := spells
  intro wide
  unfold expand at expands
  simp only at expands
  split_ifs at expands with starts
  · split at expands
    · rename_i form expansion found
      obtain rfl := Except.ok.inj expands
      have named : form = trim text := by simpa using List.find?_some found
      obtain ⟨-, -, days, months⟩ :=
        alias_fields (named ▸ List.mem_of_find?_eq_some found) words
      rcases wide.2.2 with here | ⟨-, here⟩
      · exact not_meets_star (days ▸ here)
      · exact not_meets_star (months ▸ here)
    · exact Results.not_ok expands
  · obtain rfl := Except.ok.inj expands
    exact narrow ⟨f, (splitWhitespace_trim text).symm.trans words, wide⟩

theorem debug_parse_eq (narrow : ¬ Overflows text) :
    Debug.parse text = .lift (Cron.parse text) := by
  cases expands : expand text with
  | error e =>
      unfold Debug.parse Cron.parse
      rw [expands]
      rfl
  | ok expanded =>
      by_cases five : ∃ f : FiveFields, splitWhitespace expanded = f.words
      · obtain ⟨f, words⟩ := five
        rw [FiveFields.debugParse_text expands words, FiveFields.parse_text expands words]
        exact FiveFields.debugParse_eq (narrow_of_spells narrow ⟨expanded, expands, words⟩)
      · unfold Debug.parse Cron.parse
        rw [expands, Run.lift_ok, Run.done_bind, Results.ok_bind]
        generalize splitWhitespace expanded = parts at five
        match parts, five with
        | [], _ => rfl
        | [_], _ => rfl
        | [_, _], _ => rfl
        | [_, _, _], _ => rfl
        | [_, _, _, _], _ => rfl
        | [minute, hour, dayOfMonth, month, dayOfWeek], five =>
            exact absurd ⟨⟨minute, hour, dayOfMonth, month, dayOfWeek⟩, rfl⟩ five
        | _ :: _ :: _ :: _ :: _ :: _ :: _, _ => rfl

/-- The parse does all that is asked of it where it does not come to the widest step in a field
that begins at 1, and only there. -/
theorem parses_its_grammar_iff (text : String) : ParsesItsGrammar text ↔ ¬ Overflows text := by
  constructor
  · rintro parses ⟨f, words, wide⟩
    obtain ⟨expanded, expands, words⟩ := spells_of_words words wide.1
    refine parses.fits ?_
    rw [FiveFields.debugParse_text expands words]
    exact FiveFields.debugParse_panics wide
  · intro narrow
    refine ⟨parse_iff, fun c parsed f derived => ?_, ?_⟩
    · obtain ⟨spells, -⟩ := grammar_iff.mp derived
      obtain ⟨expanded, expands, words⟩ := spells
      rw [FiveFields.parse_text expands words] at parsed
      exact FiveFields.means_of_parse (narrow_of_spells narrow ⟨expanded, expands, words⟩) parsed
    · rw [debug_parse_eq narrow]
      exact Run.outcome_lift_ne_panic _

end

/-- A day-of-month step of 2^64 - 1: the sum with 1 panics where it is checked, and elsewhere
wraps to a day 0. -/
theorem widest_step_wraps :
    (Debug.parse "0 0 */18446744073709551615 * *").outcome = .panic ∧
      (∃ c, Cron.parse "0 0 */18446744073709551615 * *" = .ok c ∧ c.dayOfMonth.testBit 0 = true) ∧
      ¬ ParsesItsGrammar "0 0 */18446744073709551615 * *" := by
  have panics : (Debug.parse "0 0 */18446744073709551615 * *").outcome = .panic := by
    decide +kernel
  exact ⟨panics, ⟨_, rfl, rfl⟩, fun parses => parses.fits panics⟩

end Logweir.Cadence
