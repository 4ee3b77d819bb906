import Logweir.Cadence.Cron
import Logweir.Library.Results
import Mathlib.Data.Nat.Bitwise

/-!
# What the fields name

The values that a field's text names, and that the bits of a parsed field are these.
-/

set_option autoImplicit false

namespace Logweir.Cadence

open Logweir.Text

/-- The values a term names in a field from `min` to `max`. -/
inductive Names (min max : Nat) : String → Nat → Prop
  | every {v : Nat} : Names min max "*" v
  | step {text : String} {n k : Nat} :
      parseUnsigned 64 text = some n → 0 < n → Names min max ("*/" ++ text) (min + k * n)
  | range {first last : String} {a b v : Nat} :
      parseUnsigned 64 first = some a → parseUnsigned 64 last = some b → a ≤ v → v ≤ b →
      Names min max (first ++ "-" ++ last) v
  | literal {text : String} {v : Nat} : parseUnsigned 64 text = some v → Names min max text v

def inField (row : FieldRow) (field : String) (v : Nat) : Prop :=
  row.min ≤ v ∧ v ≤ row.max ∧ ∃ term ∈ split ',' field, Names row.min row.max term v

theorem digits_of_parse {text : String} {n : Nat} (number : parseUnsigned 64 text = some n)
    (unsigned : '+' ∉ text.toList) :
    text.toList ≠ [] ∧ ∀ c ∈ text.toList, c.isDigit = true := by
  have same : signless text.toList = text.toList := by
    unfold signless
    split
    · rename_i rest chars
      exact absurd (chars ▸ List.mem_cons_self) unsigned
    · rfl
  unfold parseUnsigned at number
  simp only [same] at number
  split at number
  · exact absurd number.symm (Option.some_ne_none _)
  · rename_i plain
    rw [Bool.or_eq_true, not_or, List.isEmpty_iff, Bool.not_eq_true', Bool.not_eq_false,
      List.all_eq_true] at plain
    exact plain

theorem testBit_foldl_set (values : List Nat) (bits v : Nat) :
    (values.foldl (fun bits v => bits ||| 1 <<< v) bits).testBit v = true ↔
      bits.testBit v = true ∨ v ∈ values := by
  induction values generalizing bits with
  | nil => simp
  | cons w values ih =>
      rw [List.foldl_cons, ih, Nat.testBit_or, Bool.or_eq_true, Nat.one_shiftLeft,
        Nat.testBit_two_pow, decide_eq_true_iff, List.mem_cons, or_assoc, eq_comm (a := w)]

theorem testBit_setBits (first count v : Nat) :
    (setBits first count).testBit v = true ↔ first ≤ v ∧ v < first + count := by
  rw [setBits, testBit_foldl_set, List.mem_range'_1]
  simp

theorem testBit_stepBits {n max : Nat} (pos : 0 < n) (fits : max + n < 2 ^ 64) :
    ∀ (fuel v bits : Nat), max < v + fuel → ∀ w,
      (stepBits n max fuel v bits).testBit w = true ↔
        bits.testBit w = true ∨ ∃ k, w = v + k * n ∧ w ≤ max := by
  intro fuel
  induction fuel with
  | zero =>
      intro v bits past w
      rw [stepBits]
      refine ⟨.inl, fun h => h.resolve_right ?_⟩
      rintro ⟨k, rfl, small⟩
      have := Nat.zero_le (k * n)
      omega
  | succ fuel ih =>
      intro v bits enough w
      rw [stepBits]
      split_ifs with small
      · rw [Nat.mod_eq_of_lt (by omega), ih _ _ (by omega), Nat.testBit_or, Bool.or_eq_true,
          Nat.one_shiftLeft, Nat.testBit_two_pow, decide_eq_true_iff, or_assoc]
        apply or_congr_right
        constructor
        · rintro (rfl | ⟨k, rfl, le⟩)
          · exact ⟨0, by omega, small⟩
          · exact ⟨k + 1, by rw [Nat.succ_mul]; omega, le⟩
        · rintro ⟨k, rfl, le⟩
          rcases k with - | k
          · exact .inl (by omega)
          · exact .inr ⟨k, by rw [Nat.succ_mul]; omega, le⟩
      · refine ⟨.inl, fun h => h.resolve_right ?_⟩
        rintro ⟨k, rfl, le⟩
        have := Nat.zero_le (k * n)
        omega

theorem testBit_step {n min max : Nat} (pos : 0 < n) (fits : n < 2 ^ 64) (low : min ≤ 1)
    (high : max < 64) {w : Nat} (above : min ≤ w) (below : w ≤ max) :
    (stepBits n max (max + 2) min 0).testBit w = true ↔ ∃ k, w = min + k * n := by
  rcases Nat.lt_or_ge (max + n) (2 ^ 64) with narrow | wide
  · rw [testBit_stepBits pos narrow _ _ _ (by omega), Nat.zero_testBit]
    simp only [Bool.false_eq_true, false_or]
    exact ⟨fun ⟨k, at_, _⟩ => ⟨k, at_⟩, fun ⟨k, at_⟩ => ⟨k, at_, below⟩⟩
  · have only : (∃ k, w = min + k * n) ↔ w = min := by
      constructor
      · rintro ⟨k, rfl⟩
        rcases k with - | k
        · omega
        · rw [Nat.succ_mul] at below
          have := Nat.zero_le (k * n)
          omega
      · rintro rfl
        exact ⟨0, by omega⟩
    rw [only, stepBits, if_pos (by omega), stepBits]
    split_ifs with wrapped
    · -- Only 1 + (2^64 - 1) wraps, to 0, which is no value of such a field.
      have zero : (min + n) % 2 ^ 64 = 0 := by omega
      rw [zero] at wrapped ⊢
      have one : min = 1 := by omega
      rcases max with - | max
      · omega
      · rw [stepBits, if_neg (by rw [Nat.mod_eq_of_lt (by omega)]; omega), Nat.testBit_or,
          Nat.testBit_or, Nat.zero_testBit, Nat.one_shiftLeft, Nat.one_shiftLeft,
          Nat.testBit_two_pow, Nat.testBit_two_pow, Bool.false_or, Bool.or_eq_true,
          decide_eq_true_iff, decide_eq_true_iff]
        omega
    · rw [Nat.testBit_or, Nat.zero_testBit, Nat.one_shiftLeft, Nat.testBit_two_pow, Bool.false_or,
        decide_eq_true_iff, eq_comm]

theorem checkRange_ok {value min max : Nat} (ok : checkRange value min max = .ok ()) :
    min ≤ value ∧ value ≤ max := by
  unfold checkRange at ok
  split_ifs at ok with outside
  omega

theorem parseUnsigned_lt {text : String} {n : Nat} (number : parseUnsigned 64 text = some n) :
    n < 2 ^ 64 := by
  unfold parseUnsigned at number
  simp only at number
  split at number
  · exact absurd number.symm (Option.some_ne_none _)
  · split at number
    · rename_i fits
      exact Option.some.inj number ▸ fits
    · exact absurd number.symm (Option.some_ne_none _)

section
variable {term : String} {min max bits : Nat}

theorem parseTerm_cases (parsed : parseTerm term min max = .ok bits) :
    '+' ∉ term.toList ∧
      ((term = "*" ∧ bits = mask min max) ∨
      (∃ step n, term = "*/" ++ step ∧ parseUnsigned 64 step = some n ∧ 0 < n ∧
        bits = stepBits n max (max + 2) min 0) ∨
      (∃ first last a b, term = first ++ "-" ++ last ∧ parseUnsigned 64 first = some a ∧
        parseUnsigned 64 last = some b ∧ min ≤ a ∧ a ≤ b ∧ b ≤ max ∧
        bits = setBits a (b + 1 - a)) ∨
      (∃ value, parseUnsigned 64 term = some value ∧ min ≤ value ∧ value ≤ max ∧
        bits = 1 <<< value)) := by
  unfold parseTerm at parsed
  split at parsed
  · exact absurd parsed (by simp)
  rename_i unsigned
  refine ⟨unsigned, ?_⟩
  split at parsed
  · rename_i star
    exact .inl ⟨star, (Except.ok.inj parsed).symm⟩
  split at parsed
  · rename_i step stripped
    split at parsed
    · exact absurd parsed (by simp)
    · rename_i n number
      split at parsed
      · exact absurd parsed (by simp)
      · rename_i pos
        exact .inr (.inl ⟨step, n, stripPrefix_eq_some stripped, number, by omega,
          (Except.ok.inj parsed).symm⟩)
  split at parsed
  · rename_i first last parts
    split at parsed
    · rename_i a b number number'
      simp only [bind, Except.bind] at parsed
      split at parsed
      · exact absurd parsed (by simp)
      rename_i low
      split at parsed
      · exact absurd parsed (by simp)
      rename_i high
      split_ifs at parsed with order
      have := checkRange_ok low
      have := checkRange_ok high
      refine .inr (.inr (.inl ⟨first, last, a, b, ?_, number, number', by omega, by omega,
        by omega, (Except.ok.inj parsed).symm⟩))
      obtain ⟨⟨before, after⟩, found, pair⟩ := Option.map_eq_some_iff.mp parts
      obtain ⟨rfl, rfl⟩ := Prod.mk.inj pair
      apply String.ext
      simp [splitOnceChars_eq_some found]
    · exact absurd parsed (by simp)
  · split at parsed
    · exact absurd parsed (by simp)
    · rename_i value number
      simp only [bind, Except.bind] at parsed
      split at parsed
      · exact absurd parsed (by simp)
      rename_i inside
      have := checkRange_ok inside
      exact .inr (.inr (.inr ⟨value, number, this.1, this.2, (Except.ok.inj parsed).symm⟩))

theorem plain_of_parse {text : String} {n : Nat} (number : parseUnsigned 64 text = some n)
    (unsigned : '+' ∉ text.toList) :
    '*' ∉ text.toList ∧ '/' ∉ text.toList ∧ '-' ∉ text.toList := by
  have digits := (digits_of_parse number unsigned).2
  refine ⟨fun mem => ?_, fun mem => ?_, fun mem => ?_⟩
  · exact absurd (digits _ mem) (by decide)
  · exact absurd (digits _ mem) (by decide)
  · exact absurd (digits _ mem) (by decide)

theorem parseTerm_names (parsed : parseTerm term min max = .ok bits) (low : min ≤ 1)
    (high : max < 64) {w : Nat} (above : min ≤ w) (below : w ≤ max) :
    bits.testBit w = true ↔ Names min max term w := by
  obtain ⟨unsigned, ⟨rfl, rfl⟩ | ⟨step, n, rfl, number, pos, rfl⟩ |
    ⟨first, last, a, b, rfl, number, number', _, _, _, rfl⟩ | ⟨value, number, _, _, rfl⟩⟩ :=
    parseTerm_cases parsed
  · rw [mask, testBit_setBits]
    exact iff_of_true (by omega) .every
  · rw [testBit_step pos (parseUnsigned_lt number) low high above below]
    constructor
    · rintro ⟨k, rfl⟩
      exact .step number pos
    · intro named
      generalize whole : "*/" ++ step = term at named unsigned
      have slash : '/' ∈ term.toList := by simp [← whole]
      cases named with
      | every => exact absurd slash (by decide)
      | @step text m k number' _ =>
          obtain rfl : text = step := by simpa using whole.symm
          obtain rfl := Option.some.inj (number.symm.trans number')
          exact ⟨k, rfl⟩
      | @range first last a b _ number number' =>
          simp only [String.toList_append, List.mem_append, not_or] at unsigned slash
          rcases slash with (mem | mem) | mem
          · exact absurd mem (plain_of_parse number unsigned.1.1).2.1
          · exact absurd mem (by decide)
          · exact absurd mem (plain_of_parse number' unsigned.2).2.1
      | literal number => exact absurd slash (plain_of_parse number unsigned).2.1
  · rw [testBit_setBits]
    constructor
    · intro inside
      exact .range number number' inside.1 (by omega)
    · intro named
      have plain : '+' ∉ first.toList ∧ '+' ∉ last.toList := by
        simp only [String.toList_append, List.mem_append, not_or] at unsigned
        exact ⟨unsigned.1.1, unsigned.2⟩
      have before := plain_of_parse number plain.1
      have after := plain_of_parse number' plain.2
      generalize whole : first ++ "-" ++ last = term at named unsigned
      have starless : '*' ∉ term.toList := by simp [← whole, before.1, after.1]
      have dash : '-' ∈ term.toList := by simp [← whole]
      cases named with
      | every => exact absurd (by decide) starless
      | step => simp at starless
      | @range first' last' a' b' _ one two le le' =>
          simp only [String.toList_append, List.mem_append, not_or] at unsigned
          have same := congrArg (fun s => splitOnceChars '-' s.toList) whole
          simp only [String.toList_append, List.append_assoc] at same
          have cut := splitOnceChars_append before.2.2 last.toList
          have cut' := splitOnceChars_append (plain_of_parse one unsigned.1.1).2.2 last'.toList
          have pair := Prod.mk.inj (Option.some.inj (cut.symm.trans (same.trans cut')))
          obtain rfl := String.toList_injective pair.1
          obtain rfl := String.toList_injective pair.2
          obtain rfl := Option.some.inj (number.symm.trans one)
          obtain rfl := Option.some.inj (number'.symm.trans two)
          omega
      | literal number => exact absurd dash (plain_of_parse number unsigned).2.2
  · have plain := plain_of_parse number unsigned
    rw [Nat.one_shiftLeft, Nat.testBit_two_pow, decide_eq_true_iff]
    constructor
    · rintro rfl
      exact .literal number
    · intro named
      cases named with
      | every => exact absurd (by decide) plain.1
      | step => simp at plain
      | range => simp at plain
      | literal number' => exact Option.some.inj (number.symm.trans number')

end

/-- The loop behind `*/n` and the sets of 64 bits are made for such fields. -/
def FieldRow.fits (row : FieldRow) : Prop := row.min ≤ 1 ∧ row.max < 64

theorem parseTerms_names {row : FieldRow} (fits : row.fits) {w : Nat} (above : row.min ≤ w)
    (below : w ≤ row.max) : ∀ (terms : List String) (bits all : Nat),
    parseTerms row terms bits = .ok all →
      (all.testBit w = true ↔
        bits.testBit w = true ∨ ∃ term ∈ terms, Names row.min row.max term w) := by
  intro terms
  induction terms with
  | nil =>
      intro bits all parsed
      obtain rfl := Except.ok.inj parsed
      simp
  | cons term terms ih =>
      intro bits all parsed
      rw [parseTerms] at parsed
      split at parsed
      · exact absurd parsed (by simp)
      · rename_i more one
        rw [ih _ _ parsed, Nat.testBit_or, Bool.or_eq_true,
          parseTerm_names one fits.1 fits.2 above below, or_assoc]
        simp only [List.mem_cons, exists_eq_or_imp]

theorem parseField_spec {row : FieldRow} (fits : row.fits) {field : String} {bits : Nat}
    {restricted : Bool} (parsed : parseField row field = .ok (bits, restricted)) :
    restricted = !starred field ∧
      ∀ v, row.min ≤ v → v ≤ row.max → (bit bits v = true ↔ inField row field v) := by
  obtain ⟨all, terms, pair⟩ := Results.bind_eq_ok.mp parsed
  obtain ⟨rfl, rfl⟩ := Prod.mk.inj (Except.ok.inj pair)
  refine ⟨rfl, fun v above below => ?_⟩
  have within : v < 64 := Nat.lt_of_le_of_lt below fits.2
  rw [bit, decide_eq_true within, Bool.true_and, parseTerms_names fits above below _ _ _ terms,
    Nat.zero_testBit]
  simp only [Bool.false_eq_true, false_or, inField, above, below, true_and]

structure FiveFields where
  minute : String
  hour : String
  dayOfMonth : String
  month : String
  dayOfWeek : String

/-- The five fields that a text, or the alias it is, spells. -/
def Spells (text : String) (f : FiveFields) : Prop :=
  ∃ expanded, expand text = .ok expanded ∧
    splitWhitespace expanded = [f.minute, f.hour, f.dayOfMonth, f.month, f.dayOfWeek]

/-- `cronie`'s day rule: where either field is starred a day is in both, else in one of them. -/
def DayRule (f : FiveFields) (d : CivilDays.Day) : Prop :=
  let dom := inField dayOfMonthField f.dayOfMonth (CivilDays.dayOfMonth d)
  let dow := inField dayOfWeekField f.dayOfWeek (CivilDays.weekday d)
  inField monthField f.month (CivilDays.month d) ∧
    if starred f.dayOfMonth ∨ starred f.dayOfWeek then dom ∧ dow else dom ∨ dow

/-- The first instant of a minute that the fields name. -/
def FiresAt (text : String) (t : Instant) : Prop :=
  t.secs % 60 = 0 ∧ t.nanos = 0 ∧
    ∃ f, Spells text f ∧ DayRule f t.date.day ∧ inField hourField f.hour t.hour ∧
      inField minuteField f.minute t.minute

structure Expression where
  text : String
  cron : Cron
  parsed : Cron.parse text = .ok cron

theorem Spells.unique {text : String} {f f' : FiveFields} (one : Spells text f)
    (two : Spells text f') : f = f' := by
  obtain ⟨expanded, expands, fields⟩ := one
  obtain ⟨expanded', expands', fields'⟩ := two
  obtain rfl := Except.ok.inj (expands.symm.trans expands')
  have same := fields.symm.trans fields'
  simp only [List.cons.injEq, and_true] at same
  cases f
  cases f'
  obtain ⟨rfl, rfl, rfl, rfl, rfl⟩ := same
  rfl

/-- The bits of each field stand for the values it names. -/
structure Reads (f : FiveFields) (c : Cron) : Prop where
  minute : ∀ v ≤ 59, bit c.minute v = true ↔ inField minuteField f.minute v
  hour : ∀ v ≤ 23, bit c.hour v = true ↔ inField hourField f.hour v
  dayOfMonth : ∀ v, 1 ≤ v → v ≤ 31 →
    (bit c.dayOfMonth v = true ↔ inField dayOfMonthField f.dayOfMonth v)
  month : ∀ v, 1 ≤ v → v ≤ 12 → (bit c.month v = true ↔ inField monthField f.month v)
  dayOfWeek : ∀ v ≤ 6, bit c.dayOfWeek v = true ↔ inField dayOfWeekField f.dayOfWeek v
  dom : c.domRestricted = !starred f.dayOfMonth
  dow : c.dowRestricted = !starred f.dayOfWeek

theorem Expression.reads (e : Expression) : ∃ f, Spells e.text f ∧ Reads f e.cron := by
  obtain ⟨expanded, expands, parsed⟩ := Results.bind_eq_ok.mp e.parsed
  split at parsed
  · rename_i minute hour dayOfMonth month dayOfWeek fields
    obtain ⟨⟨minutes, _⟩, one, parsed⟩ := Results.bind_eq_ok.mp parsed
    obtain ⟨⟨hours, _⟩, two, parsed⟩ := Results.bind_eq_ok.mp parsed
    obtain ⟨⟨days, _⟩, three, parsed⟩ := Results.bind_eq_ok.mp parsed
    obtain ⟨⟨months, _⟩, four, parsed⟩ := Results.bind_eq_ok.mp parsed
    obtain ⟨⟨weekdays, _⟩, five, parsed⟩ := Results.bind_eq_ok.mp parsed
    refine ⟨⟨minute, hour, dayOfMonth, month, dayOfWeek⟩, ⟨expanded, expands, fields⟩, ?_⟩
    rw [← Except.ok.inj parsed]
    exact {
      minute := fun v le => (parseField_spec ⟨by decide, by decide⟩ one).2 v (Nat.zero_le v) le
      hour := fun v le => (parseField_spec ⟨by decide, by decide⟩ two).2 v (Nat.zero_le v) le
      dayOfMonth := (parseField_spec ⟨by decide, by decide⟩ three).2
      month := (parseField_spec ⟨by decide, by decide⟩ four).2
      dayOfWeek := fun v le =>
        (parseField_spec ⟨by decide, by decide⟩ five).2 v (Nat.zero_le v) le
      dom := (parseField_spec ⟨by decide, by decide⟩ three).1
      dow := (parseField_spec ⟨by decide, by decide⟩ five).1 }
  · exact Results.not_ok parsed

theorem Reads.day_iff {f : FiveFields} {c : Cron} (reads : Reads f c) (date : NaiveDate) :
    c.dayMatches date = true ↔ DayRule f date.day := by
  obtain ⟨low, high, low', high', week⟩ := CivilDays.civil_range date.day
  rw [DayRule, ← reads.month _ low high, ← reads.dayOfMonth _ low' high',
    ← reads.dayOfWeek _ week, Cron.dayMatches, reads.dom, reads.dow]
  cases bit c.month (CivilDays.month date.day) <;> cases starred f.dayOfMonth <;>
    cases starred f.dayOfWeek <;> simp

theorem Reads.time_iff {f : FiveFields} {c : Cron} (reads : Reads f c) (t : Instant) :
    c.timeMatches (t.secs / 60) = true ↔
      inField hourField f.hour t.hour ∧ inField minuteField f.minute t.minute := by
  have bound := t.secs_lt
  have hour : t.secs / 60 / 60 = t.hour := Nat.div_div_eq_div_mul _ _ _
  rw [Cron.timeMatches, Bool.and_eq_true, hour, reads.hour _ (by unfold Instant.hour; omega),
    reads.minute _ (by omega)]
  rfl

theorem Expression.firesAt_iff (e : Expression) (t : Instant) :
    FiresAt e.text t ↔ t.secs % 60 = 0 ∧ t.nanos = 0 ∧ e.cron.dayMatches t.date = true ∧
      e.cron.timeMatches (t.secs / 60) = true := by
  obtain ⟨f, spells, reads⟩ := e.reads
  rw [FiresAt, reads.day_iff, reads.time_iff]
  constructor
  · rintro ⟨second, nano, f', spells', day, time⟩
    rw [spells'.unique spells] at day time
    exact ⟨second, nano, day, time⟩
  · rintro ⟨second, nano, day, time⟩
    exact ⟨second, nano, f, spells, day, time⟩

end Logweir.Cadence
