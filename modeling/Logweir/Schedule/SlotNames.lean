import Logweir.Library.Base64
import Logweir.Library.CivilDays
import Logweir.Library.CompactJson
import Logweir.Schedule.Slots

/-!
# Slot names

`weirkeeper::slot::slot_name` and the names made of it.  A schedule's name may hold hyphens, digits and
tails like `-r1`; a name is still of one schedule, slot and attempt, since a slot is fifteen characters
that end in a digit before a digit, and a retry's suffix is three that do not.
-/

set_option autoImplicit false

namespace Logweir.Schedule

open Logweir.CivilDays Logweir.Calendar
open Logweir.Base64 (utf8ByteSize_ascii)
open Logweir.Json (ascii_of_isDigit)

def padDigits : Nat → Nat → List Char
  | 0, _ => []
  | width + 1, n => padDigits width (n / 10) ++ [Nat.digitChar (n % 10)]

def yearText (year : Int) : List Char :=
  if 0 ≤ year ∧ year ≤ 9999 then padDigits 4 year.toNat
  else
    (if year < 0 then '-' else '+') ::
      (if year.natAbs ≤ 9999 then padDigits 4 year.natAbs else Nat.toDigits 10 year.natAbs)

def nanosPerSecond : Nat := 1000000000

theorem nanosPerSecond_lt : nanosPerSecond < 2 * nanosPerSecond := by decide

/-- `chrono::DateTime<Utc>`: the day, the second of the day and its nanoseconds.  A leap second is
the last second of a minute with a second's nanoseconds or more. -/
structure DateTime where
  day : Day
  secs : Nat
  frac : Nat
  secs_lt : secs < 86400
  frac_lt : frac < 2 * nanosPerSecond
  leap : nanosPerSecond ≤ frac → secs % 60 = 59

theorem secs_ofInstant (t : Instant) :
    (t % (86400 * nanosPerSecond : Nat) / nanosPerSecond).toNat < 86400 := by
  unfold nanosPerSecond
  omega

theorem frac_ofInstant (t : Instant) : (t % nanosPerSecond).toNat < nanosPerSecond := by
  unfold nanosPerSecond
  omega

def DateTime.ofInstant (t : Instant) : DateTime where
  day := t / (86400 * nanosPerSecond : Nat)
  secs := (t % (86400 * nanosPerSecond : Nat) / nanosPerSecond).toNat
  frac := (t % nanosPerSecond).toNat
  secs_lt := secs_ofInstant t
  frac_lt := Nat.lt_trans (frac_ofInstant t) nanosPerSecond_lt
  leap := fun long => absurd long (Nat.not_le.mpr (frac_ofInstant t))

namespace DateTime

variable (t : DateTime)

def date : Civil := civil t.day
def hour : Nat := t.secs / 3600
def minute : Nat := t.secs / 60 % 60
def second : Nat := t.secs % 60 + t.frac / nanosPerSecond

def slot : Day × Nat × Nat := (t.day, t.secs, t.frac / nanosPerSecond)

def FourDigitYear : Prop := 0 ≤ t.date.year ∧ t.date.year ≤ 9999

end DateTime

def slotName (t : DateTime) : String :=
  String.ofList (yearText t.date.year ++ padDigits 2 t.date.month ++ padDigits 2 t.date.day ++
    ['-'] ++ padDigits 2 t.hour ++ padDigits 2 t.minute ++ padDigits 2 t.second)

/-- `backup_id_for_attempt`. -/
def backupIdForAttempt (scheduleUid slot : String) (attempt : Nat) : String :=
  scheduleUid ++ "-" ++ slot ++ attemptSuffix attempt

theorem length_padDigits (width n : Nat) : (padDigits width n).length = width := by
  induction width generalizing n with
  | zero => rfl
  | succ width ih => rw [padDigits, List.length_append, ih, List.length_singleton]

theorem digitChar_isDigit : ∀ d < 10, (Nat.digitChar d).isDigit = true := by decide

theorem digitChar_inj : ∀ d < 10, ∀ d' < 10, Nat.digitChar d = Nat.digitChar d' → d = d' := by decide

theorem isDigit_padDigits {width n : Nat} {c : Char} (member : c ∈ padDigits width n) :
    c.isDigit = true := by
  induction width generalizing n with
  | zero => exact absurd member List.not_mem_nil
  | succ width ih =>
      rcases List.mem_append.mp member with earlier | last
      · exact ih earlier
      · rw [List.mem_singleton.mp last]
        exact digitChar_isDigit _ (Nat.mod_lt _ (by decide))

theorem padDigits_inj {width n m : Nat} (left : n < 10 ^ width) (right : m < 10 ^ width)
    (same : padDigits width n = padDigits width m) : n = m := by
  induction width generalizing n m with
  | zero => omega
  | succ width ih =>
      rw [Nat.pow_succ] at left right
      obtain ⟨front, last⟩ := List.append_inj' same rfl
      have tens := ih (Nat.div_lt_of_lt_mul (by omega)) (Nat.div_lt_of_lt_mul (by omega)) front
      have units := digitChar_inj _ (Nat.mod_lt n (by decide)) _ (Nat.mod_lt m (by decide))
        (List.singleton_inj.mp last)
      omega

section

variable {t t' : DateTime}

theorem yearText_four (years : t.FourDigitYear) :
    yearText t.date.year = padDigits 4 t.date.year.toNat := if_pos years

theorem length_slotName (years : t.FourDigitYear) : (slotName t).length = slotNameLen := by
  simp only [slotName, String.length_ofList, List.length_append, yearText_four years,
    length_padDigits, List.length_singleton]
  rfl

theorem ascii_padDigits {width n : Nat} {c : Char} (member : c ∈ padDigits width n) :
    c.val ≤ 127 := ascii_of_isDigit (isDigit_padDigits member)

theorem ascii_yearText {year : Int} {c : Char} (member : c ∈ yearText year) : c.val ≤ 127 := by
  unfold yearText at member
  split at member
  · exact ascii_padDigits member
  · rcases List.mem_cons.mp member with rfl | digit
    · split <;> decide
    · split at digit
      · exact ascii_padDigits digit
      · exact ascii_of_isDigit (Nat.isDigit_of_mem_toDigits (by omega) (by omega) digit)

theorem utf8ByteSize_slotName (t : DateTime) : (slotName t).utf8ByteSize = (slotName t).length := by
  have ascii := utf8ByteSize_ascii (slotName t).toList fun c member => ?_
  · rwa [String.ofList_toList, String.length_toList] at ascii
  simp only [slotName, String.toList_ofList, List.mem_append, List.mem_singleton] at member
  rcases member with (((((year | month) | day) | hyphen) | hour) | minute) | second
  · exact ascii_yearText year
  · exact ascii_padDigits month
  · exact ascii_padDigits day
  · subst hyphen
    decide
  · exact ascii_padDigits hour
  · exact ascii_padDigits minute
  · exact ascii_padDigits second

theorem day_inj (years : t.FourDigitYear) (years' : t'.FourDigitYear)
    (year : yearText t.date.year = yearText t'.date.year)
    (month : padDigits 2 t.date.month = padDigits 2 t'.date.month)
    (day : padDigits 2 t.date.day = padDigits 2 t'.date.day) : t.day = t'.day := by
  have range := civil_range t.day
  have range' := civil_range t'.day
  unfold CivilDays.month dayOfMonth at range range'
  rw [yearText_four years, yearText_four years'] at year
  unfold DateTime.FourDigitYear DateTime.date at *
  have sameYear := padDigits_inj (by omega) (by omega) year
  have sameMonth := padDigits_inj (by omega) (by omega) month
  have sameDay := padDigits_inj (by omega) (by omega) day
  apply civil_injective
  rcases h : civil t.day with ⟨y, m, d⟩
  rcases h' : civil t'.day with ⟨y', m', d'⟩
  rw [h, h'] at sameYear sameMonth sameDay
  rw [h] at years
  rw [h'] at years'
  dsimp only at years years' sameYear sameMonth sameDay
  rw [Civil.mk.injEq]
  exact ⟨by omega, sameMonth, sameDay⟩

theorem secs_inj (hour : padDigits 2 t.hour = padDigits 2 t'.hour)
    (minute : padDigits 2 t.minute = padDigits 2 t'.minute)
    (second : padDigits 2 t.second = padDigits 2 t'.second) :
    t.secs = t'.secs ∧ t.frac / nanosPerSecond = t'.frac / nanosPerSecond := by
  have bounds := t.secs_lt
  have bounds' := t'.secs_lt
  have fracs := t.frac_lt
  have fracs' := t'.frac_lt
  have leap := t.leap
  have leap' := t'.leap
  unfold DateTime.hour at hour
  unfold DateTime.minute at minute
  unfold DateTime.second at second
  unfold nanosPerSecond at *
  have hours := padDigits_inj (by omega) (by omega) hour
  have minutes := padDigits_inj (by omega) (by omega) minute
  have seconds := padDigits_inj (by omega) (by omega) second
  constructor <;> omega

theorem slotName_inj (years : t.FourDigitYear) (years' : t'.FourDigitYear)
    (same : slotName t = slotName t') : t.slot = t'.slot := by
  have text := String.ofList_injective same
  obtain ⟨text, second⟩ := List.append_inj' text (by rw [length_padDigits, length_padDigits])
  obtain ⟨text, minute⟩ := List.append_inj' text (by rw [length_padDigits, length_padDigits])
  obtain ⟨text, hour⟩ := List.append_inj' text (by rw [length_padDigits, length_padDigits])
  obtain ⟨text, -⟩ := List.append_inj' text rfl
  obtain ⟨text, day⟩ := List.append_inj' text (by rw [length_padDigits, length_padDigits])
  obtain ⟨year, month⟩ := List.append_inj' text (by rw [length_padDigits, length_padDigits])
  obtain ⟨secs, frac⟩ := secs_inj hour minute second
  unfold DateTime.slot
  rw [day_inj years years' year month day, secs, frac]

theorem slotName_ends (t : DateTime) : ∃ front a b, (slotName t).toList = front ++ [a, b] ∧
    a.isDigit = true ∧ b.isDigit = true := by
  have digits : padDigits 2 t.second =
      [Nat.digitChar (t.second / 10 % 10), Nat.digitChar (t.second % 10)] := rfl
  rw [slotName, String.toList_ofList, digits]
  exact ⟨_, _, _, rfl, digitChar_isDigit _ (Nat.mod_lt _ (by decide)),
    digitChar_isDigit _ (Nat.mod_lt _ (by decide))⟩

theorem attemptSuffix_cases : ∀ k ≤ slotMaxRetries, (k = 0 ∧ (attemptSuffix k).toList = []) ∨
    (0 < k ∧ (attemptSuffix k).toList = ['-', 'r', Nat.digitChar k]) := by decide

theorem slotName_ne_retry {front front' : List Char} {k : Nat}
    (same : front ++ (slotName t).toList = front' ++ ['-', 'r', Nat.digitChar k]) : False := by
  obtain ⟨start, a, b, whole, digit, -⟩ := slotName_ends t
  rw [whole, ← List.append_assoc, List.append_cons front' '-'] at same
  obtain ⟨-, last⟩ := List.append_inj' same rfl
  cases last
  exact absurd digit (by decide)

theorem tail_inj {front front' : List Char} {k k' : Nat} (years : t.FourDigitYear)
    (years' : t'.FourDigitYear) (few : k ≤ slotMaxRetries) (few' : k' ≤ slotMaxRetries)
    (same : front ++ (slotName t).toList ++ (attemptSuffix k).toList =
      front' ++ (slotName t').toList ++ (attemptSuffix k').toList) :
    front = front' ∧ slotName t = slotName t' ∧ k = k' := by
  have slots {front front' : List Char}
      (same : front ++ (slotName t).toList = front' ++ (slotName t').toList) :
      front = front' ∧ slotName t = slotName t' := by
    have long : (slotName t).toList.length = (slotName t').toList.length := by
      rw [String.length_toList, String.length_toList, length_slotName years, length_slotName years']
    obtain ⟨fronts, texts⟩ := List.append_inj' same long
    exact ⟨fronts, String.toList_inj.mp texts⟩
  rcases attemptSuffix_cases k few with ⟨rfl, none_⟩ | ⟨some_, suffix⟩ <;>
    rcases attemptSuffix_cases k' few' with ⟨rfl, none_'⟩ | ⟨some_', suffix'⟩
  · rw [none_, List.append_nil, List.append_nil] at same
    exact ⟨(slots same).1, (slots same).2, rfl⟩
  · rw [none_, List.append_nil, suffix'] at same
    exact (slotName_ne_retry same).elim
  · rw [none_', List.append_nil, suffix] at same
    exact (slotName_ne_retry same.symm).elim
  · rw [suffix, suffix'] at same
    obtain ⟨rest, last⟩ := List.append_inj' same rfl
    cases slots rest with
    | intro fronts names =>
        refine ⟨fronts, names, ?_⟩
        unfold slotMaxRetries at few few'
        exact digitChar_inj k (by omega) k' (by omega) (List.cons_inj_right _ |>.mp
          (List.cons_inj_right _ |>.mp last) |> List.singleton_inj.mp)

theorem composedName_injective {schedule schedule' : String} {k k' : Nat} (years : t.FourDigitYear)
    (years' : t'.FourDigitYear) (few : k ≤ slotMaxRetries) (few' : k' ≤ slotMaxRetries)
    (same : composedName schedule (slotName t) k = composedName schedule' (slotName t') k') :
    schedule = schedule' ∧ t.slot = t'.slot ∧ k = k' := by
  have text := congrArg String.toList same
  simp only [composedName, String.toList_append] at text
  obtain ⟨front, slots, attempts⟩ := tail_inj years years' few few' text
  obtain ⟨front, -⟩ := List.append_inj' front rfl
  exact ⟨String.toList_inj.mp (List.append_cancel_left front), slotName_inj years years' slots,
    attempts⟩

theorem backupIdForAttempt_injective {uid uid' : String} {k k' : Nat} (years : t.FourDigitYear)
    (years' : t'.FourDigitYear) (few : k ≤ slotMaxRetries) (few' : k' ≤ slotMaxRetries)
    (same : backupIdForAttempt uid (slotName t) k = backupIdForAttempt uid' (slotName t') k') :
    uid = uid' ∧ t.slot = t'.slot ∧ k = k' := by
  have text := congrArg String.toList same
  simp only [backupIdForAttempt, String.toList_append] at text
  obtain ⟨front, slots, attempts⟩ := tail_inj years years' few few' text
  obtain ⟨front, -⟩ := List.append_inj' front rfl
  exact ⟨String.toList_inj.mp front, slotName_inj years years' slots, attempts⟩

theorem utf8ByteSize_toString (n : Nat) :
    (toString n).utf8ByteSize = (Nat.toDigits 10 n).length := by
  have ascii := utf8ByteSize_ascii (Nat.toDigits 10 n) fun c member =>
    ascii_of_isDigit (Nat.isDigit_of_mem_toDigits (by omega) (by omega) member)
  rwa [← Nat.toList_repr, String.ofList_toList, Nat.toList_repr] at ascii

theorem utf8ByteSize_attemptSuffix_mono {k m : Nat} (later : k ≤ m) :
    (attemptSuffix k).utf8ByteSize ≤ (attemptSuffix m).utf8ByteSize := by
  by_cases first : k = 0
  · subst first
    exact Nat.zero_le _
  · have digits : (Nat.toDigits 10 k).length ≤ (Nat.toDigits 10 m).length := by
      have own := (Nat.length_toDigits_le_iff (by decide) Nat.length_toDigits_pos).mp
        (Nat.le_refl (Nat.toDigits 10 m).length)
      exact (Nat.length_toDigits_le_iff (by decide) Nat.length_toDigits_pos).mpr (by omega)
    rw [attemptSuffix, attemptSuffix, if_neg first, if_neg (by omega), String.utf8ByteSize_append,
      String.utf8ByteSize_append, utf8ByteSize_toString, utf8ByteSize_toString]
    exact Nat.add_le_add_left digits _

theorem utf8ByteSize_composedName (schedule slot : String) (k : Nat) :
    (composedName schedule slot k).utf8ByteSize = scheduledBackupPrefix.utf8ByteSize +
      schedule.utf8ByteSize + "-".utf8ByteSize + slot.utf8ByteSize +
        (attemptSuffix k).utf8ByteSize := by
  simp only [composedName, String.utf8ByteSize_append]

theorem scheduledBackupNameForAttempt_isOk {schedule slot : String} {k : Nat} :
    (scheduledBackupNameForAttempt schedule slot k).isOk = true ↔
      (composedName schedule slot k).utf8ByteSize ≤ nameLimit := by
  unfold scheduledBackupNameForAttempt
  dsimp only
  split
  · rename_i long
    simp [Except.isOk, Except.toBool, long]
  · rename_i short
    simp [Except.isOk, Except.toBool, Nat.le_of_not_lt short]

theorem fits_of_retryNamesFit {schedule : String} {m k : Nat} (years : t.FourDigitYear)
    (fit : retryNamesFit schedule m = .ok ()) (attempt : k ≤ m) :
    (composedName schedule (slotName t) k).utf8ByteSize ≤ nameLimit := by
  have deepest := utf8ByteSize_attemptSuffix_mono attempt
  have probe : (composedName schedule (String.ofList (List.replicate slotNameLen '0'))
      m).utf8ByteSize ≤ nameLimit := by
    refine scheduledBackupNameForAttempt_isOk.mp ?_
    unfold retryNamesFit at fit
    cases named : scheduledBackupNameForAttempt schedule
        (String.ofList (List.replicate slotNameLen '0')) m with
    | ok name => rfl
    | error e =>
        rw [named] at fit
        cases fit
  rw [utf8ByteSize_composedName] at probe ⊢
  rw [utf8ByteSize_slotName, length_slotName years]
  have zeroes : (String.ofList (List.replicate slotNameLen '0')).utf8ByteSize = slotNameLen := by
    decide
  omega

end

/-- Names and backup ids of scheduled runs are never two runs', and a schedule whose deepest retry
can be named can name every attempt of every slot. -/
theorem scheduled_runs_are_named_apart :
    (∀ (schedule schedule' : String) (t t' : DateTime) (k k' : Nat) (name : String),
      t.FourDigitYear → t'.FourDigitYear → k ≤ slotMaxRetries → k' ≤ slotMaxRetries →
      scheduledBackupNameForAttempt schedule (slotName t) k = .ok name →
      scheduledBackupNameForAttempt schedule' (slotName t') k' = .ok name →
      schedule = schedule' ∧ t.slot = t'.slot ∧ k = k') ∧
    (∀ (uid uid' : String) (t t' : DateTime) (k k' : Nat),
      t.FourDigitYear → t'.FourDigitYear → k ≤ slotMaxRetries → k' ≤ slotMaxRetries →
      backupIdForAttempt uid (slotName t) k = backupIdForAttempt uid' (slotName t') k' →
      uid = uid' ∧ t.slot = t'.slot ∧ k = k') ∧
    ∀ (schedule : String) (m k : Nat) (t : DateTime), t.FourDigitYear →
      retryNamesFit schedule m = .ok () → k ≤ m →
      ∃ name, scheduledBackupNameForAttempt schedule (slotName t) k = .ok name ∧
        name.utf8ByteSize ≤ nameLimit := by
  refine ⟨?_, ?_, ?_⟩
  · intro schedule schedule' t t' k k' name years years' few few' named named'
    apply composedName_injective years years' few few'
    rw [← scheduledBackupNameForAttempt_ok named, ← scheduledBackupNameForAttempt_ok named']
  · intro uid uid' t t' k k' years years' few few' same
    exact backupIdForAttempt_injective years years' few few' same
  · intro schedule m k t years fit attempt
    have short := fits_of_retryNamesFit years fit attempt
    refine ⟨composedName schedule (slotName t) k, ?_, short⟩
    unfold scheduledBackupNameForAttempt
    exact if_neg (Nat.not_lt.mpr short)

end Logweir.Schedule
