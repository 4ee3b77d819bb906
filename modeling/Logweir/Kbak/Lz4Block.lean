import Logweir.Kbak.Lz4
import Logweir.Library.Backrefs

/-!
# The LZ4 block format

A decoder of the block format that keeps the whole output, and the windowed stream against
it: what the stream hands out, whatever the buffers it is read into, is the reference
decoder's output, and it fails when that fails.  The history is always long enough for the
copy that is due, and never longer than three windows.
-/

set_option autoImplicit false

namespace Logweir.Kbak

open Logweir.ByteStream Logweir.Backrefs

def within (declared : Nat) (out : List UInt8) : Option (List UInt8) :=
  if declared < out.length then none else some out

def blockMatch (declared : Nat) (out : List UInt8) (offset left : Nat) : Option (List UInt8) :=
  if offset = 0 ∨ out.length < offset then none else within declared (copyBack offset left out)

def blockTail (declared matchBase : Nat) (out : List UInt8) :
    List UInt8 → Option (List UInt8 × List UInt8)
  | [] => some (out, [])
  | [_] => none
  | a :: b :: src =>
      (lz4Length matchBase src).bind fun (left, rest) =>
        (blockMatch declared out (leNat [a, b]) (left + 4)).map fun out => (out, rest)

def blockLiterals (declared left matchBase : Nat) (out src : List UInt8) :
    Option (List UInt8 × List UInt8) :=
  if src.length < left then none
  else
    (within declared (out ++ src.take left)).bind fun out =>
      blockTail declared matchBase out (src.drop left)

def blockSequence (declared : Nat) (out : List UInt8) (token : UInt8) (src : List UInt8) :
    Option (List UInt8 × List UInt8) :=
  (lz4Length (token.toNat / 16) src).bind fun (left, rest) =>
    blockLiterals declared left (token.toNat % 16) out rest

theorem blockTail_shorter {declared matchBase : Nat} {out src out' rest : List UInt8}
    (read : blockTail declared matchBase out src = some (out', rest)) : rest.length ≤ src.length := by
  unfold blockTail at read
  split at read
  · cases read
    exact Nat.le_refl _
  · cases read
  · obtain ⟨⟨left, rest'⟩, length, copied⟩ := Option.bind_eq_some_iff.mp read
    obtain ⟨_, _, same⟩ := Option.map_eq_some_iff.mp copied
    cases same
    have shorter := lz4Length_le _ _ _ _ length
    simp only [List.length_cons]
    omega

theorem blockSequence_shorter {declared : Nat} {token : UInt8} {out src out' rest : List UInt8}
    (read : blockSequence declared out token src = some (out', rest)) : rest.length ≤ src.length := by
  obtain ⟨⟨left, rest'⟩, length, literals⟩ := Option.bind_eq_some_iff.mp read
  have shorter := lz4Length_le _ _ _ _ length
  unfold blockLiterals at literals
  dsimp only at literals
  split at literals
  · cases literals
  · obtain ⟨out₁, _, tail⟩ := Option.bind_eq_some_iff.mp literals
    have shorter' := blockTail_shorter tail
    rw [List.length_drop] at shorter'
    omega

def blockFrom (declared : Nat) (out : List UInt8) : List UInt8 → Option (List UInt8)
  | [] => if out.length = declared then some out else none
  | token :: src =>
      match read : blockSequence declared out token src with
      | none => none
      | some (out', rest) => blockFrom declared out' rest
termination_by src => src.length
decreasing_by
  have shorter := blockSequence_shorter read
  simp only [List.length_cons]
  omega

def decodeBlock (body : List UInt8) : Option (List UInt8) :=
  if body.length < 4 then none else blockFrom (leNat (body.take 4)) [] (body.drop 4)

theorem blockFrom_nil (declared : Nat) (out : List UInt8) :
    blockFrom declared out [] = if out.length = declared then some out else none := by
  rw [blockFrom]

theorem blockFrom_cons (declared : Nat) (out : List UInt8) (token : UInt8) (src : List UInt8) :
    blockFrom declared out (token :: src) =
      (blockSequence declared out token src).bind fun (out, rest) => blockFrom declared out rest := by
  rw [blockFrom]
  split
  · rename_i read
    rw [read]
    rfl
  · rename_i read
    rw [read]
    rfl

def resume (declared : Nat) (out : List UInt8) : Lz4State → List UInt8 → Option (List UInt8)
  | .done, _ => some out
  | .token, src => blockFrom declared out src
  | .literals left matchBase, src =>
      (blockLiterals declared left matchBase out src).bind fun (out, rest) =>
        blockFrom declared out rest
  | .match offset left _ _, src =>
      (within declared (copyBack offset left out)).bind fun out => blockFrom declared out src

/-- A match in progress repeats its pattern, within a 16-bit offset. -/
def MatchHolds (out : List UInt8) : Lz4State → Prop
  | .match offset _ done _ => offset < lz4Window ∧ Repeats offset done out
  | _ => True

/-- The stream's state over the whole output so far: the history is its end, as far back as
a match can reach. -/
structure Over (s : Lz4Stream) (out : List UInt8) : Prop where
  kept : ∃ dropped, out = dropped ++ s.hist ∧ (dropped = [] ∨ lz4Window ≤ s.hist.length)
  produced : s.produced = out.length
  bounded : out.length ≤ s.declared
  short : s.hist.length ≤ 3 * lz4Window
  ended : s.state = .done → out.length = s.declared
  matched : MatchHolds out s.state

section Over
variable {s : Lz4Stream} {out : List UInt8}

theorem Over.new {body : List UInt8} (opened : Lz4Stream.new body = .ok s) :
    Over s [] ∧ s.handed = 0 ∧ resume s.declared [] s.state s.src = decodeBlock body := by
  unfold Lz4Stream.new at opened
  split at opened
  · cases opened
  · rename_i long
    cases opened
    refine ⟨⟨⟨[], rfl, .inl rfl⟩, rfl, Nat.zero_le _, Nat.zero_le _, fun h => (by cases h), trivial⟩,
      rfl, ?_⟩
    rw [decodeBlock, if_neg long]
    rfl

theorem Over.trim (over_ : Over s out) : Over s.trim out ∧ s.trim.hist.length ≤ 2 * lz4Window := by
  unfold Lz4Stream.trim
  split
  · rename_i long
    obtain ⟨dropped, split, _⟩ := over_.kept
    refine ⟨⟨⟨dropped ++ s.hist.take (s.hist.length - lz4Window), ?_, .inr ?_⟩, over_.produced,
      over_.bounded, ?_, over_.ended, over_.matched⟩, ?_⟩
    · rw [List.append_assoc, List.take_append_drop]
      exact split
    · simp only [List.length_drop, lz4Window] at *
      omega
    · have short := over_.short
      simp only [List.length_drop]
      omega
    · simp only [List.length_drop, lz4Window] at *
      omega
  · exact ⟨over_, by omega⟩

theorem Over.reaches (over_ : Over s out) {n : Nat} (near : n ≤ lz4Window) (inside : n ≤ out.length) :
    n ≤ s.hist.length ∧ s.hist.drop (s.hist.length - n) = out.drop (out.length - n) := by
  obtain ⟨dropped, split, far⟩ := over_.kept
  have size : out.length = dropped.length + s.hist.length := by rw [split, List.length_append]
  have enough : n ≤ s.hist.length := by
    rcases far with rfl | long
    · simp only [List.length_nil] at size
      omega
    · omega
  refine ⟨enough, ?_⟩
  have start : out.length - n = dropped.length + (s.hist.length - n) := by omega
  rw [start, split, List.drop_length_add_append]

theorem Over.grown (over_ : Over s out) (trimmed : s.hist.length ≤ 2 * lz4Window) {more : List UInt8}
    (few : more.length ≤ lz4Window) (fits : s.produced + more.length ≤ s.declared)
    {s' : Lz4Stream} (hist : s'.hist = s.hist ++ more) (produced : s'.produced = s.produced + more.length)
    (declared : s'.declared = s.declared) (open' : s'.state ≠ .done)
    (matched : MatchHolds (out ++ more) s'.state) : Over s' (out ++ more) := by
  obtain ⟨dropped, split, far⟩ := over_.kept
  have size := over_.produced
  refine ⟨⟨dropped, ?_, ?_⟩, ?_, ?_, ?_, fun h => absurd h open', matched⟩
  · rw [hist, split, List.append_assoc]
  · rw [hist, List.length_append]
    exact far.imp_right fun long => by omega
  · rw [produced, List.length_append, size]
  · rw [declared, List.length_append]
    omega
  · rw [hist, List.length_append]
    omega

theorem Over.moved (over_ : Over s out) {s' : Lz4Stream} (hist : s'.hist = s.hist)
    (produced : s'.produced = s.produced) (declared : s'.declared = s.declared)
    (ended : s'.state = .done → out.length = s.declared) (matched : MatchHolds out s'.state) :
    Over s' out :=
  ⟨by rw [hist]; exact over_.kept, produced.trans over_.produced, by rw [declared]; exact over_.bounded,
    by rw [hist]; exact over_.short, by rw [declared]; exact ended, matched⟩

end Over

theorem lz4Reach_le {offset : Nat} (small : offset < lz4Window) {n : Nat} :
    lz4Reach offset n ≤ offset + n ∧ lz4Reach offset n ≤ lz4Window := by
  rw [lz4Reach]
  have whole := Nat.div_mul_le_self (min (offset + n) lz4Chunk) offset
  rcases Nat.le_total (min (offset + n) lz4Chunk / offset) 1 with few | many
  · rw [max_eq_right few, Nat.one_mul]
    omega
  · rw [max_eq_left many]
    simp only [lz4Chunk, lz4Window] at *
    omega

inductive Turned (s : Lz4Stream) (out : List UInt8) : Except ReadError (Option Lz4Stream) → Prop
  | failed {e : ReadError} (stops : resume s.declared out s.state s.src = none) :
      Turned s out (.error e)
  | ended (done : s.state = .done) : Turned s out (.ok none)
  | moved {s' : Lz4Stream} (more : List UInt8) (over_ : Over s' (out ++ more))
      (hist : s'.hist = s.hist ++ more) (handed : s'.handed = s.handed)
      (declared : s'.declared = s.declared)
      (same : resume s.declared (out ++ more) s'.state s'.src =
        resume s.declared out s.state s.src) : Turned s out (.ok (some s'))

section Turn
variable {s : Lz4Stream} {out : List UInt8} (over_ : Over s out)
include over_

theorem Turned.still {s' : Lz4Stream} (hist : s'.hist = s.hist) (handed : s'.handed = s.handed)
    (produced : s'.produced = s.produced) (declared : s'.declared = s.declared)
    (ended : s'.state = .done → out.length = s.declared) (matched : MatchHolds out s'.state)
    (same : resume s.declared out s'.state s'.src = resume s.declared out s.state s.src) :
    Turned s out (.ok (some s')) := by
  refine .moved [] ?_ (by rw [hist, List.append_nil]) handed declared (by rw [List.append_nil]; exact same)
  rw [List.append_nil]
  exact over_.moved hist produced declared ended matched

theorem turn_token (at' : s.state = .token) : Turned s out s.turn := by
  have size := over_.produced
  simp only [Lz4Stream.turn, at']
  split
  · rename_i ended
    split
    · rename_i differs
      refine .failed ?_
      rw [at', ended]
      simp only [resume]
      rw [blockFrom_nil, if_neg (by omega)]
    · rename_i full
      refine .still over_ rfl rfl rfl rfl (fun _ => by omega) trivial ?_
      rw [at', ended]
      simp only [resume]
      rw [blockFrom_nil, if_pos (by omega)]
  · rename_i token src more
    have whole : resume s.declared out s.state s.src =
        ((lz4Length (token.toNat / 16) src).bind fun (left, rest) =>
          resume s.declared out (.literals left (token.toNat % 16)) rest) := by
      rw [at', more]
      simp only [resume]
      rw [blockFrom_cons, blockSequence, Option.bind_assoc]
    split
    · rename_i short
      refine .failed ?_
      rw [whole, short]
      rfl
    · rename_i left rest length
      refine .still over_ rfl rfl rfl rfl (fun h => by cases h) trivial ?_
      rw [whole, length]
      rfl

omit over_ in
theorem blockLiterals_split (declared matchBase : Nat) {left n : Nat} (src : List UInt8) (le : n ≤ left)
    (there : n ≤ src.length) :
    blockLiterals declared (left - n) matchBase (out ++ src.take n) (src.drop n) =
      blockLiterals declared left matchBase out src := by
  have short : (src.drop n).length < left - n ↔ src.length < left := by
    rw [List.length_drop]
    omega
  have taken : src.take n ++ (src.drop n).take (left - n) = src.take left := by
    rw [← List.take_add, Nat.add_sub_cancel' le]
  have dropped : (src.drop n).drop (left - n) = src.drop left := by
    rw [List.drop_drop, Nat.add_sub_cancel' le]
  simp only [blockLiterals, short, List.append_assoc, taken, dropped]

omit over_ in
theorem blockLiterals_over {declared left matchBase : Nat} {src : List UInt8}
    (exceeds : declared < out.length + left) : blockLiterals declared left matchBase out src = none := by
  unfold blockLiterals
  split
  · rfl
  · rename_i there
    have long : declared < (out ++ src.take left).length := by
      rw [List.length_append, List.length_take]
      omega
    rw [within, if_pos long]
    rfl

theorem blockLiterals_none (matchBase : Nat) (src : List UInt8) :
    blockLiterals s.declared 0 matchBase out src = blockTail s.declared matchBase out src := by
  have bounded : ¬ s.declared < out.length := Nat.not_lt.mpr over_.bounded
  simp [blockLiterals, within, bounded]

theorem turn_literals (trimmed : s.hist.length ≤ 2 * lz4Window) {left matchBase : Nat}
    (at' : s.state = .literals left matchBase) : Turned s out s.turn := by
  have size := over_.produced
  have rest : resume s.declared out s.state s.src =
      (blockLiterals s.declared left matchBase out s.src).bind fun (out, rest) =>
        blockFrom s.declared out rest := by
    rw [at']
    rfl
  simp only [Lz4Stream.turn, at']
  split
  · split
    · rename_i short
      refine .failed ?_
      rw [rest, blockLiterals, if_pos (by omega)]
      rfl
    · rename_i some' there
      have taken : (s.src.take (min left lz4Chunk)).length = min left lz4Chunk := by
        rw [List.length_take]
        omega
      simp only [Lz4Stream.produce, taken]
      split
      · rename_i e refused
        split at refused
        · refine .failed ?_
          rw [rest, blockLiterals_over (by omega)]
          rfl
        · cases refused
      · rename_i s₁ produced
        split at produced
        · cases produced
        · rename_i fits
          cases produced
          refine .moved (s.src.take (min left lz4Chunk)) ?_ rfl rfl rfl ?_
          · refine over_.grown trimmed ?_ (by rw [taken]; omega) rfl (by rw [taken]) rfl (fun h => by cases h)
              trivial
            rw [taken]
            exact Nat.min_le_right _ _
          · rw [rest]
            simp only [resume]
            rw [blockLiterals_split _ _ _ (Nat.min_le_left _ _) (by omega)]
  · rename_i none
    obtain rfl : left = 0 := by omega
    rw [blockLiterals_none over_] at rest
    split
    · rename_i ended
      refine .still over_ rfl rfl rfl rfl (fun h => by cases h) trivial ?_
      rw [rest, ended]
      rfl
    · rename_i single
      refine .failed ?_
      rw [rest, single]
      rfl
    · rename_i a b src more
      have tail : blockTail s.declared matchBase out s.src =
          (lz4Length matchBase src).bind fun (left, rest) =>
            (blockMatch s.declared out (leNat [a, b]) (left + 4)).map fun out => (out, rest) := by
        rw [more]
        rfl
      split
      · rename_i outside
        refine .failed ?_
        rw [size] at outside
        rw [rest, tail]
        cases lz4Length matchBase src with
        | none => rfl
        | some x =>
            obtain ⟨left, src'⟩ := x
            simp [blockMatch, outside]
      · rename_i inside
        rw [size] at inside
        split
        · rename_i short
          refine .failed ?_
          rw [rest, tail, short]
          rfl
        · rename_i left src' length
          have small : leNat [a, b] < lz4Window := Nat.lt_of_lt_of_le (leNat_lt [a, b]) (by simp [lz4Window])
          refine .still over_ rfl rfl rfl rfl (fun h => by cases h) ⟨small, .start (by omega)⟩ ?_
          rw [rest, tail, length]
          simp only [resume, Option.bind_some, blockMatch, if_neg inside]
          cases within s.declared (copyBack (leNat [a, b]) (left + 4) out) <;> rfl

theorem turn_copy (trimmed : s.hist.length ≤ 2 * lz4Window) {offset left done : Nat}
    {positive : 0 < offset} (at' : s.state = .match offset left done positive) :
    Turned s out s.turn := by
  have size := over_.produced
  have bounded := over_.bounded
  have matched := over_.matched
  rw [at'] at matched
  obtain ⟨small, repeats⟩ := matched
  have room := repeats.room
  have rest : resume s.declared out s.state s.src =
      (within s.declared (copyBack offset left out)).bind fun out => blockFrom s.declared out s.src := by
    rw [at']
    rfl
  obtain ⟨k, some', reach⟩ : ∃ k, 1 ≤ k ∧ lz4Reach offset done = k * offset :=
    ⟨_, Nat.le_max_right _ 1, rfl⟩
  have periods := lz4Reach_le small (n := done)
  rw [reach] at periods
  obtain ⟨reaches, same⟩ := over_.reaches periods.2 (by omega)
  simp only [Lz4Stream.turn, at']
  split
  · rename_i none
    refine .still over_ rfl rfl rfl rfl (fun h => by cases h) trivial ?_
    rw [rest, none, copyBack, within, if_neg (by omega)]
    rfl
  · rename_i some''
    rw [reach, if_neg (by omega), same]
    have few : min left (k * offset) ≤ k * offset := Nat.min_le_right _ _
    have chunk := repeats.chunk positive some' periods.1 few
    have taken : ((out.drop (out.length - k * offset)).take (min left (k * offset))).length =
        min left (k * offset) := by
      rw [List.length_take, List.length_drop]
      omega
    obtain ⟨longer, repeats'⟩ := repeats.copy positive (min left (k * offset))
    have two : copyBack offset left out =
        copyBack offset (left - min left (k * offset)) (copyBack offset (min left (k * offset)) out) := by
      rw [← copyBack_add, Nat.add_sub_cancel' (Nat.min_le_left _ _)]
    simp only [Lz4Stream.produce, taken]
    split
    · rename_i e refused
      split at refused
      · refine .failed ?_
        have all := (repeats.copy positive left).1
        rw [rest, within, if_pos (by omega)]
        rfl
      · cases refused
    · rename_i s₁ produced
      split at produced
      · cases produced
      · rename_i fits
        cases produced
        refine .moved _ (over_.grown trimmed ?_ (by rw [taken]; omega) rfl (by rw [taken]) rfl
          (fun h => by cases h) ⟨small, ?_⟩) rfl rfl rfl ?_
        · rw [taken]
          omega
        · rw [← chunk]
          exact repeats'
        · rw [rest, two, chunk]
          rfl

theorem turn_over (trimmed : s.hist.length ≤ 2 * lz4Window) : Turned s out s.turn := by
  cases at' : s.state with
  | token => exact turn_token over_ at'
  | literals left matchBase => exact turn_literals over_ trimmed at'
  | «match» offset left done positive => exact turn_copy over_ trimmed at'
  | done =>
      have ends : s.turn = .ok none := by simp only [Lz4Stream.turn, at']
      rw [ends]
      exact .ended at'

end Turn

def sent (s : Lz4Stream) (out : List UInt8) : List UInt8 :=
  out.take (out.length - (s.hist.length - s.handed))

inductive Answered (n : Nat) (s : Lz4Stream) (out : List UInt8) :
    Except ReadError (List UInt8) × Lz4Stream → Prop
  | failed {e : ReadError} {s' : Lz4Stream} (stops : resume s.declared out s.state s.src = none) :
      Answered n s out (.error e, s')
  | gave {chunk : List UInt8} {s' : Lz4Stream} (out' : List UInt8) (over_ : Over s' out')
      (declared : s'.declared = s.declared)
      (same : resume s.declared out' s'.state s'.src = resume s.declared out s.state s.src)
      (handed : sent s' out' = sent s out ++ chunk)
      (ends : chunk = [] → 0 < n → s'.state = .done ∧ sent s' out' = out') :
      Answered n s out (.ok chunk, s')

theorem sent_drained {s : Lz4Stream} (drained : ¬ s.handed < s.hist.length) (out : List UInt8) :
    sent s out = out := by
  have none : s.hist.length - s.handed = 0 := by omega
  rw [sent, none, Nat.sub_zero, List.take_length]

theorem read_over (n : Nat) (s : Lz4Stream) : ∀ {out : List UInt8}, Over s out →
    Answered n s out (s.read n) := by
  induction s using Lz4Stream.read.induct n with
  | case1 s pending =>
      intro out over_
      rw [Lz4Stream.read, dif_pos pending]
      obtain ⟨dropped, split, far⟩ := over_.kept
      have size : out.length = dropped.length + s.hist.length := by rw [split, List.length_append]
      have rest : s.hist.drop s.handed = out.drop (out.length - (s.hist.length - s.handed)) := by
        have start : out.length - (s.hist.length - s.handed) = dropped.length + s.handed := by omega
        rw [start, split, List.drop_length_add_append]
      refine .gave out ⟨⟨dropped, split, far⟩, over_.produced, over_.bounded, over_.short, over_.ended,
        over_.matched⟩ rfl rfl ?_ ?_
      · rw [rest, sent, sent, ← List.take_add]
        congr 1
        dsimp only
        omega
      · intro empty positive
        have none := congrArg List.length empty
        simp only [List.length_take, List.length_drop, List.length_nil] at none
        omega
  | case2 s drained zero =>
      intro out over_
      rw [Lz4Stream.read, dif_neg drained, if_pos zero]
      exact .gave out over_ rfl rfl (List.append_nil _).symm fun _ positive => by omega
  | case3 s drained some' e turned =>
      intro out over_
      rw [read_error n s drained some' e turned]
      obtain ⟨_, src, state, _, declared⟩ := trim_drained s drained
      obtain ⟨over', short⟩ := over_.trim
      have moved := turn_over over' short
      rw [turned] at moved
      cases moved with
      | failed stops =>
          rw [src, state, declared] at stops
          exact .failed stops
  | case4 s drained some' turned =>
      intro out over_
      rw [read_end n s drained some' turned]
      obtain ⟨drained', src, state, _, declared⟩ := trim_drained s drained
      obtain ⟨over', short⟩ := over_.trim
      have all : ¬ s.trim.handed < s.trim.hist.length := by omega
      refine .gave out over' declared (by rw [src, state]) ?_ fun _ _ => ⟨turn_end _ turned, sent_drained all out⟩
      rw [sent_drained all, sent_drained drained, List.append_nil]
  | case5 s drained some' s₁ turned ih =>
      intro out over_
      rw [read_next n s drained some' s₁ turned]
      obtain ⟨drained', src, state, _, declared⟩ := trim_drained s drained
      obtain ⟨over', short⟩ := over_.trim
      have moved := turn_over over' short
      rw [turned] at moved
      cases moved with
      | moved more over_₁ hist handed declared₁ same =>
          have sent₁ : sent s₁ (out ++ more) = sent s out := by
            have all := s.trim.handedLe
            rw [sent_drained drained, sent, hist, handed, drained', List.length_append,
              List.length_append, Nat.add_sub_cancel_left, Nat.add_sub_cancel,
              List.take_left' rfl]
          have declared' : s₁.declared = s.declared := declared₁.trans declared
          rw [src, state, declared] at same
          have answer := ih over_₁
          generalize s₁.read n = answered at answer ⊢
          cases answer with
          | failed stops =>
              rw [declared', same] at stops
              exact .failed stops
          | gave out' over'' declared₂ same₂ handed₂ ends =>
              rw [declared', same] at same₂
              rw [sent₁] at handed₂
              exact .gave out' over'' (declared₂.trans declared') same₂ handed₂ ends

theorem within_eq_some {declared : Nat} {out out' : List UInt8} :
    within declared out = some out' ↔ out.length ≤ declared ∧ out = out' := by
  unfold within
  split
  · simp only [reduceCtorEq, false_iff]
    omega
  · simp only [Option.some.injEq]
    exact ⟨fun same => ⟨by omega, same⟩, fun both => both.2⟩

theorem prefix_copyBack (offset n : Nat) (out : List UInt8) : out <+: copyBack offset n out := by
  induction n generalizing out with
  | zero => exact List.prefix_refl out
  | succ n ih => exact (List.prefix_append out _).trans (ih _)

theorem blockTail_begins {declared matchBase : Nat} {out src out' rest : List UInt8}
    (read : blockTail declared matchBase out src = some (out', rest)) : out <+: out' := by
  unfold blockTail at read
  split at read
  · cases read
    exact List.prefix_refl _
  · cases read
  · obtain ⟨⟨left, rest'⟩, _, copied⟩ := Option.bind_eq_some_iff.mp read
    obtain ⟨out₁, matched, same⟩ := Option.map_eq_some_iff.mp copied
    cases same
    unfold blockMatch at matched
    split at matched
    · cases matched
    · obtain ⟨_, rfl⟩ := within_eq_some.mp matched
      exact prefix_copyBack _ _ _

theorem blockLiterals_begins {declared left matchBase : Nat} {out src out' rest : List UInt8}
    (read : blockLiterals declared left matchBase out src = some (out', rest)) : out <+: out' := by
  unfold blockLiterals at read
  split at read
  · cases read
  · obtain ⟨out₁, grown, tail⟩ := Option.bind_eq_some_iff.mp read
    obtain ⟨_, rfl⟩ := within_eq_some.mp grown
    exact (List.prefix_append _ _).trans (blockTail_begins tail)

theorem blockFrom_begins (declared : Nat) (out src : List UInt8) : ∀ {final : List UInt8},
    blockFrom declared out src = some final → out <+: final := by
  induction size : src.length using Nat.strongRecOn generalizing out src with
  | ind m ih =>
      intro final read
      cases src with
      | nil =>
          rw [blockFrom_nil] at read
          split at read
          · cases read
            exact List.prefix_refl _
          · cases read
      | cons token src =>
          rw [blockFrom_cons] at read
          obtain ⟨⟨out₁, rest⟩, sequence, later⟩ := Option.bind_eq_some_iff.mp read
          have shorter := blockSequence_shorter sequence
          obtain ⟨⟨left, rest'⟩, _, literals⟩ := Option.bind_eq_some_iff.mp sequence
          simp only [List.length_cons] at size
          exact (blockLiterals_begins literals).trans (ih rest.length (by omega) out₁ rest rfl later)

theorem resume_begins {declared : Nat} {out src final : List UInt8} {state : Lz4State}
    (read : resume declared out state src = some final) : out <+: final := by
  cases state with
  | done =>
      cases read
      exact List.prefix_refl _
  | token => exact blockFrom_begins _ _ _ read
  | literals left matchBase =>
      obtain ⟨⟨out₁, rest⟩, literals, later⟩ := Option.bind_eq_some_iff.mp read
      exact (blockLiterals_begins literals).trans (blockFrom_begins _ _ _ later)
  | «match» offset left done positive =>
      obtain ⟨out₁, copied, later⟩ := Option.bind_eq_some_iff.mp read
      obtain ⟨_, rfl⟩ := within_eq_some.mp copied
      exact (prefix_copyBack _ _ _).trans (blockFrom_begins _ _ _ later)

/-- How a sequence of reads stopped: with the buffers used up, at the end of the stream, or at
an error. -/
inductive ReadEnd where
  | more
  | ended
  | failed
deriving DecidableEq

def readSizes : List Nat → Lz4Stream → List UInt8 × ReadEnd
  | [], _ => ([], .more)
  | n :: sizes, s =>
      match s.read n with
      | (.error _, _) => ([], .failed)
      | (.ok chunk, s') =>
          if chunk = [] ∧ 0 < n then ([], .ended)
          else (chunk ++ (readSizes sizes s').1, (readSizes sizes s').2)

def readBlock (body : List UInt8) (sizes : List Nat) : List UInt8 × ReadEnd :=
  match Lz4Stream.new body with
  | .error _ => ([], .failed)
  | .ok s => readSizes sizes s

/-- What a sequence of reads handed out is the reference's output at the end, and a prefix of
it before; the reads fail where the reference does.  As many buffers as bytes are enough. -/
def AgreesWith (reference : Option (List UInt8)) (declared : Nat) (sizes : List Nat) :
    List UInt8 × ReadEnd → Prop
  | (out, .ended) => reference = some out
  | (_, .failed) => reference = none
  | (out, .more) => sizes.countP (0 < ·) ≤ declared ∧ ∀ final, reference = some final → out <+: final

theorem readSizes_over (sizes : List Nat) : ∀ {s : Lz4Stream} {out : List UInt8}, Over s out →
    ∀ before, (before.countP fun n => decide (0 < n)) ≤ (sent s out).length →
      AgreesWith (resume s.declared out s.state s.src) s.declared (before ++ sizes)
        (sent s out ++ (readSizes sizes s).1, (readSizes sizes s).2) := by
  induction sizes with
  | nil =>
      intro s out over_ before few
      have bounded := over_.bounded
      have part : (sent s out).length ≤ out.length := List.length_take_le' _ _
      simp only [readSizes, List.append_nil]
      refine ⟨Nat.le_trans few (by omega), fun final read => ?_⟩
      exact (List.take_prefix _ _).trans (resume_begins read)
  | cons n sizes ih =>
      intro s out over_ before few
      have answer := read_over n s over_
      rw [readSizes]
      generalize s.read n = answered at answer ⊢
      cases answer with
      | failed stops => exact stops
      | @gave chunk s' out' over' declared same handed ends =>
          dsimp only
          split
          · rename_i last
            obtain ⟨done, all⟩ := ends last.1 last.2
            rw [last.1, List.append_nil, all] at handed
            rw [← same, done, List.append_nil, ← handed]
            rfl
          · rename_i goes
            have counted : ((before ++ [n]).countP fun n => decide (0 < n)) ≤ (sent s' out').length := by
              rw [handed, List.countP_append, List.length_append]
              have step : ([n].countP fun n => decide (0 < n)) ≤ chunk.length := by
                by_cases positive : 0 < n
                · have some' : chunk ≠ [] := fun none => goes ⟨none, positive⟩
                  have long := List.length_pos_iff.mpr some'
                  simp only [List.countP_singleton]
                  split <;> omega
                · simp [positive]
              omega
            have later := ih over' (before ++ [n]) counted
            rw [declared, same, handed, List.append_assoc, List.append_assoc] at later
            exact later

inductive Reachable (body : List UInt8) : Lz4Stream → Prop
  | opened {s : Lz4Stream} (opens : Lz4Stream.new body = .ok s) : Reachable body s
  | handed {s s' : Lz4Stream} (n : Nat) {chunk : List UInt8} (before : Reachable body s)
      (pending : s.handed < s.hist.length) (read : s.read n = (.ok chunk, s')) : Reachable body s'
  | trimmed {s : Lz4Stream} (before : Reachable body s) (drained : ¬ s.handed < s.hist.length) :
      Reachable body s.trim
  | turned {s s' : Lz4Stream} (before : Reachable body s) (drained : ¬ s.handed < s.hist.length)
      (turn : s.trim.turn = .ok (some s')) : Reachable body s'

theorem Reachable.over {body : List UInt8} {s : Lz4Stream} (reachable : Reachable body s) :
    ∃ out, Over s out := by
  induction reachable with
  | opened opens => exact ⟨[], (Over.new opens).1⟩
  | handed n _ _ read ih =>
      obtain ⟨out, over_⟩ := ih
      have answer := read_over n _ over_
      rw [read] at answer
      cases answer with
      | gave out' over' => exact ⟨out', over'⟩
  | trimmed _ _ ih =>
      obtain ⟨out, over_⟩ := ih
      exact ⟨out, over_.trim.1⟩
  | turned _ _ turn ih =>
      obtain ⟨out, over_⟩ := ih
      obtain ⟨over', short⟩ := over_.trim
      have moved := turn_over over' short
      rw [turn] at moved
      cases moved with
      | moved more over'' => exact ⟨_, over''⟩

/-- The history of a state is at most three windows, and reaches back as far as the copy of a
match in progress. -/
structure HistoryHolds (s : Lz4Stream) : Prop where
  short : s.hist.length ≤ 3 * 65536
  reaches : ∀ offset left done positive, s.state = .match offset left done positive →
    lz4Reach offset done ≤ s.hist.length

theorem Over.historyHolds {s : Lz4Stream} {out : List UInt8} (over_ : Over s out) : HistoryHolds s := by
  refine ⟨over_.short, fun offset left done positive at' => ?_⟩
  have matched := over_.matched
  rw [at'] at matched
  obtain ⟨small, repeats⟩ := matched
  have room := repeats.room
  have periods := lz4Reach_le small (n := done)
  exact (over_.reaches periods.2 (by omega)).1

/-- The windowed stream is the block format: over any buffers it hands out the reference's
output and fails when the reference does, and no reachable state has a history too short for
its copy or longer than three windows. -/
theorem lz4_stream_is_block (body : List UInt8) (sizes : List Nat) :
    AgreesWith (decodeBlock body) (leNat (body.take 4)) sizes (readBlock body sizes) ∧
      ∀ s, Reachable body s → HistoryHolds s := by
  refine ⟨?_, fun s reachable => ?_⟩
  · unfold readBlock
    cases opened : Lz4Stream.new body with
    | error e =>
        have short : body.length < 4 := by
          unfold Lz4Stream.new at opened
          split at opened
          · assumption
          · cases opened
        show decodeBlock body = none
        rw [decodeBlock, if_pos short]
    | ok s =>
        obtain ⟨over_, handed, reference⟩ := Over.new opened
        have declared : s.declared = leNat (body.take 4) := by
          unfold Lz4Stream.new at opened
          split at opened
          · cases opened
          · cases opened
            rfl
        have runs := readSizes_over sizes over_ [] (Nat.zero_le _)
        rw [reference, declared] at runs
        have none : sent s [] = [] := List.take_nil
        rw [none, List.nil_append, List.nil_append] at runs
        exact runs
  · obtain ⟨out, over_⟩ := reachable.over
    exact over_.historyHolds

end Logweir.Kbak
