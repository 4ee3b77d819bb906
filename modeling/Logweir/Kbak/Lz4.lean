import Logweir.Library.ByteStream
import Logweir.Kbak.Segment

/-!
# The LZ4 block stream

`kbak::Lz4Stream`: an LZ4 block behind its declared size, decoded while it is
read.  Only the last 64 KiB of output are kept.  What the digest reader needs of
it is the account of its output: a stream read to its end handed out exactly
the declared number of bytes.
-/

set_option autoImplicit false

namespace Logweir.Kbak

open Logweir.ByteStream

def lz4Window : Nat := 2 ^ 16
def lz4Chunk : Nat := 2 ^ 16

inductive Lz4State where
  | token
  | literals (left matchBase : Nat)
  | «match» (offset left done : Nat) (positive : 0 < offset)
  | done

structure Lz4Stream where
  /-- The block from the read position on. -/
  src : List UInt8
  hist : List UInt8
  handed : Nat
  state : Lz4State
  produced : Nat
  declared : Nat
  handedLe : handed ≤ hist.length

def lz4Bad (m : String) : ReadError := ⟨.invalidData, "lz4: " ++ m⟩

def Lz4Stream.new (body : List UInt8) : Except ReadError Lz4Stream :=
  if body.length < 4 then .error (lz4Bad "missing the 4-byte prepended size")
  else
    .ok { src := body.drop 4, hist := [], handed := 0, state := .token, produced := 0
          declared := leNat (body.take 4), handedLe := Nat.le_refl 0 }

def lz4Extension : List UInt8 → Option (Nat × List UInt8)
  | [] => none
  | b :: rest =>
      if b = 255 then (lz4Extension rest).map fun (more, rest) => (b.toNat + more, rest)
      else some (b.toNat, rest)

theorem lz4Extension_shorter (src rest : List UInt8) (n : Nat)
    (read : lz4Extension src = some (n, rest)) : rest.length < src.length := by
  induction src generalizing n rest with
  | nil => cases read
  | cons b src ih =>
      simp only [lz4Extension] at read
      split at read
      · obtain ⟨⟨more, left⟩, tail, eq⟩ := Option.map_eq_some_iff.mp read
        cases eq
        have := ih left more tail
        simp only [List.length_cons]
        omega
      · cases read
        simp

def lz4Length (nibble : Nat) (src : List UInt8) : Option (Nat × List UInt8) :=
  if nibble = 15 then (lz4Extension src).map fun (more, rest) => (15 + more, rest)
  else some (nibble, src)

theorem lz4Length_le (nibble : Nat) (src rest : List UInt8) (n : Nat)
    (read : lz4Length nibble src = some (n, rest)) : rest.length ≤ src.length := by
  simp only [lz4Length] at read
  split at read
  · obtain ⟨⟨more, left⟩, tail, eq⟩ := Option.map_eq_some_iff.mp read
    cases eq
    exact Nat.le_of_lt (lz4Extension_shorter src left more tail)
  · cases read
    exact Nat.le_refl _

def lz4Ends : ReadError := lz4Bad "the block ends inside a sequence"

def Lz4Stream.produce (s : Lz4Stream) (out : List UInt8) : Except ReadError Lz4Stream :=
  if s.declared < s.produced + out.length then
    .error (lz4Bad "the block decodes past its declared size")
  else
    .ok
      { s with
        produced := s.produced + out.length
        hist := s.hist ++ out
        handedLe := by have := s.handedLe; simp only [List.length_append]; omega }

/-- How far back one copy of a match reaches: whole periods of the pattern,
once the match has written some of it. -/
def lz4Reach (offset done : Nat) : Nat :=
  let run := min (offset + done) lz4Chunk
  max (run / offset) 1 * offset

def Lz4Stream.trim (s : Lz4Stream) : Lz4Stream :=
  if 2 * lz4Window < s.hist.length then
    let cut := s.hist.length - lz4Window
    { s with
      hist := s.hist.drop cut
      handed := s.handed - cut
      handedLe := by have := s.handedLe; simp only [List.length_drop]; omega }
  else s

/-- One turn of the read loop with nothing left to hand out: `none` is the end
of the stream. -/
def Lz4Stream.turn (s : Lz4Stream) : Except ReadError (Option Lz4Stream) :=
  match s.state with
  | .done => .ok none
  | .token =>
      match s.src with
      | [] =>
          if s.produced ≠ s.declared then
            .error (lz4Bad "the block ends short of its declared size")
          else .ok (some { s with state := .done })
      | token :: src =>
          match lz4Length (token.toNat / 16) src with
          | none => .error lz4Ends
          | some (left, rest) =>
              .ok (some { s with src := rest, state := .literals left (token.toNat % 16) })
  | .literals left matchBase =>
      if 0 < left then
        let n := min left lz4Chunk
        if s.src.length < n then .error (lz4Bad "literals run past the block")
        else
          match s.produce (s.src.take n) with
          | .error e => .error e
          | .ok s => .ok (some { s with src := s.src.drop n, state := .literals (left - n) matchBase })
      else
        match s.src with
        -- The last sequence is literals only.
        | [] => .ok (some { s with state := .token })
        | [_] => .error lz4Ends
        | a :: b :: src =>
            let offset := leNat [a, b]
            if h : offset = 0 ∨ s.produced < offset then
              .error (lz4Bad "a match offset outside the output")
            else
              match lz4Length matchBase src with
              | none => .error lz4Ends
              | some (left, rest) =>
                  .ok (some
                    { s with src := rest, state := .match offset (left + 4) 0 (by omega) })
  | .match offset left done positive =>
      if left = 0 then .ok (some { s with state := .token })
      else
        let n := min left (lz4Reach offset done)
        -- The history always reaches that far back; where it did not, the
        -- source's slice would panic.
        if s.hist.length < lz4Reach offset done then .error (lz4Bad "a copy before the history")
        else
          match s.produce ((s.hist.drop (s.hist.length - lz4Reach offset done)).take n) with
          | .error e => .error e
          | .ok s => .ok (some { s with state := .match offset (left - n) (done + n) positive })

def Lz4State.rank : Lz4State → Nat
  | .done => 0
  | .token => 1
  | .literals _ _ => 2
  | .match _ _ _ _ => 3

def Lz4Stream.weight (s : Lz4Stream) : Nat :=
  if s.handed < s.hist.length then 0 else 1 + 4 * s.src.length + s.state.rank

theorem trim_drained (s : Lz4Stream) (drained : ¬ s.handed < s.hist.length) :
    s.trim.handed = s.trim.hist.length ∧ s.trim.src = s.src ∧ s.trim.state = s.state ∧
      s.trim.produced = s.produced ∧ s.trim.declared = s.declared := by
  have := s.handedLe
  unfold Lz4Stream.trim
  split
  · refine ⟨?_, rfl, rfl, rfl, rfl⟩
    simp only [List.length_drop]
    omega
  · exact ⟨by omega, rfl, rfl, rfl, rfl⟩

theorem lz4Reach_pos (offset done : Nat) (positive : 0 < offset) : 0 < lz4Reach offset done :=
  Nat.mul_pos (by omega) positive

theorem produce_ok (s s' : Lz4Stream) (out : List UInt8) (ok : s.produce out = .ok s') :
    s'.hist = s.hist ++ out ∧ s'.handed = s.handed ∧ s'.produced = s.produced + out.length ∧
      s'.declared = s.declared := by
  simp only [Lz4Stream.produce] at ok
  split at ok
  · cases ok
  · cases ok
    exact ⟨rfl, rfl, rfl, rfl⟩

theorem turn_cases (s s' : Lz4Stream) (turned : s.turn = .ok (some s')) :
    (s'.hist = s.hist ∧ s'.handed = s.handed ∧ s'.produced = s.produced ∧
      s'.declared = s.declared ∧ 4 * s'.src.length + s'.state.rank < 4 * s.src.length + s.state.rank ∧
      (s'.state = .done → s.produced = s.declared)) ∨
    (∃ out, out ≠ [] ∧ s'.hist = s.hist ++ out ∧ s'.handed = s.handed ∧
      s'.produced = s.produced + out.length ∧ s'.declared = s.declared ∧ s'.state ≠ .done) := by
  unfold Lz4Stream.turn at turned
  split at turned
  · cases turned
  · rename_i atToken
    split at turned
    · rename_i ended
      split at turned
      · cases turned
      · rename_i full
        cases turned
        refine .inl ⟨rfl, rfl, rfl, rfl, ?_, fun _ => by omega⟩
        simp [atToken, Lz4State.rank]
    · rename_i token src more
      split at turned
      · cases turned
      · rename_i left rest length
        cases turned
        have shorter := lz4Length_le _ _ _ _ length
        refine .inl ⟨rfl, rfl, rfl, rfl, ?_, fun h => by cases h⟩
        simp only [more, atToken, Lz4State.rank, List.length_cons]
        omega
  · rename_i left matchBase atLiterals
    simp only at turned
    split at turned
    · rename_i some'
      split at turned
      · cases turned
      · rename_i enough
        split at turned
        · cases turned
        · rename_i s₁ ok
          cases turned
          obtain ⟨hist, handed, produced, declared⟩ := produce_ok s s₁ _ ok
          refine .inr ⟨_, ?_, hist, handed, produced, declared, fun h => by cases h⟩
          intro none
          have := congrArg List.length none
          simp only [List.length_take, List.length_nil, lz4Chunk] at this enough
          omega
    · split at turned
      · cases turned
        refine .inl ⟨rfl, rfl, rfl, rfl, ?_, fun h => by cases h⟩
        simp [atLiterals, Lz4State.rank]
      · cases turned
      · rename_i a b src more
        split at turned
        · cases turned
        · split at turned
          · cases turned
          · rename_i left' rest length
            cases turned
            have shorter := lz4Length_le _ _ _ _ length
            refine .inl ⟨rfl, rfl, rfl, rfl, ?_, fun h => by cases h⟩
            simp only [more, atLiterals, Lz4State.rank, List.length_cons]
            omega
  · rename_i offset left done positive atMatch
    simp only at turned
    split at turned
    · cases turned
      refine .inl ⟨rfl, rfl, rfl, rfl, ?_, fun h => by cases h⟩
      simp [atMatch, Lz4State.rank]
    · rename_i some'
      split at turned
      · cases turned
      · rename_i reaches
        split at turned
        · cases turned
        · rename_i s₁ ok
          cases turned
          obtain ⟨hist, handed, produced, declared⟩ := produce_ok s s₁ _ ok
          refine .inr ⟨_, ?_, hist, handed, produced, declared, fun h => by cases h⟩
          intro none
          have := congrArg List.length none
          have reach := lz4Reach_pos offset done positive
          simp only [List.length_take, List.length_drop, List.length_nil] at this
          omega

theorem turn_weight (s s' : Lz4Stream) (drained : ¬ s.handed < s.hist.length)
    (turned : s.trim.turn = .ok (some s')) : s'.weight < s.weight := by
  obtain ⟨drained', src, state, _, _⟩ := trim_drained s drained
  have before : s.weight = 1 + 4 * s.src.length + s.state.rank := if_neg drained
  rcases turn_cases s.trim s' turned with ⟨hist, handed, _, _, lighter, _⟩ |
    ⟨out, some', hist, handed, _, _, _⟩
  · rw [src, state] at lighter
    have after : s'.weight = 1 + 4 * s'.src.length + s'.state.rank := by
      rw [Lz4Stream.weight, hist, handed, if_neg (by omega)]
    omega
  · have longer := List.length_pos_iff.mpr some'
    have after : s'.weight = 0 := by
      rw [Lz4Stream.weight, hist, handed, if_pos (by simp only [List.length_append]; omega)]
    omega

def Lz4Stream.read (n : Nat) (s : Lz4Stream) : Except ReadError (List UInt8) × Lz4Stream :=
  if h : s.handed < s.hist.length then
    let k := min n (s.hist.length - s.handed)
    (.ok ((s.hist.drop s.handed).take k), { s with handed := s.handed + k, handedLe := by omega })
  else if n = 0 then (.ok [], s)
  else
    match turned : s.trim.turn with
    | .error e => (.error e, s.trim)
    | .ok none => (.ok [], s.trim)
    | .ok (some s') => Lz4Stream.read n s'
termination_by s.weight
decreasing_by exact turn_weight s s' h turned

def lz4Reader : Reader Lz4Stream := ⟨Lz4Stream.read⟩

def Lz4Stream.out (s : Lz4Stream) : Nat := s.produced - (s.hist.length - s.handed)

/-- What is kept and not handed out was produced, and the stream ends only at
its declared size. -/
structure Lz4Stream.Accounted (s : Lz4Stream) : Prop where
  kept : s.hist.length - s.handed ≤ s.produced
  ended : s.state = .done → s.produced = s.declared

theorem new_accounted (body : List UInt8) (s : Lz4Stream) (opened : Lz4Stream.new body = .ok s) :
    s.Accounted ∧ s.out = 0 := by
  simp only [Lz4Stream.new] at opened
  split at opened
  · cases opened
  · cases opened
    exact ⟨⟨Nat.le_refl 0, fun h => by cases h⟩, rfl⟩

theorem turn_accounted (s s' : Lz4Stream)
    (drained : ¬ s.handed < s.hist.length) (turned : s.trim.turn = .ok (some s')) :
    s'.Accounted ∧ s'.declared = s.declared ∧ s'.out = s.out := by
  obtain ⟨drained', _, _, produced, declared⟩ := trim_drained s drained
  have all := s.handedLe
  rcases turn_cases s.trim s' turned with ⟨hist, handed, produced', declared', _, done⟩ |
    ⟨out, _, hist, handed, produced', declared', open'⟩
  · refine ⟨⟨?_, fun h => ?_⟩, declared'.trans declared, ?_⟩
    · rw [hist, handed]
      omega
    · have := done h
      omega
    · rw [Lz4Stream.out, Lz4Stream.out, hist, handed]
      omega
  · refine ⟨⟨?_, fun h => absurd h open'⟩, declared'.trans declared, ?_⟩
    · rw [hist, handed, List.length_append]
      omega
    · rw [Lz4Stream.out, Lz4Stream.out, hist, handed, List.length_append]
      omega

theorem turn_end (s : Lz4Stream) (ended : s.turn = .ok none) : s.state = .done := by
  unfold Lz4Stream.turn at ended
  split at ended
  · assumption
  · split at ended
    · split at ended <;> cases ended
    · split at ended <;> cases ended
  · simp only at ended
    split at ended
    · split at ended
      · cases ended
      · split at ended <;> cases ended
    · split at ended
      · cases ended
      · cases ended
      · split at ended
        · cases ended
        · split at ended <;> cases ended
  · simp only at ended
    split at ended
    · cases ended
    · split at ended
      · cases ended
      · split at ended <;> cases ended

section Read
variable (n : Nat) (s : Lz4Stream) (drained : ¬ s.handed < s.hist.length) (positive : n ≠ 0)
include drained positive

theorem read_error (e : ReadError) (turned : s.trim.turn = .error e) :
    s.read n = (.error e, s.trim) := by
  rw [Lz4Stream.read, dif_neg drained, if_neg positive]
  split
  · rename_i got
    rw [turned] at got
    cases got
    rfl
  all_goals
    rename_i got
    rw [turned] at got
    cases got

theorem read_end (turned : s.trim.turn = .ok none) : s.read n = (.ok [], s.trim) := by
  rw [Lz4Stream.read, dif_neg drained, if_neg positive]
  split
  · rename_i got
    rw [turned] at got
    cases got
  · rfl
  · rename_i got
    rw [turned] at got
    cases got

theorem read_next (s' : Lz4Stream) (turned : s.trim.turn = .ok (some s')) :
    s.read n = s'.read n := by
  rw [Lz4Stream.read, dif_neg drained, if_neg positive]
  split
  · rename_i got
    rw [turned] at got
    cases got
  · rename_i got
    rw [turned] at got
    cases got
  · rename_i got
    rw [turned] at got
    cases got
    rfl

end Read

theorem read_accounted (n : Nat) (positive : 0 < n) (s : Lz4Stream) :
    ∀ chunk s', s.Accounted → s.read n = (.ok chunk, s') →
      s'.Accounted ∧ s'.declared = s.declared ∧ s'.out = s.out + chunk.length ∧
        (chunk = [] → s.out = s.declared) := by
  induction s using Lz4Stream.read.induct n with
  | case1 s pending =>
      intro chunk s' acc run
      rw [Lz4Stream.read, dif_pos pending] at run
      simp only [Prod.mk.injEq, Except.ok.injEq] at run
      obtain ⟨rfl, rfl⟩ := run
      have kept := acc.kept
      have size : ((s.hist.drop s.handed).take (min n (s.hist.length - s.handed))).length =
          min n (s.hist.length - s.handed) := by
        simp only [List.length_take, List.length_drop]
        omega
      refine ⟨⟨?_, acc.ended⟩, rfl, ?_, fun none => ?_⟩
      · simp only
        omega
      · rw [size]
        simp only [Lz4Stream.out]
        omega
      · rw [none] at size
        simp only [List.length_nil] at size
        omega
  | case2 s drained zero => omega
  | case3 s drained some' e turned =>
      intro chunk s' acc run
      rw [read_error n s drained some' e turned] at run
      cases run
  | case4 s drained some' turned =>
      intro chunk s' acc run
      rw [read_end n s drained some' turned] at run
      simp only [Prod.mk.injEq, Except.ok.injEq] at run
      obtain ⟨rfl, rfl⟩ := run
      obtain ⟨drained', _, state, produced, declared⟩ := trim_drained s drained
      have atEnd := acc.ended (state ▸ turn_end s.trim turned)
      have all := s.handedLe
      refine ⟨⟨by omega, fun _ => by omega⟩, declared, ?_, fun _ => ?_⟩ <;>
        simp only [Lz4Stream.out, List.length_nil] <;> omega
  | case5 s drained some' s₁ turned ih =>
      intro chunk s' acc run
      obtain ⟨acc₁, declared, out⟩ := turn_accounted s s₁ drained turned
      rw [read_next n s drained some' s₁ turned] at run
      obtain ⟨acc', declared', out', last⟩ := ih chunk s' acc₁ run
      exact ⟨acc', declared'.trans declared, by omega, fun none => by have := last none; omega⟩

theorem lz4_yields_declared (bytes : List UInt8) (s : Lz4Stream) (acc : s.Accounted)
    (yields : Yields lz4Reader s bytes) : s.out + bytes.length = s.declared := by
  obtain ⟨R, delivers, total, related⟩ := yields
  induction size : bytes.length using Nat.strongRecOn generalizing bytes s with
  | ind size' ih =>
      obtain ⟨chunk, s', run⟩ := total s bytes 1 related (by omega)
      obtain ⟨_, ended, rest, rfl, next⟩ := delivers s bytes 1 chunk s' related (by omega) run
      obtain ⟨acc', declared, out, last⟩ := read_accounted 1 (by omega) s chunk s' acc run
      cases chunk with
      | nil =>
          have none := ended rfl
          have := last rfl
          simp only [List.nil_append] at none size
          rw [none] at size
          simp only [List.length_nil] at size
          omega
      | cons b chunk =>
          simp only [List.length_append, List.length_cons] at size out
          have := ih rest.length (by omega) rest s' acc' next rfl
          omega

end Logweir.Kbak
