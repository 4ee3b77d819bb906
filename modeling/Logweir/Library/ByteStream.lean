/-!
# Bounded byte readers

A reader fills a buffer of at most `n` bytes a call and answers what it has, in
pieces of its own choosing.  `Delivers r R` says that a reader in a state
related to `bytes` hands out exactly those bytes in order, however it cuts them
up; `NeverFails` adds that no call is an error.  Both pass through a buffer and
through a length limit, and a program of exact reads run over such a reader
computes what it computes over the bytes themselves.
-/

set_option autoImplicit false

namespace Logweir.ByteStream

inductive ErrorKind where
  | unexpectedEof
  | invalidData
  | timedOut
  | other
deriving DecidableEq, Repr

structure ReadError where
  kind : ErrorKind
  message : String
deriving DecidableEq, Repr

/-- One call: what it answers and the state it leaves, after an error too. -/
abbrev Step (σ α : Type) := σ → Except ReadError α × σ

/-- A byte source.  `read n` fills a buffer of `n` bytes; an empty answer for
`0 < n` is the end of the stream. -/
structure Reader (σ : Type) where
  read : Nat → Step σ (List UInt8)

section Exact
variable {σ : Type}

def readExactEof : ReadError := ⟨.unexpectedEof, "failed to fill whole buffer"⟩

/-- Fills a buffer of `n` bytes call by call.  Every call that answers takes a
byte, so `n` calls are enough. -/
def readExactLoop (r : Reader σ) : Nat → Nat → Step σ (List UInt8)
  | 0, n, s => if n = 0 then (.ok [], s) else (.error readExactEof, s)
  | calls + 1, n, s =>
      if n = 0 then (.ok [], s)
      else
        match r.read n s with
        | (.error e, s) => (.error e, s)
        | (.ok [], s) => (.error readExactEof, s)
        | (.ok (b :: chunk), s) =>
            match readExactLoop r calls (n - (chunk.length + 1)) s with
            | (.error e, s) => (.error e, s)
            | (.ok more, s) => (.ok (b :: chunk ++ more), s)

def readExact (r : Reader σ) (n : Nat) : Step σ (List UInt8) := readExactLoop r n n

/-- A reader in a state related to `bytes` answers a prefix of them, nothing
only at their end, and the state it leaves is related to the rest. -/
def Delivers (r : Reader σ) (R : σ → List UInt8 → Prop) : Prop :=
  ∀ s bytes n chunk s', R s bytes → 0 < n → r.read n s = (.ok chunk, s') →
    chunk.length ≤ n ∧ (chunk = [] → bytes = []) ∧ ∃ rest, bytes = chunk ++ rest ∧ R s' rest

def NeverFails (r : Reader σ) (R : σ → List UInt8 → Prop) : Prop :=
  ∀ s bytes n, R s bytes → 0 < n → ∃ chunk s', r.read n s = (.ok chunk, s')

/-- The stream opened at `s` hands out exactly `bytes` and no call fails. -/
def Yields (r : Reader σ) (s : σ) (bytes : List UInt8) : Prop :=
  ∃ R, Delivers r R ∧ NeverFails r R ∧ R s bytes

theorem readExactLoop_sound (r : Reader σ) (R : σ → List UInt8 → Prop) (delivers : Delivers r R) :
    ∀ calls n s bytes out s', n ≤ calls → R s bytes →
      readExactLoop r calls n s = (.ok out, s') →
        n ≤ bytes.length ∧ out = bytes.take n ∧ R s' (bytes.drop n) := by
  intro calls
  induction calls with
  | zero =>
      intro n s bytes out s' enough related run
      have empty : n = 0 := by omega
      subst empty
      simp only [readExactLoop, if_pos, Prod.mk.injEq, Except.ok.injEq] at run
      obtain ⟨rfl, rfl⟩ := run
      exact ⟨Nat.zero_le _, by simp, by simpa using related⟩
  | succ calls ih =>
      intro n s bytes out s' enough related run
      unfold readExactLoop at run
      split at run
      · rename_i empty
        subst empty
        simp only [Prod.mk.injEq, Except.ok.injEq] at run
        obtain ⟨rfl, rfl⟩ := run
        exact ⟨Nat.zero_le _, by simp, by simpa using related⟩
      · rename_i more
        split at run
        · cases run
        · cases run
        · rename_i b chunk s₁ answer
          obtain ⟨fits, _, rest, rfl, next⟩ :=
            delivers s bytes n (b :: chunk) s₁ related (by omega) answer
          simp only [List.length_cons] at fits
          split at run
          · cases run
          · rename_i tail s₂ loop
            obtain ⟨short, rfl, final⟩ := ih _ s₁ rest tail s₂ (by omega) next loop
            simp only [Prod.mk.injEq, Except.ok.injEq] at run
            obtain ⟨rfl, rfl⟩ := run
            have whole : (b :: chunk).length ≤ n := fits
            refine ⟨by simp only [List.length_append, List.length_cons]; omega, ?_, ?_⟩
            · rw [List.take_append, List.take_of_length_le whole]
              rfl
            · rw [List.drop_append, List.drop_of_length_le whole]
              exact final

theorem readExactLoop_total (r : Reader σ) (R : σ → List UInt8 → Prop) (delivers : Delivers r R)
    (total : NeverFails r R) :
    ∀ calls n s bytes, n ≤ calls → n ≤ bytes.length → R s bytes →
      ∃ out s', readExactLoop r calls n s = (.ok out, s') := by
  intro calls
  induction calls with
  | zero =>
      intro n s bytes enough _ _
      have empty : n = 0 := by omega
      exact ⟨[], s, by simp [readExactLoop, empty]⟩
  | succ calls ih =>
      intro n s bytes enough available related
      unfold readExactLoop
      by_cases empty : n = 0
      · exact ⟨[], s, by rw [if_pos empty]⟩
      · rw [if_neg empty]
        obtain ⟨chunk, s₁, answer⟩ := total s bytes n related (by omega)
        obtain ⟨fits, ended, rest, rfl, next⟩ :=
          delivers s bytes n chunk s₁ related (by omega) answer
        cases chunk with
        | nil =>
            rw [ended rfl] at available
            simp only [List.length_nil] at available
            omega
        | cons b chunk =>
            simp only [List.length_append, List.length_cons] at available fits
            obtain ⟨tail, s₂, loop⟩ :=
              ih (n - (chunk.length + 1)) s₁ rest (by omega) (by omega) next
            exact ⟨b :: chunk ++ tail, s₂, by rw [answer]; simp only [loop]⟩

/-- An exact read that succeeds answers the first `n` bytes. -/
theorem readExact_sound (r : Reader σ) (R : σ → List UInt8 → Prop) (delivers : Delivers r R)
    {n : Nat} {s s' : σ} {bytes out : List UInt8} (related : R s bytes)
    (run : readExact r n s = (.ok out, s')) :
    n ≤ bytes.length ∧ out = bytes.take n ∧ R s' (bytes.drop n) :=
  readExactLoop_sound r R delivers n n s bytes out s' (Nat.le_refl n) related run

theorem readExact_total (r : Reader σ) (R : σ → List UInt8 → Prop) (delivers : Delivers r R)
    (total : NeverFails r R) {n : Nat} {s : σ} {bytes : List UInt8} (related : R s bytes)
    (available : n ≤ bytes.length) :
    ∃ s', readExact r n s = (.ok (bytes.take n), s') ∧ R s' (bytes.drop n) := by
  obtain ⟨out, s', run⟩ :=
    readExactLoop_total r R delivers total n n s bytes (Nat.le_refl n) available related
  obtain ⟨_, rfl, next⟩ := readExact_sound r R delivers related run
  exact ⟨s', run, next⟩

end Exact

/-- The bytes themselves, as much of them as the buffer holds. -/
def sliceReader : Reader (List UInt8) where
  read n bytes := (.ok (bytes.take n), bytes.drop n)

theorem sliceReader_delivers : Delivers sliceReader fun s bytes => s = bytes := by
  intro s bytes n chunk s' related positive run
  subst related
  simp only [sliceReader, Prod.mk.injEq, Except.ok.injEq] at run
  obtain ⟨rfl, rfl⟩ := run
  refine ⟨by simp only [List.length_take]; omega, fun empty => ?_, _, (List.take_append_drop n s).symm,
    rfl⟩
  rcases List.take_eq_nil_iff.mp empty with zero | nil
  · omega
  · exact nil

theorem sliceReader_neverFails : NeverFails sliceReader fun s bytes => s = bytes :=
  fun s _ n _ _ => ⟨s.take n, s.drop n, rfl⟩

section Wrapped
variable {σ : Type}

structure BufReader (σ : Type) where
  inner : σ
  buffer : List UInt8

/-- A buffered reader: an empty buffer and a large enough request read through,
otherwise the buffer is filled and serves the request. -/
def bufReader (r : Reader σ) (capacity : Nat) : Reader (BufReader σ) where
  read n st :=
    if st.buffer = [] then
      if capacity ≤ n then
        ((r.read n st.inner).1, { st with inner := (r.read n st.inner).2 })
      else
        match r.read capacity st.inner with
        | (.error e, inner) => (.error e, { st with inner })
        | (.ok filled, inner) => (.ok (filled.take n), ⟨inner, filled.drop n⟩)
    else (.ok (st.buffer.take n), { st with buffer := st.buffer.drop n })

/-- What a buffered reader still has: its buffer, then its inner reader's. -/
def Buffered (R : σ → List UInt8 → Prop) (st : BufReader σ) (bytes : List UInt8) : Prop :=
  ∃ behind, bytes = st.buffer ++ behind ∧ R st.inner behind

theorem bufReader_delivers (r : Reader σ) (R : σ → List UInt8 → Prop) (delivers : Delivers r R)
    (capacity : Nat) (positive : 0 < capacity) :
    Delivers (bufReader r capacity) (Buffered R) := by
  rintro ⟨inner, buffer⟩ bytes n chunk s' ⟨behind, rfl, related⟩ hn run
  simp only [bufReader] at run
  split at run
  · rename_i empty
    subst empty
    split at run
    · obtain ⟨got, inner', answer⟩ : ∃ got inner', r.read n inner = (got, inner') := ⟨_, _, rfl⟩
      simp only [answer, Prod.mk.injEq] at run
      obtain ⟨rfl, rfl⟩ := run
      obtain ⟨fits, ended, rest, rfl, next⟩ :=
        delivers inner behind n chunk inner' related hn answer
      exact ⟨fits, ended, rest, rfl, rest, rfl, next⟩
    · generalize answer : r.read capacity inner = got at run
      obtain ⟨got | filled, inner'⟩ := got
      · cases run
      · simp only [Prod.mk.injEq, Except.ok.injEq] at run
        obtain ⟨rfl, rfl⟩ := run
        obtain ⟨_, ended, rest, rfl, next⟩ :=
          delivers inner behind capacity filled inner' related positive answer
        refine ⟨by simp only [List.length_take]; omega, fun none => ?_,
          filled.drop n ++ rest, ?_, rest, rfl, next⟩
        · rcases List.take_eq_nil_iff.mp none with zero | nil
          · omega
          · exact ended nil
        · rw [List.nil_append, ← List.append_assoc, List.take_append_drop]
  · rename_i full
    simp only [Prod.mk.injEq, Except.ok.injEq] at run
    obtain ⟨rfl, rfl⟩ := run
    refine ⟨by simp only [List.length_take]; omega, fun none => ?_, buffer.drop n ++ behind, ?_,
      behind, rfl, related⟩
    · rcases List.take_eq_nil_iff.mp none with zero | nil
      · omega
      · exact absurd nil full
    · rw [← List.append_assoc, List.take_append_drop]

theorem bufReader_neverFails (r : Reader σ) (R : σ → List UInt8 → Prop) (total : NeverFails r R)
    (capacity : Nat) (positive : 0 < capacity) :
    NeverFails (bufReader r capacity) (Buffered R) := by
  rintro ⟨inner, buffer⟩ bytes n ⟨behind, rfl, related⟩ hn
  simp only [bufReader]
  split
  · split
    · obtain ⟨chunk, inner', answer⟩ := total inner behind n related hn
      exact ⟨chunk, ⟨inner', buffer⟩, by simp only [answer]⟩
    · obtain ⟨filled, inner', answer⟩ := total inner behind capacity related positive
      exact ⟨filled.take n, ⟨inner', filled.drop n⟩, by rw [answer]⟩
  · exact ⟨_, _, rfl⟩

structure Take (σ : Type) where
  inner : σ
  limit : Nat

/-- At most `limit` bytes of the inner reader. -/
def takeReader (r : Reader σ) : Reader (Take σ) where
  read n st :=
    if st.limit = 0 then (.ok [], st)
    else
      match r.read (min n st.limit) st.inner with
      | (.error e, inner) => (.error e, { st with inner })
      | (.ok chunk, inner) => (.ok chunk, ⟨inner, st.limit - chunk.length⟩)

/-- A limited reader `k` bytes into the first `limit` of `all`. -/
def Taking (R : σ → List UInt8 → Prop) (all : List UInt8) (limit : Nat) (st : Take σ)
    (bytes : List UInt8) : Prop :=
  ∃ k, k ≤ limit ∧ k ≤ all.length ∧ st.limit = limit - k ∧ R st.inner (all.drop k) ∧
    bytes = (all.take limit).drop k

theorem takeReader_delivers (r : Reader σ) (R : σ → List UInt8 → Prop) (delivers : Delivers r R)
    (all : List UInt8) (limit : Nat) : Delivers (takeReader r) (Taking R all limit) := by
  rintro ⟨inner, left⟩ bytes n chunk s' ⟨k, hk, inAll, hleft, related, rfl⟩ hn run
  simp only at hleft related
  subst hleft
  simp only [takeReader] at run
  split at run
  · rename_i ended
    simp only [Prod.mk.injEq, Except.ok.injEq] at run
    obtain ⟨rfl, rfl⟩ := run
    have drained : (all.take limit).drop k = [] := by
      apply List.drop_eq_nil_of_le
      simp only [List.length_take]
      omega
    refine ⟨Nat.zero_le _, fun _ => drained, [], by rw [drained]; rfl, k, hk, inAll, rfl, related,
      drained.symm⟩
  · rename_i open'
    generalize answer : r.read (min n (limit - k)) inner = got at run
    obtain ⟨got | piece, inner'⟩ := got
    · cases run
    · simp only [Prod.mk.injEq, Except.ok.injEq] at run
      obtain ⟨rfl, rfl⟩ := run
      obtain ⟨fits, ended, rest, split, next⟩ :=
        delivers inner (all.drop k) _ piece inner' related (by omega) answer
      have after : rest = all.drop (k + piece.length) := by
        rw [← List.drop_drop, split, List.drop_left]
      have front : (all.take limit).drop k = piece ++ (all.take limit).drop (k + piece.length) := by
        rw [List.drop_take, split, List.take_append, List.take_of_length_le (by omega),
          List.drop_take, after]
        congr 2
        omega
      have sizes := congrArg List.length split
      simp only [List.length_drop, List.length_append] at sizes
      refine ⟨by omega, fun none => ?_, _, front, k + piece.length, by omega, by omega,
        by simp only; omega, after ▸ next, rfl⟩
      have allGone := ended none
      rw [List.drop_take, allGone, List.take_nil]

theorem takeReader_neverFails (r : Reader σ) (R : σ → List UInt8 → Prop) (total : NeverFails r R)
    (all : List UInt8) (limit : Nat) : NeverFails (takeReader r) (Taking R all limit) := by
  rintro ⟨inner, left⟩ bytes n ⟨k, hk, _, hleft, related, rfl⟩ hn
  simp only [takeReader]
  split
  · exact ⟨_, _, rfl⟩
  · obtain ⟨chunk, inner', answer⟩ :=
      total inner (all.drop k) (min n left) related (by simp only at hleft; omega)
    exact ⟨chunk, ⟨inner', left - chunk.length⟩, by rw [answer]⟩

end Wrapped

/-- A computation whose only access to its input is an exact read. -/
inductive ReadProg (α : Type) where
  | done (a : α)
  | exact (n : Nat) (next : List UInt8 → ReadProg α)

namespace ReadProg
variable {σ α β : Type}

def bind : ReadProg α → (α → ReadProg β) → ReadProg β
  | .done a, f => f a
  | .exact n next, f => .exact n fun bytes => (next bytes).bind f

instance : Monad ReadProg where
  pure := .done
  bind := bind

def readExact (n : Nat) : ReadProg (List UInt8) := .exact n .done

def run (r : Reader σ) : ReadProg α → Step σ α
  | .done a, s => (.ok a, s)
  | .exact n next, s =>
      match ByteStream.readExact r n s with
      | (.error e, s) => (.error e, s)
      | (.ok bytes, s) => run r (next bytes) s

/-- The program over bytes in hand: its answer and what it leaves unread. -/
def parse : ReadProg α → List UInt8 → Option (α × List UInt8)
  | .done a, bytes => some (a, bytes)
  | .exact n next, bytes =>
      if n ≤ bytes.length then parse (next (bytes.take n)) (bytes.drop n) else none

@[simp] theorem parse_pure (a : α) (bytes : List UInt8) :
    parse (pure a) bytes = some (a, bytes) := rfl

@[simp] theorem parse_bind (p : ReadProg α) (f : α → ReadProg β) (bytes : List UInt8) :
    parse (p >>= f) bytes = (parse p bytes).bind fun (a, rest) => parse (f a) rest := by
  change parse (p.bind f) bytes = _
  induction p generalizing bytes with
  | done a => rfl
  | exact n next ih =>
      simp only [bind, parse]
      split
      · exact ih _ _
      · rfl

@[simp] theorem parse_readExact (n : Nat) (bytes : List UInt8) :
    parse (readExact n) bytes =
      if n ≤ bytes.length then some (bytes.take n, bytes.drop n) else none := rfl

theorem parse_length (p : ReadProg α) (bytes rest : List UInt8) (a : α)
    (parsed : p.parse bytes = some (a, rest)) : rest.length ≤ bytes.length := by
  induction p generalizing bytes with
  | done b =>
      cases parsed
      exact Nat.le_refl _
  | exact n next ih =>
      simp only [parse] at parsed
      split at parsed
      · have := ih _ _ parsed
        simp only [List.length_drop] at this
        omega
      · cases parsed

theorem run_sound (r : Reader σ) (R : σ → List UInt8 → Prop) (delivers : Delivers r R) :
    ∀ (p : ReadProg α) (s s' : σ) (bytes : List UInt8) (a : α), R s bytes →
      run r p s = (.ok a, s') → ∃ rest, parse p bytes = some (a, rest) ∧ R s' rest := by
  intro p
  induction p with
  | done b =>
      intro s s' bytes a related ran
      simp only [run, Prod.mk.injEq, Except.ok.injEq] at ran
      obtain ⟨rfl, rfl⟩ := ran
      exact ⟨bytes, rfl, related⟩
  | exact n next ih =>
      intro s s' bytes a related ran
      simp only [run] at ran
      split at ran
      · cases ran
      · rename_i out s₁ read
        obtain ⟨available, rfl, after⟩ := readExact_sound r R delivers related read
        obtain ⟨rest, parsed, final⟩ := ih _ s₁ s' _ a after ran
        exact ⟨rest, by rw [parse, if_pos available, parsed], final⟩

theorem run_total (r : Reader σ) (R : σ → List UInt8 → Prop) (delivers : Delivers r R)
    (total : NeverFails r R) :
    ∀ (p : ReadProg α) (s : σ) (bytes rest : List UInt8) (a : α), R s bytes →
      parse p bytes = some (a, rest) → ∃ s', run r p s = (.ok a, s') ∧ R s' rest := by
  intro p
  induction p with
  | done b =>
      intro s bytes rest a related parsed
      simp only [parse, Option.some.injEq, Prod.mk.injEq] at parsed
      obtain ⟨rfl, rfl⟩ := parsed
      exact ⟨s, rfl, related⟩
  | exact n next ih =>
      intro s bytes rest a related parsed
      simp only [parse] at parsed
      split at parsed
      · rename_i available
        obtain ⟨s₁, read, after⟩ := readExact_total r R delivers total related available
        obtain ⟨s', ran, final⟩ := ih _ s₁ _ rest a after parsed
        exact ⟨s', by simp only [run, read, ran], final⟩
      · cases parsed

end ReadProg

end Logweir.ByteStream
