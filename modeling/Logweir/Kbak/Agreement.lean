import Logweir.Kbak.Frames

/-!
# The streaming reader against the plain decoder

The capped, buffered body delivers the decompressed bytes however its decoder
cuts them up, so the record loop reads the frames `decode_segment` reads.
-/

set_option autoImplicit false

namespace Logweir.Kbak

open Logweir.ByteStream Logweir.Fingerprint Logweir.Results

section Stream
variable {σ ζ τ ν : Type}

/-- What a capped reader still has; `within` says the cap covers it. -/
def CappedHas (within : Prop) (R : σ → List UInt8 → Prop) (c : Capped σ) (bytes : List UInt8) :
    Prop :=
  R c.inner bytes ∧ (within → bytes.length ≤ c.left)

theorem cappedReader_delivers (r : Reader σ) (R : σ → List UInt8 → Prop) (delivers : Delivers r R)
    (deadline : Option Nat) (now : Nat → Nat) (within : Prop) :
    Delivers (cappedReader r deadline now) (CappedHas within R) := by
  intro c bytes n chunk c' ⟨related, cap⟩ positive run
  simp only [cappedReader, if_neg (show n ≠ 0 by omega)] at run
  split at run
  · cases run
  · split at run
    · rename_i full
      split at run
      · cases run
      · rename_i inner answer
        simp only [Prod.mk.injEq, Except.ok.injEq] at run
        obtain ⟨rfl, rfl⟩ := run
        obtain ⟨_, ended, rest, rfl, next⟩ := delivers _ _ 1 _ _ related (by omega) answer
        exact ⟨by simp, ended, _, rfl, next, cap⟩
      · cases run
    · split at run
      · cases run
      · rename_i piece inner answer
        simp only [Prod.mk.injEq, Except.ok.injEq] at run
        obtain ⟨rfl, rfl⟩ := run
        obtain ⟨fits, ended, rest, rfl, next⟩ := delivers _ _ _ _ _ related (by omega) answer
        refine ⟨by omega, ended, rest, rfl, next, fun h => ?_⟩
        have := cap h
        simp only [List.length_append] at this
        simp only
        omega

theorem cappedReader_neverFails (r : Reader σ) (R : σ → List UInt8 → Prop) (delivers : Delivers r R)
    (total : NeverFails r R) (now : Nat → Nat) :
    NeverFails (cappedReader r none now) (CappedHas True R) := by
  intro c bytes n ⟨related, cap⟩ positive
  simp only [cappedReader, if_neg (show n ≠ 0 by omega), Option.any_none, Bool.false_eq_true,
    if_false]
  split
  · rename_i full
    obtain ⟨chunk, inner, answer⟩ := total c.inner bytes 1 related (by omega)
    obtain ⟨_, ended, rest, rfl, _⟩ := delivers _ _ 1 _ _ related (by omega) answer
    have nothing := cap trivial
    simp only [List.length_append] at nothing
    -- The cap covers what is left, so the probe past it finds the end.
    have empty : chunk = [] := List.eq_nil_of_length_eq_zero (by omega)
    subst empty
    exact ⟨[], _, by rw [answer]⟩
  · obtain ⟨chunk, inner, answer⟩ := total c.inner bytes (min n c.left) related (by omega)
    exact ⟨chunk, _, by rw [answer]⟩

/-- What the buffered, capped body still has. -/
def ScanHas (within : Prop) (R : σ → List UInt8 → Prop) :
    BufReader (Capped σ) → List UInt8 → Prop :=
  Buffered (CappedHas within R)

theorem scanReader_delivers (r : Reader σ) (R : σ → List UInt8 → Prop) (delivers : Delivers r R)
    (deadline : Option Nat) (now : Nat → Nat) (within : Prop) :
    Delivers (scanReader r deadline now) (ScanHas within R) :=
  bufReader_delivers _ _ (cappedReader_delivers r R delivers deadline now within) bufferSize
    (by decide)

theorem scanReader_neverFails (r : Reader σ) (R : σ → List UInt8 → Prop) (delivers : Delivers r R)
    (total : NeverFails r R) (now : Nat → Nat) :
    NeverFails (scanReader r none now) (ScanHas True R) :=
  bufReader_neverFails _ _ (cappedReader_neverFails r R delivers total now) bufferSize (by decide)

theorem scanStep_sound (r : Reader (BufReader (Capped σ)))
    (S : BufReader (Capped σ) → List UInt8 → Prop) (delivers : Delivers r S)
    (readOne : ReadProg τ) (st st' : BufReader (Capped σ)) (bytes : List UInt8) (one : τ)
    (related : S st bytes) (run : scanStep r readOne st = (.ok one, st')) :
    4 ≤ bytes.length ∧ leNat (bytes.take 4) ≤ (bytes.drop 4).length ∧
      readOne.parse ((bytes.drop 4).take (leNat (bytes.take 4))) = some (one, []) ∧
      S st' ((bytes.drop 4).drop (leNat (bytes.take 4))) := by
  simp only [scanStep] at run
  split at run
  · cases run
  · rename_i len st₁ read
    obtain ⟨prefixed, rfl, next⟩ := readExact_sound r S delivers related read
    split at run
    · cases run
    · split at run
      · cases run
      · rename_i one' frame ran
        split at run
        · cases run
        · rename_i used
          simp only [Prod.mk.injEq, Except.ok.injEq] at run
          obtain ⟨rfl, rfl⟩ := run
          have start : Taking S (bytes.drop 4) (leNat (bytes.take 4))
              ⟨st₁, leNat (bytes.take 4)⟩ ((bytes.drop 4).take (leNat (bytes.take 4))) :=
            ⟨0, Nat.zero_le _, Nat.zero_le _, by simp, by simpa using next, by simp⟩
          obtain ⟨rest, parsed, k, within, inAll, limit, final, rfl⟩ := ReadProg.run_sound _ _
            (takeReader_delivers r S delivers (bytes.drop 4) (leNat (bytes.take 4)))
            readOne _ _ _ _ start ran
          have whole : k = leNat (bytes.take 4) := by omega
          subst whole
          refine ⟨prefixed, inAll, ?_, final⟩
          rw [parsed, List.drop_eq_nil_of_le (by rw [List.length_take]; omega)]

theorem scanStep_total (r : Reader σ) (R : σ → List UInt8 → Prop) (delivers : Delivers r R)
    (total : NeverFails r R) (now : Nat → Nat) (readOne : ReadProg τ)
    (st : BufReader (Capped σ)) (bytes : List UInt8) (one : τ)
    (related : ScanHas True R st bytes) (prefixed : 4 ≤ bytes.length)
    (framed : leNat (bytes.take 4) ≤ (bytes.drop 4).length)
    (parsed : readOne.parse ((bytes.drop 4).take (leNat (bytes.take 4))) = some (one, [])) :
    ∃ st', scanStep (scanReader r none now) readOne st = (.ok one, st') ∧
      ScanHas True R st' ((bytes.drop 4).drop (leNat (bytes.take 4))) := by
  have delivers' := scanReader_delivers r R delivers none now True
  have total' := scanReader_neverFails r R delivers total now
  obtain ⟨st₁, read, next⟩ := readExact_total _ _ delivers' total' related prefixed
  have covered : leNat (bytes.take 4) ≤ min (st₁.inner.left + st₁.buffer.length) u64Max := by
    obtain ⟨behind, split, _, cap⟩ := next
    have inCap := cap trivial
    have size := congrArg List.length split
    have small := leNat_lt (bytes.take 4)
    have four : (bytes.take 4).length = 4 := by rw [List.length_take]; omega
    rw [four] at small
    rw [List.length_append] at size
    simp only [u64Max]
    omega
  have start : Taking (ScanHas True R) (bytes.drop 4) (leNat (bytes.take 4))
      ⟨st₁, leNat (bytes.take 4)⟩ ((bytes.drop 4).take (leNat (bytes.take 4))) :=
    ⟨0, Nat.zero_le _, Nat.zero_le _, by simp, by simpa using next, by simp⟩
  obtain ⟨frame, ran, k, within, inAll, limit, final, used⟩ := ReadProg.run_total _ _
    (takeReader_delivers _ _ delivers' (bytes.drop 4) (leNat (bytes.take 4)))
    (takeReader_neverFails _ _ total' (bytes.drop 4) (leNat (bytes.take 4)))
    readOne _ _ _ _ start parsed
  have size := congrArg List.length used
  simp only [List.length_nil, List.length_drop, List.length_take] at size framed
  have whole : k = leNat (bytes.take 4) := by omega
  subst whole
  refine ⟨frame.inner, ?_, final⟩
  simp only [scanStep, read, if_neg (Nat.not_lt.mpr covered), ran]
  rw [if_neg (by omega)]

def feed (visit : ν → τ → ν × Bool) : List τ → ν → Nat × ν
  | [], v => (0, v)
  | one :: rest, v =>
      match visit v one with
      | (v, false) => (1, v)
      | (v, true) => ((feed visit rest v).1 + 1, (feed visit rest v).2)

theorem parseFrames_cons (readOne : ReadProg τ) (n : Nat) (bytes : List UInt8) (records : List τ)
    (parsed : parseFrames readOne (n + 1) bytes = some records) :
    4 ≤ bytes.length ∧ leNat (bytes.take 4) ≤ (bytes.drop 4).length ∧
      ∃ one more, records = one :: more ∧
        readOne.parse ((bytes.drop 4).take (leNat (bytes.take 4))) = some (one, []) ∧
        parseFrames readOne n ((bytes.drop 4).drop (leNat (bytes.take 4))) = some more := by
  simp only [parseFrames] at parsed
  split at parsed
  · cases parsed
  · rename_i available
    split at parsed
    · rename_i one frame
      obtain ⟨more, tail, eq⟩ := Option.map_eq_some_iff.mp parsed
      exact ⟨by omega, by omega, one, more, eq.symm, frame, tail⟩
    · cases parsed

theorem scanLoop_total (r : Reader σ) (R : σ → List UInt8 → Prop) (delivers : Delivers r R)
    (total : NeverFails r R) (now : Nat → Nat) (readOne : ReadProg τ) (visit : ν → τ → ν × Bool)
    (compression : UInt8) (maxDecompressed : Nat) :
    ∀ (n visited : Nat) (st : BufReader (Capped σ)) (v : ν) (bytes : List UInt8)
      (records : List τ), ScanHas True R st bytes → parseFrames readOne n bytes = some records →
      scanLoop (scanReader r none now) readOne visit compression maxDecompressed n visited st v =
        (.ok (visited + (feed visit records v).1), (feed visit records v).2) := by
  intro n
  induction n with
  | zero =>
      intro visited st v bytes records _ parsed
      cases parsed
      rfl
  | succ n ih =>
      intro visited st v bytes records related parsed
      obtain ⟨prefixed, framed, one, more, rfl, first, tail⟩ :=
        parseFrames_cons readOne n bytes records parsed
      obtain ⟨st', step, next⟩ :=
        scanStep_total r R delivers total now readOne st bytes one related prefixed framed first
      simp only [scanLoop, step, feed]
      cases visited' : visit v one with
      | mk v' more? =>
          cases more? with
          | false => rfl
          | true =>
              simp only [ih (visited + 1) st' v' _ more next tail]
              rw [Nat.add_assoc, Nat.add_comm 1]

theorem scanLoop_sound (r : Reader (BufReader (Capped σ)))
    (S : BufReader (Capped σ) → List UInt8 → Prop) (delivers : Delivers r S)
    (readOne : ReadProg τ) (visit : ν → τ → ν × Bool) (all : ∀ v one, (visit v one).2 = true)
    (compression : UInt8) (maxDecompressed : Nat) :
    ∀ (n visited total : Nat) (st : BufReader (Capped σ)) (v v' : ν) (bytes : List UInt8),
      S st bytes →
      scanLoop r readOne visit compression maxDecompressed n visited st v = (.ok total, v') →
        ∃ records, parseFrames readOne n bytes = some records := by
  intro n
  induction n with
  | zero => exact fun visited total st v v' bytes _ _ => ⟨[], rfl⟩
  | succ n ih =>
      intro visited total st v v' bytes related run
      simp only [scanLoop] at run
      split at run
      · cases run
      · rename_i one st' step
        obtain ⟨prefixed, framed, first, next⟩ :=
          scanStep_sound r S delivers readOne st st' bytes one related step
        split at run
        · rename_i v₁ stop
          have := all v one
          rw [stop] at this
          cases this
        · rename_i v₁ go
          obtain ⟨more, tail⟩ := ih _ _ st' v₁ v' _ next run
          refine ⟨one :: more, ?_⟩
          simp only [parseFrames]
          rw [if_neg (by omega), first]
          simp only [tail, Option.map_some]

end Stream

section Agreement
variable {σ ζ : Type}

theorem yields_onState {τ : Type} (r : Reader σ) (r' : Reader τ) (f : σ → τ)
    (through : ∀ n s, r'.read n (f s) = onState f (r.read n s)) (s : σ) (bytes : List UInt8)
    (yields : Yields r s bytes) : Yields r' (f s) bytes := by
  obtain ⟨R, delivers, total, related⟩ := yields
  refine ⟨fun t bytes => ∃ s, t = f s ∧ R s bytes, ?_, ?_, s, rfl, related⟩
  · rintro _ bytes n chunk t' ⟨s, rfl, related⟩ positive run
    rw [through] at run
    simp only [onState, Prod.mk.injEq] at run
    obtain ⟨answer, rfl⟩ := run
    obtain ⟨fits, ended, rest, split, next⟩ :=
      delivers s bytes n chunk _ related positive (Prod.ext answer rfl)
    exact ⟨fits, ended, rest, split, _, rfl, next⟩
  · rintro _ bytes n ⟨s, rfl, related⟩ positive
    obtain ⟨chunk, s', answer⟩ := total s bytes n related positive
    exact ⟨chunk, f s', by rw [through, answer]; rfl⟩

theorem stored_yields (zstd : ZstdStream ζ) (body : List UInt8) :
    Yields (bodyReader zstd) (.stored body) body :=
  yields_onState sliceReader (bodyReader zstd) BodyStream.stored (fun _ _ => rfl) body body
    ⟨_, sliceReader_delivers, sliceReader_neverFails, rfl⟩

theorem envelopes_agree (bytes : List UInt8) (env : Envelope) :
    decodeEnvelope bytes = .ok env ↔ scanEnvelope bytes = .ok env := by
  unfold decodeEnvelope scanEnvelope
  split
  · simp
  · split
    · simp
    · split
      · simp
      · split
        · simp
        · split
          · simp
          · simp only
            split
            · simp
            · split <;> simp

/-- The stream decoder of the body's codec yields the one-shot decoder's bytes. -/
def StreamsAs (zstd : ZstdStream ζ) (env : Envelope) (body : List UInt8) : Prop :=
  (env.compression = 1 → ∃ opened decoder, zstd.withBuffer env.body = .ok opened ∧
    zstd.windowLogMax zstdWindowLogMax opened = .ok decoder ∧ Yields zstd.reader decoder body) ∧
  (env.compression = 2 → ∀ stream, Lz4Stream.new env.body = .ok stream →
    Yields lz4Reader stream body)

/-- A zstd body's first frame declares a window within the cap, as far as its
header can be read. -/
def WindowAllowed (env : Envelope) : Prop :=
  env.compression = 1 → (zstdFirstWindow env.body).getD 0 ≤ 2 ^ zstdWindowLogMax

theorem openBody_yields (codecs : Codecs) (zstd : ZstdStream ζ) (env : Envelope)
    (body : List UInt8) (maxDecompressed : Nat) (decoded : decodeBody codecs env = .ok body)
    (streams : StreamsAs zstd env body) (window : WindowAllowed env)
    (cap : body.length ≤ maxDecompressed) :
    ∃ stream, openBody zstd env maxDecompressed = .ok stream ∧
      Yields (bodyReader zstd) stream body := by
  unfold decodeBody at decoded
  unfold openBody
  split at decoded
  · rename_i stored
    cases decoded
    exact ⟨_, if_pos stored, stored_yields zstd env.body⟩
  · rename_i notStored
    rw [if_neg notStored]
    split at decoded
    · rename_i isZstd
      obtain ⟨opened, decoder, with', capped, yields⟩ := streams.1 isZstd
      refine ⟨.zstd decoder, ?_, ?_⟩
      · rw [if_pos isZstd]
        simp only [if_neg (Nat.not_lt.mpr (window isZstd)), with', capped]
      · exact yields_onState zstd.reader (bodyReader zstd) BodyStream.zstd (fun _ _ => rfl) _ _ yields
    · rename_i notZstd
      rw [if_neg notZstd]
      split at decoded
      · rename_i isLz4
        rw [if_pos isLz4]
        unfold checkedLz4Decompress at decoded
        split at decoded
        · cases decoded
        · rename_i sized
          have opened : ∃ stream, Lz4Stream.new env.body = .ok stream :=
            ⟨_, by rw [Lz4Stream.new, if_neg sized]⟩
          obtain ⟨stream, opened⟩ := opened
          have yields := streams.2 isLz4 stream opened
          obtain ⟨accounted, fresh⟩ := new_accounted env.body stream opened
          have declared := lz4_yields_declared body stream accounted yields
          refine ⟨.lz4 stream, ?_, ?_⟩
          · simp only [opened]
            rw [if_neg (by omega)]
          · exact yields_onState lz4Reader (bodyReader zstd) BodyStream.lz4 (fun _ _ => rfl) _ _ yields
      · cases decoded

def collect {τ : Type} (taken : List τ) (one : τ) : List τ × Bool := (taken ++ [one], true)

theorem feed_collect {τ : Type} : ∀ (records taken : List τ),
    feed collect records taken = (records.length, taken ++ records) := by
  intro records
  induction records with
  | nil => intro taken; simp [feed]
  | cons one records ih => intro taken; simp [feed, collect, ih]

/-- `digest_segment` over a segment the plain decoder reads, for any visitor: it
is fed the records' digests in order. -/
theorem digestSegment_feed {ν : Type} (codecs : Codecs) (zstd : ZstdStream ζ)
    (sha256 : List UInt8 → Digest) (now : Nat → Nat) (keep : String) (bytes : List UInt8)
    (limits : ScanLimits) (records : List ArchivedRecord) (env : Envelope) (body : List UInt8)
    (decoded : decodeSegment codecs bytes = .ok records) (checked : decodeEnvelope bytes = .ok env)
    (inflated : decodeBody codecs env = .ok body) (streams : StreamsAs zstd env body)
    (window : WindowAllowed env) (noDeadline : limits.deadline = none)
    (cap : body.length ≤ limits.maxDecompressed) (visit : ν → RecordDigest → ν × Bool) (v : ν) :
    digestSegment sha256 zstd now bytes limits keep visit v =
      (.ok (feed visit (records.map (digestOf sha256 keep)) v).1,
        (feed visit (records.map (digestOf sha256 keep)) v).2) := by
  have frames : decodeRecords env.recordCount body = .ok records := by
    simp only [decodeSegment, checked, inflated, bind, Except.bind] at decoded
    split at decoded
    · cases decoded
    · exact decoded
  have parsed := parseFrames_digest sha256 keep env.recordCount body
  rw [frames] at parsed
  obtain ⟨stream, opened, R, delivers, total, related⟩ :=
    openBody_yields codecs zstd env body limits.maxDecompressed inflated streams window cap
  simp only [digestSegment, scanRecords, (envelopes_agree bytes env).mp checked, opened, noDeadline]
  rw [scanLoop_total (bodyReader zstd) R delivers total now _ visit env.compression
    limits.maxDecompressed env.recordCount 0 _ v body _ ⟨body, rfl, related, fun _ => cap⟩ parsed]
  rw [Nat.zero_add]

theorem decodeSegment_of_digest (codecs : Codecs) (zstd : ZstdStream ζ)
    (sha256 : List UInt8 → Digest) (now : Nat → Nat) (keep : String) (bytes : List UInt8)
    (limits : ScanLimits) (stored : bytes[5]? = some 0) (n : Nat)
    (read : (digestSegment sha256 zstd now bytes limits keep collect []).1 = .ok n) :
    ∃ records, decodeSegment codecs bytes = .ok records := by
  unfold digestSegment scanRecords at read
  split at read
  · cases read
  · rename_i env checked
    have isStored : env.compression = 0 := by
      simp only [scanEnvelope] at checked
      repeat' split at checked
      all_goals cases checked
      simp [byteAt, stored]
    simp only [openBody, if_pos isStored] at read
    obtain ⟨R, delivers, _, related⟩ := stored_yields zstd env.body
    obtain ⟨taken, parsed⟩ := scanLoop_sound _ _
      (scanReader_delivers (bodyReader zstd) R delivers limits.deadline now False)
      (readDigestRecord sha256 keep) collect (fun _ _ => rfl) env.compression
      limits.maxDecompressed env.recordCount 0 n _ _ _ env.body
      ⟨env.body, rfl, related, False.elim⟩ (Prod.ext read rfl)
    rw [parseFrames_digest] at parsed
    obtain ⟨records, frames, _⟩ := Option.map_eq_some_iff.mp parsed
    have frames := (toOption_eq_some _ _).mp frames
    have size := (decodeRecords_length _ _ _ frames).2
    refine ⟨records, ?_⟩
    simp only [decodeSegment, (envelopes_agree bytes env).mpr checked, decodeBody, if_pos isStored,
      bind, Except.bind]
    rw [if_neg, frames]
    rw [Nat.not_lt, Nat.le_div_iff_mul_le (by decide)]
    exact size

/-- On one segment: whatever the plain decoder reads, the streaming reader hands
over digest by digest, under any cap that covers the decompressed body. -/
def AgreesOn (codecs : Codecs) (zstd : ZstdStream ζ) (sha256 : List UInt8 → Digest)
    (now : Nat → Nat) (keep : String) (bytes : List UInt8) (limits : ScanLimits) : Prop :=
  ∀ records env body, decodeSegment codecs bytes = .ok records → decodeEnvelope bytes = .ok env →
    decodeBody codecs env = .ok body → StreamsAs zstd env body → limits.deadline = none →
    body.length ≤ limits.maxDecompressed →
    digestSegment sha256 zstd now bytes limits keep collect [] =
      (.ok records.length, records.map (digestOf sha256 keep))

/-- The streaming reader agrees with the plain decoder on every segment whose
first zstd frame declares an allowed window, and refuses every stored segment
the plain decoder refuses. -/
theorem digest_segment_agrees (codecs : Codecs) (zstd : ZstdStream ζ)
    (sha256 : List UInt8 → Digest) (now : Nat → Nat) (keep : String) (bytes : List UInt8)
    (limits : ScanLimits) :
    ((∀ env, decodeEnvelope bytes = .ok env → WindowAllowed env) →
      AgreesOn codecs zstd sha256 now keep bytes limits) ∧
    (bytes[5]? = some 0 → (∀ records, decodeSegment codecs bytes ≠ .ok records) →
      ∀ n, (digestSegment sha256 zstd now bytes limits keep collect []).1 ≠ .ok n) := by
  constructor
  · intro window records env body decoded checked inflated streams noDeadline cap
    rw [digestSegment_feed codecs zstd sha256 now keep bytes limits records env body decoded checked
      inflated streams (window env checked) noDeadline cap collect [], feed_collect,
      List.length_map, List.nil_append]
  · intro stored refused n read
    obtain ⟨records, decoded⟩ :=
      decodeSegment_of_digest codecs zstd sha256 now keep bytes limits stored n read
    exact refused records decoded

def oneRecordSegment : List UInt8 :=
  [75, 66, 65, 75, 1, 0, 0, 0, 1, 0, 0, 0, 0, 0, 0, 0, 6, 0, 0, 0, 0, 0, 0, 0, 6, 0, 0, 0, 0, 0, 0,
    0, 58, 0, 0, 0, 5, 0, 0, 0, 0, 0, 0, 0, 6, 0, 0, 0, 0, 0, 0, 0, 1, 0, 0, 0, 107, 255, 255, 255,
    255, 1, 0, 17, 0, 120, 45, 111, 114, 105, 103, 105, 110, 97, 108, 45, 111, 102, 102, 115, 101,
    116, 8, 0, 0, 0, 6, 0, 0, 0, 0, 0, 0, 0, 132, 5, 140, 46, 66, 75, 65, 69]

def oneRecord : ArchivedRecord :=
  { offset := 6, timestamp := 5, key := some [107], value := none
    headers := [("x-original-offset", some [6, 0, 0, 0, 0, 0, 0, 0])] }

def oneRecordHash (_ : List UInt8) : Digest :=
  #v[216, 207, 136, 194, 180, 27, 97, 85, 197, 222, 61, 204, 73, 239, 236, 168, 224, 190, 179, 18,
    161, 114, 4, 19, 190, 191, 237, 246, 125, 55, 36, 126]

/-- One raw zstd block of a single minimal record, its frame declaring the
content's 30 bytes and a 16 MiB window. -/
def wideWindowBody : List UInt8 :=
  [40, 181, 47, 253, 128, 112, 30, 0, 0, 0, 241, 0, 0, 26, 0, 0, 0, 5, 0, 0, 0, 0, 0, 0, 0, 6, 0, 0,
    0, 0, 0, 0, 0, 255, 255, 255, 255, 255, 255, 255, 255, 0, 0]

def wideWindowSegment : List UInt8 :=
  [75, 66, 65, 75, 1, 1, 0, 0, 1, 0, 0, 0, 0, 0, 0, 0, 6, 0, 0, 0, 0, 0, 0, 0, 6, 0, 0, 0, 0, 0, 0,
    0] ++ wideWindowBody ++ [27, 57, 115, 87, 66, 75, 65, 69]

def rawBlockCodecs : Codecs where
  zstdDecodeAll body :=
    if body = wideWindowBody then .ok (body.drop 13) else .error "Unknown frame descriptor"
  lz4DecompressSizePrepended _ := .error "the expected last byte is missing"

def rawBlockStream : ZstdStream (List UInt8) where
  withBuffer body := if body = wideWindowBody then .ok (body.drop 13) else .error "Unknown frame"
  windowLogMax _ decoder := .ok decoder
  reader := sliceReader

def oneRecordEnvelope : Envelope := ⟨0, 1, slice oneRecordSegment 32 94⟩

theorem digest_segment_one_record :
    digestSegment oneRecordHash rawBlockStream (fun _ => 0) oneRecordSegment ⟨62, none⟩
        "x-original-offset" collect [] =
      (.ok 1, [digestOf oneRecordHash "x-original-offset" oneRecord]) ∧
    ∀ n, (digestSegment oneRecordHash rawBlockStream (fun _ => 0) (oneRecordSegment.set 56 0)
      ⟨62, none⟩ "x-original-offset" collect []).1 ≠ .ok n := by
  have agrees := digest_segment_agrees rawBlockCodecs rawBlockStream oneRecordHash (fun _ => 0)
    "x-original-offset"
  have checked : decodeEnvelope oneRecordSegment = .ok oneRecordEnvelope :=
    (toOption_eq_some _ _).mp (by decide +kernel)
  constructor
  · refine (agrees oneRecordSegment ⟨62, none⟩).1 (fun env found => ?_) [oneRecord]
      oneRecordEnvelope oneRecordEnvelope.body ((toOption_eq_some _ _).mp (by decide +kernel))
      checked rfl ⟨fun h => absurd h (by decide), fun h => absurd h (by decide)⟩ rfl (by decide)
    cases checked.symm.trans found
    exact fun h => absurd h (by decide)
  · refine (agrees (oneRecordSegment.set 56 0) ⟨62, none⟩).2 (by decide) fun records decoded => ?_
    have refused : (decodeSegment rawBlockCodecs (oneRecordSegment.set 56 0)).toOption = none := by
      decide +kernel
    rw [decoded] at refused
    cases refused

/-- The plain decoder reads the wide-window segment; the streaming reader
refuses it by its window before a byte is decoded. -/
theorem digest_segment_refuses_wide_window :
    ¬ AgreesOn rawBlockCodecs rawBlockStream oneRecordHash (fun _ => 0) "x-original-offset"
      wideWindowSegment ⟨2 ^ 20, none⟩ := by
  intro agrees
  have checked : decodeEnvelope wideWindowSegment = .ok ⟨1, 1, wideWindowBody⟩ :=
    (toOption_eq_some _ _).mp (by decide +kernel)
  have read := agrees [⟨6, 5, none, none, []⟩] ⟨1, 1, wideWindowBody⟩ (wideWindowBody.drop 13)
    ((toOption_eq_some _ _).mp (by decide +kernel)) checked
    ((toOption_eq_some _ _).mp (by decide +kernel))
    ⟨fun _ => ⟨_, _, rfl, rfl, _, sliceReader_delivers, sliceReader_neverFails, rfl⟩,
      fun h => absurd h (by decide)⟩ rfl (by decide)
  have answered := congrArg (fun answer => answer.1.toOption) read
  have refused : (digestSegment oneRecordHash rawBlockStream (fun _ => 0) wideWindowSegment
      ⟨2 ^ 20, none⟩ "x-original-offset" collect []).1.toOption = none := by
    decide +kernel
  rw [refused] at answered
  cases answered

end Agreement

end Logweir.Kbak
