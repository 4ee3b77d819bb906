import Logweir.Kbak.Lz4

/-!
# The streaming segment reader

`kbak::digest_segment`: the envelope checks, the body behind its decoder as a
capped and buffered stream, and the record loop that reads each record from a
frame of its declared length, hashing it as it streams past.  The zstd stream
decoder and the clock are parameters.
-/

set_option autoImplicit false

namespace Logweir.Kbak

open Logweir.ByteStream Logweir.Fingerprint

inductive ScanError where
  | tooLarge (message : String)
  | timedOut (message : String)
  | unreadable (message : String)
deriving DecidableEq, Repr

structure ScanLimits where
  maxDecompressed : Nat
  deadline : Option Nat
deriving DecidableEq, Repr

def zstdWindowLogMax : Nat := 23

/-- The window the first zstd frame of `body` declares, when its header can be
read: the window descriptor's size, or a single-segment frame's content size. -/
def zstdFirstWindow (body : List UInt8) : Option Nat :=
  if body.length < 6 ∨ body.take 4 ≠ zstdMagic then none
  else
    let descriptor := (byteAt body 4).toNat
    if descriptor / 0x20 % 2 = 0 then
      let w := (byteAt body 5).toNat
      let base := 2 ^ (10 + w / 8)
      some (base + base / 8 * (w % 8))
    else
      let dictionary := [0, 1, 2, 4].getD (descriptor % 4) 0
      let size := [1, 2, 4, 8].getD (descriptor / 64) 0
      if body.length < 5 + dictionary + size then none
      else
        let v := leNat (slice body (5 + dictionary) (5 + dictionary + size))
        some (if size = 2 then v + 256 else v)

structure ZstdStream (ζ : Type) where
  withBuffer : List UInt8 → Except String ζ
  windowLogMax : Nat → ζ → Except String ζ
  reader : Reader ζ

inductive BodyStream (ζ : Type) where
  | stored (rest : List UInt8)
  | zstd (decoder : ζ)
  | lz4 (stream : Lz4Stream)

section Stream
variable {σ ζ : Type}

def onState {τ : Type} (f : σ → τ) (answer : Except ReadError (List UInt8) × σ) :
    Except ReadError (List UInt8) × τ := (answer.1, f answer.2)

def bodyReader (zstd : ZstdStream ζ) : Reader (BodyStream ζ) where
  read n
    | .stored rest => onState .stored (sliceReader.read n rest)
    | .zstd decoder => onState .zstd (zstd.reader.read n decoder)
    | .lz4 stream => onState .lz4 (lz4Reader.read n stream)

/-- A reader that yields at most `left` bytes, reports any byte past them, and
stops once the deadline has passed.  `tick` counts the clock's readings. -/
structure Capped (σ : Type) where
  inner : σ
  left : Nat
  exceeded : Bool
  timedOut : Bool
  /-- A record frame's declared length that the cap could not hold. -/
  declared : Option Nat
  tick : Nat

def cappedReader (r : Reader σ) (deadline : Option Nat) (now : Nat → Nat) : Reader (Capped σ) where
  read n c :=
    if n = 0 then (.ok [], c)
    else if (deadline.any fun d => decide (d ≤ now c.tick)) = true then
      (.error ⟨.timedOut, "the scan's deadline passed"⟩,
        { c with tick := c.tick + 1, timedOut := true })
    else
      let c := { c with tick := c.tick + 1 }
      if c.left = 0 then
        match r.read 1 c.inner with
        | (.error e, inner) => (.error e, { c with inner })
        | (.ok [], inner) => (.ok [], { c with inner })
        | (.ok (_ :: _), inner) =>
            (.error ⟨.other, "decompressed past the cap"⟩, { c with inner, exceeded := true })
      else
        match r.read (min n c.left) c.inner with
        | (.error e, inner) => (.error e, { c with inner })
        | (.ok chunk, inner) => (.ok chunk, { c with inner, left := c.left - chunk.length })

def bufferSize : Nat := 8 * 1024

def scanReader (r : Reader σ) (deadline : Option Nat) (now : Nat → Nat) :
    Reader (BufReader (Capped σ)) :=
  bufReader (cappedReader r deadline now) bufferSize

/-- The envelope checks `scan_records` makes before it opens the body. -/
def scanEnvelope (bytes : List UInt8) : Except ScanError Envelope :=
  if bytes.head? = some 0x5B ∨ bytes.head? = some 0x7B then
    .error (.unreadable "legacy JSON segment")
  else if zstdMagic.isPrefixOf bytes then
    .error (.unreadable "whole-object zstd legacy JSON segment")
  else if bytes.length < headerSize + footerSize then
    .error (.unreadable "segment shorter than header+footer")
  else if bytes.take 4 ≠ magic then .error (.unreadable "bad magic: not a KBAK segment")
  else if byteAt bytes 4 ≠ 1 then
    let version := (byteAt bytes 4).toNat
    .error (.unreadable s!"KBAK version {version} is not v1")
  else
    let tail := bytes.length - footerSize
    if bytes.drop (tail + 4) ≠ magicEnd then
      .error (.unreadable "bad end magic: truncated segment")
    else
      let want := leNat (slice bytes tail (tail + 4))
      let got := crc32 (bytes.take tail)
      if want ≠ got then .error (.unreadable s!"CRC32 mismatch: {hex got} != {hex want}")
      else
        .ok { compression := byteAt bytes 5
              recordCount := leNat (slice bytes 8 16)
              body := slice bytes headerSize tail }

def bodyTooLarge (maxDecompressed : Nat) : ScanError :=
  .tooLarge s!"the body decompresses past {maxDecompressed} bytes"

/-- Opens the body's stream; a zstd frame's window is checked first. -/
def openBody (zstd : ZstdStream ζ) (env : Envelope) (maxDecompressed : Nat) :
    Except ScanError (BodyStream ζ) :=
  if env.compression = 0 then .ok (.stored env.body)
  else if env.compression = 1 then
    let windowCap := 2 ^ zstdWindowLogMax
    let window := (zstdFirstWindow env.body).getD 0
    if windowCap < window then
      .error (.tooLarge (s!"the zstd frame declares a {window}-byte window, above the " ++
        s!"{windowCap}-byte cap"))
    else
      match zstd.withBuffer env.body with
      | .error e => .error (.unreadable s!"zstd: {e}")
      | .ok decoder =>
          match zstd.windowLogMax zstdWindowLogMax decoder with
          | .error e => .error (.unreadable s!"zstd: {e}")
          | .ok decoder => .ok (.zstd decoder)
  else if env.compression = 2 then
    match Lz4Stream.new env.body with
    | .error e => .error (.unreadable e.message)
    | .ok stream =>
        if maxDecompressed < stream.declared then .error (bodyTooLarge maxDecompressed)
        else .ok (.lz4 stream)
  else
    let c := env.compression.toNat
    .error (.unreadable s!"unknown compression byte {c}")

variable {τ ν : Type}

/-- One record: its length prefix, refused when the cap cannot hold it, then its
fields from a frame of that length, which they must use up. -/
def scanStep (r : Reader (BufReader (Capped σ))) (readOne : ReadProg τ) :
    Step (BufReader (Capped σ)) τ := fun st =>
  match readExact r 4 st with
  | (.error e, st) => (.error e, st)
  | (.ok len, st) =>
      let totalLen := leNat len
      let allowed := min (st.inner.left + st.buffer.length) u64Max
      if allowed < totalLen then
        (.error ⟨.other, "a frame longer than the cap allows"⟩,
          { st with inner := { st.inner with declared := some totalLen } })
      else
        match ReadProg.run (takeReader r) readOne ⟨st, totalLen⟩ with
        | (.error e, frame) => (.error e, frame.inner)
        | (.ok one, frame) =>
            if frame.limit ≠ 0 then
              let used := totalLen - frame.limit
              (.error ⟨.invalidData, (s!"total_len mismatch: record declared {totalLen} bytes and " ++
                s!"its fields used {used}")⟩, frame.inner)
            else (.ok one, frame.inner)

def hasInfix (needle : List Char) : List Char → Bool
  | [] => needle.isEmpty
  | c :: rest => needle.isPrefixOf (c :: rest) || hasInfix needle rest

def scanFailure (compression : UInt8) (maxDecompressed visited : Nat) (c : Capped σ)
    (e : ReadError) : ScanError :=
  match c.declared with
  | some declared =>
      .tooLarge (s!"record {visited} declares a {declared}-byte frame, past what the " ++
        s!"{maxDecompressed}-byte cap leaves")
  | none =>
      if c.exceeded then bodyTooLarge maxDecompressed
      else if c.timedOut then .timedOut s!"the deadline passed after {visited} records"
      else
        let message := e.message
        if compression = 1 ∧ hasInfix "too much memory".toList message.toList = true then
          .tooLarge s!"zstd: {message}"
        else .unreadable s!"record {visited}: {message}"

def scanLoop (r : Reader (BufReader (Capped σ))) (readOne : ReadProg τ)
    (visit : ν → τ → ν × Bool) (compression : UInt8) (maxDecompressed : Nat) :
    Nat → Nat → BufReader (Capped σ) → ν → Except ScanError Nat × ν
  | 0, visited, _, v => (.ok visited, v)
  | remaining + 1, visited, st, v =>
      match scanStep r readOne st with
      | (.error e, st) => (.error (scanFailure compression maxDecompressed visited st.inner e), v)
      | (.ok record, st) =>
          match visit v record with
          | (v, false) => (.ok (visited + 1), v)
          | (v, true) =>
              scanLoop r readOne visit compression maxDecompressed remaining (visited + 1) st v

def scanRecords (zstd : ZstdStream ζ) (now : Nat → Nat) (bytes : List UInt8) (limits : ScanLimits)
    (readOne : ReadProg τ) (visit : ν → τ → ν × Bool) (v : ν) : Except ScanError Nat × ν :=
  match scanEnvelope bytes with
  | .error e => (.error e, v)
  | .ok env =>
      match openBody zstd env limits.maxDecompressed with
      | .error e => (.error e, v)
      | .ok stream =>
          let capped : Capped (BodyStream ζ) :=
            { inner := stream, left := limits.maxDecompressed, exceeded := false, timedOut := false
              declared := none, tick := 0 }
          scanLoop (scanReader (bodyReader zstd) limits.deadline now) readOne visit env.compression
            limits.maxDecompressed env.recordCount 0 ⟨capped, []⟩ v

end Stream

structure RecordDigest where
  offset : Int
  timestamp : Int
  digest : Digest
  /-- The value of the record's last header of the asked name, when it is
  exactly 8 bytes. -/
  kept : Option (List UInt8)
deriving DecidableEq, Repr

def frameI64 : ReadProg Int := do
  let bytes ← ReadProg.readExact 8
  return signed 64 (leNat bytes)

def frameI32 : ReadProg Int := do
  let bytes ← ReadProg.readExact 4
  return signed 32 (leNat bytes)

def frameU16 : ReadProg Nat := do
  let bytes ← ReadProg.readExact 2
  return leNat bytes

def digestChunk : Nat := 16 * 1024

/-- Feeds `left` bytes of the frame a chunk at a time; each turn takes a byte,
so `left` turns are enough. -/
def digestChunks : Nat → Nat → OrderedDigest → ReadProg OrderedDigest
  | 0, _, d => pure d
  | turns + 1, left, d =>
      if left = 0 then pure d
      else do
        let n := min left digestChunk
        let chunk ← ReadProg.readExact n
        digestChunks turns (left - n) (d.bytes chunk)

def digestField (d : OrderedDigest) (len : Int) : ReadProg OrderedDigest :=
  if len < 0 then pure (d.length none)
  else digestChunks len.toNat len.toNat (d.length (some len.toNat))

def digestHeaders (keep : String) : Nat → OrderedDigest → Option (List UInt8) →
    ReadProg (OrderedDigest × Option (List UInt8))
  | 0, d, kept => pure (d, kept)
  | n + 1, d, kept => do
      let hkLen ← frameU16
      let hk ← ReadProg.readExact hkLen
      let hk := fromUtf8Lossy hk
      let d := d.part (some (strBytes hk))
      let hvLen ← frameI32
      if hk = keep then
        if hvLen = 8 then do
          let v ← ReadProg.readExact 8
          digestHeaders keep n (d.part (some v)) (some v)
        else do
          let d ← digestField d hvLen
          digestHeaders keep n d none
      else do
        let d ← digestField d hvLen
        digestHeaders keep n d kept

def readDigestRecord (sha256 : List UInt8 → Digest) (keep : String) : ReadProg RecordDigest := do
  let timestamp ← frameI64
  let offset ← frameI64
  let keyLen ← frameI32
  let d ← digestField .new keyLen
  let valueLen ← frameI32
  let d ← digestField d valueLen
  let headerCount ← frameU16
  let (d, kept) ← digestHeaders keep headerCount (d.count headerCount) none
  return { offset, timestamp, digest := d.finish sha256 timestamp, kept }

def digestSegment {ζ ν : Type} (sha256 : List UInt8 → Digest) (zstd : ZstdStream ζ)
    (now : Nat → Nat) (bytes : List UInt8) (limits : ScanLimits) (keep : String)
    (visit : ν → RecordDigest → ν × Bool) (v : ν) : Except ScanError Nat × ν :=
  scanRecords zstd now bytes limits (readDigestRecord sha256 keep) visit v

end Logweir.Kbak
