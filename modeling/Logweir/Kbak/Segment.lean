import Logweir.Kafka.Fingerprint

/-!
# KBAK v1 segments

`logweir_engine_oso::kbak::decode_segment`, the plain decoder: a 32-byte header,
the records (compressed as the header says), a CRC32 and an end magic.  Every
length is checked against the bytes there are before it is used.  The two
decompressors are parameters; what they answer for a body is all the decoder
reads of them.
-/

set_option autoImplicit false

namespace Logweir.Kbak

open Logweir.Fingerprint

def magic : List UInt8 := [0x4B, 0x42, 0x41, 0x4B]
def magicEnd : List UInt8 := [0x42, 0x4B, 0x41, 0x45]
def headerSize : Nat := 32
def footerSize : Nat := 8
def zstdMagic : List UInt8 := [0x28, 0xB5, 0x2F, 0xFD]

/-- The least a record takes: its length prefix and a frame with a null key, a
null value and no header. -/
def minRecordSize : Nat := 4 + 8 + 8 + 4 + 4 + 2

def maxLz4DecompressedBytes : Nat := 2 ^ 30

inductive EngineError where
  | unsupported (message : String)
deriving DecidableEq, Repr

def err (m : String) : EngineError := .unsupported m

structure ArchivedRecord where
  offset : Int
  timestamp : Int
  key : Option (List UInt8)
  value : Option (List UInt8)
  headers : List Header
deriving DecidableEq, Repr

def leNat : List UInt8 → Nat
  | [] => 0
  | b :: rest => b.toNat + 256 * leNat rest

def signed (w n : Nat) : Int := if n < 2 ^ (w - 1) then (n : Int) else (n : Int) - 2 ^ w

theorem leNat_lt (bytes : List UInt8) : leNat bytes < 256 ^ bytes.length := by
  induction bytes with
  | nil => simp [leNat]
  | cons b rest ih =>
      have small := b.toNat_lt
      simp only [leNat, List.length_cons, Nat.pow_succ]
      omega

def crc32Bits : Nat → Nat → Nat
  | 0, crc => crc
  | k + 1, crc => crc32Bits k (if crc % 2 = 1 then (crc / 2) ^^^ 0xEDB88320 else crc / 2)

def crc32 (bytes : List UInt8) : Nat :=
  (bytes.foldl (fun crc b => crc32Bits 8 (crc ^^^ b.toNat)) 0xFFFFFFFF) ^^^ 0xFFFFFFFF

/-- `{:#x}`. -/
def hex (n : Nat) : String := "0x" ++ String.ofList (Nat.toDigits 16 n)

/-- A UTF-8 sequence begun and not ended: the scalar so far, how many bytes are
due, and the range the next one must lie in. -/
structure Utf8Partial where
  scalar : Nat
  due : Nat
  low : Nat
  high : Nat
deriving DecidableEq, Repr

def replacement : Char := Char.ofNat 0xFFFD

/-- A byte where a sequence may begin: a whole character, the start of one, or
no UTF-8 at all. -/
def utf8Start (b : Nat) : Char ⊕ Utf8Partial :=
  if b < 0x80 then .inl (Char.ofNat b)
  else if 0xC2 ≤ b ∧ b ≤ 0xDF then .inr ⟨b - 0xC0, 1, 0x80, 0xBF⟩
  else if b = 0xE0 then .inr ⟨0, 2, 0xA0, 0xBF⟩
  else if b = 0xED then .inr ⟨0xD, 2, 0x80, 0x9F⟩
  else if 0xE1 ≤ b ∧ b ≤ 0xEF then .inr ⟨b - 0xE0, 2, 0x80, 0xBF⟩
  else if b = 0xF0 then .inr ⟨0, 3, 0x90, 0xBF⟩
  else if 0xF1 ≤ b ∧ b ≤ 0xF3 then .inr ⟨b - 0xF0, 3, 0x80, 0xBF⟩
  else if b = 0xF4 then .inr ⟨4, 3, 0x80, 0x8F⟩
  else .inl replacement

def lossyChars : List UInt8 → Option Utf8Partial → List Char
  | [], none => []
  | [], some _ => [replacement]
  | b :: rest, none =>
      match utf8Start b.toNat with
      | .inl c => c :: lossyChars rest none
      | .inr p => lossyChars rest (some p)
  | b :: rest, some p =>
      if p.low ≤ b.toNat ∧ b.toNat ≤ p.high then
        let scalar := p.scalar * 64 + b.toNat % 64
        if p.due = 1 then Char.ofNat scalar :: lossyChars rest none
        else lossyChars rest (some ⟨scalar, p.due - 1, 0x80, 0xBF⟩)
      else
        replacement ::
          match utf8Start b.toNat with
          | .inl c => c :: lossyChars rest none
          | .inr q => lossyChars rest (some q)

def fromUtf8Lossy (bytes : List UInt8) : String := String.ofList (lossyChars bytes none)

/-- An ill-formed start, a sequence cut short and a surrogate, as the standard
library presents them. -/
example : fromUtf8Lossy [0x61, 0xFF, 0xE2, 0x82, 0x62, 0xED, 0xA0, 0xC3, 0xA9] =
    "a\uFFFD\uFFFDb\uFFFD\uFFFDé" := by decide

structure Codecs where
  zstdDecodeAll : List UInt8 → Except String (List UInt8)
  lz4DecompressSizePrepended : List UInt8 → Except String (List UInt8)

structure Envelope where
  compression : UInt8
  recordCount : Nat
  body : List UInt8
deriving DecidableEq, Repr

def byteAt (bytes : List UInt8) (i : Nat) : UInt8 := (bytes[i]?).getD 0

def slice (bytes : List UInt8) (start stop : Nat) : List UInt8 := (bytes.take stop).drop start

/-- The checks `decode_segment` makes before it reads the body. -/
def decodeEnvelope (bytes : List UInt8) : Except EngineError Envelope :=
  if bytes.head? = some 0x5B ∨ bytes.head? = some 0x7B then
    .error (err "legacy JSON segment: byte fingerprints unavailable")
  else if zstdMagic.isPrefixOf bytes then
    .error (err ("possible zstd-compressed legacy JSON segment (zstd frame magic 28 b5 2f fd): " ++
      "decode_segment cannot decompress this without the object key's compression extension"))
  else if bytes.length < headerSize + footerSize then
    .error (err "segment shorter than header+footer")
  else if bytes.take 4 ≠ magic then
    .error (err ("bad magic: not a KBAK segment (if this is an lz4-compressed legacy JSON segment, " ++
      "its codec cannot be told from bytes alone — upstream selects it from the object " ++
      "key's .lz4 extension, which decode_segment does not receive)"))
  else if byteAt bytes 4 ≠ 1 then
    let version := (byteAt bytes 4).toNat
    .error (err s!"KBAK version {version} is not v1")
  else
    let tail := bytes.length - footerSize
    if bytes.drop (tail + 4) ≠ magicEnd then .error (err "bad end magic: truncated segment")
    else
      let want := leNat (slice bytes tail (tail + 4))
      let got := crc32 (bytes.take tail)
      if want ≠ got then .error (err s!"CRC32 mismatch: {hex got} != {hex want}")
      else
        .ok { compression := byteAt bytes 5
              recordCount := leNat (slice bytes 8 16)
              body := slice bytes headerSize tail }

def checkedLz4Decompress (codecs : Codecs) (body : List UInt8) : Except EngineError (List UInt8) :=
  if body.length < 4 then .error (err "lz4: missing the 4-byte prepended size")
  else
    let declared := leNat (body.take 4)
    if maxLz4DecompressedBytes < declared then
      .error (err (s!"lz4: declared decompressed size {declared} exceeds the " ++
        s!"{maxLz4DecompressedBytes}-byte cap"))
    else
      match codecs.lz4DecompressSizePrepended body with
      | .error e => .error (err s!"lz4: {e}")
      | .ok out => .ok out

def decodeBody (codecs : Codecs) (env : Envelope) : Except EngineError (List UInt8) :=
  if env.compression = 0 then .ok env.body
  else if env.compression = 1 then
    match codecs.zstdDecodeAll env.body with
    | .error e => .error (err s!"zstd: {e}")
    | .ok out => .ok out
  else if env.compression = 2 then checkedLz4Decompress codecs env.body
  else
    let c := env.compression.toNat
    .error (err s!"unknown compression byte {c}")

def readFixed (what : String) (n : Nat) (c : List UInt8) : Except EngineError (Nat × List UInt8) :=
  if c.length < n then .error (err s!"{what}: failed to fill whole buffer")
  else .ok (leNat (c.take n), c.drop n)

def readI64 (what : String) (c : List UInt8) : Except EngineError (Int × List UInt8) := do
  let (n, c) ← readFixed what 8 c
  return (signed 64 n, c)

def readI32 (what : String) (c : List UInt8) : Except EngineError (Int × List UInt8) := do
  let (n, c) ← readFixed what 4 c
  return (signed 32 n, c)

def readU16 (what : String) (c : List UInt8) : Except EngineError (Nat × List UInt8) :=
  readFixed what 2 c

def take (c : List UInt8) (len : Nat) (what : String) :
    Except EngineError (List UInt8 × List UInt8) :=
  let remaining := c.length
  if remaining < len then
    .error (err s!"{what}: length {len} exceeds the {remaining} bytes remaining in the record")
  else .ok (c.take len, c.drop len)

def optBytes (c : List UInt8) (len : Int) (what : String) :
    Except EngineError (Option (List UInt8) × List UInt8) :=
  if len < 0 then .ok (none, c)
  else do
    let (bytes, c) ← take c len.toNat what
    return (some bytes, c)

def readHeaders : Nat → List UInt8 → Except EngineError (List Header × List UInt8)
  | 0, c => .ok ([], c)
  | n + 1, c => do
      let (hkLen, c) ← readU16 "hkey_len" c
      let (hk, c) ← take c hkLen "hkey"
      let (hvLen, c) ← readI32 "hval_len" c
      let (hv, c) ← optBytes c hvLen "hval"
      let (more, c) ← readHeaders n c
      return ((fromUtf8Lossy hk, hv) :: more, c)

def readFields (frame : List UInt8) : Except EngineError (ArchivedRecord × List UInt8) := do
  let (timestamp, c) ← readI64 "timestamp" frame
  let (offset, c) ← readI64 "offset" c
  let (keyLen, c) ← readI32 "key_len" c
  let (key, c) ← optBytes c keyLen "key"
  let (valueLen, c) ← readI32 "value_len" c
  let (value, c) ← optBytes c valueLen "value"
  let (headerCount, c) ← readU16 "header_count" c
  let (headers, c) ← readHeaders headerCount c
  return ({ offset, timestamp, key, value, headers }, c)

def readRecord (frame : List UInt8) : Except EngineError ArchivedRecord := do
  let (r, c) ← readFields frame
  let totalLen := frame.length
  let consumed := totalLen - c.length
  if consumed ≠ totalLen then
    .error (err (s!"total_len mismatch: record declared {totalLen} bytes but its fields used " ++
      s!"{consumed}"))
  else .ok r

def decodeRecords : Nat → List UInt8 → Except EngineError (List ArchivedRecord)
  | 0, _ => .ok []
  | n + 1, rest =>
      if rest.length < 4 then
        .error (err "total_len: not enough bytes remaining for the length prefix")
      else
        let totalLen := leNat (rest.take 4)
        let rest := rest.drop 4
        if rest.length < totalLen then
          let remaining := rest.length
          .error (err s!"total_len {totalLen} exceeds the {remaining} bytes remaining in the segment")
        else do
          let r ← readRecord (rest.take totalLen)
          let more ← decodeRecords n (rest.drop totalLen)
          return r :: more

def decodeSegment (codecs : Codecs) (bytes : List UInt8) :
    Except EngineError (List ArchivedRecord) := do
  let env ← decodeEnvelope bytes
  let body ← decodeBody codecs env
  let maxRecords := body.length / minRecordSize
  if maxRecords < env.recordCount then
    let held := body.length
    let raw := env.recordCount
    .error (err (s!"record_count {raw} exceeds what {held} decompressed bytes could contain " ++
      s!"(max {maxRecords})"))
  else decodeRecords env.recordCount body

end Logweir.Kbak
