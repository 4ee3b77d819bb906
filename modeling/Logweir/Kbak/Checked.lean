import Logweir.Kbak.Encode
import Logweir.Library.Checked

/-!
# The decoder's indexing and allocation

`decode_segment` as it moves through its bytes: each slice, index and subtraction that would
panic out of its bounds, and each size it asks the allocator for.  It follows the plain
decoder and never panics.  One size is not checked against the bytes there are: a record's
`header_count`.
-/

set_option autoImplicit false

namespace Logweir.Kbak

open Logweir.Fingerprint
open Logweir.Checked (Run Outcome Follows Agrees)

structure Cursor where
  frame : List UInt8
  position : Nat

namespace Cursor

def rest (c : Cursor) : List UInt8 := c.frame.drop c.position

def readFixed (what : String) (n : Nat) (c : Cursor) : Run EngineError (Nat × Cursor) :=
  if c.frame.length < c.position + n then .fail (err s!"{what}: failed to fill whole buffer")
  else pure (leNat (c.rest.take n), { c with position := c.position + n })

def readI64 (what : String) (c : Cursor) : Run EngineError (Int × Cursor) := do
  let (n, c) ← c.readFixed what 8
  return (signed 64 n, c)

def readI32 (what : String) (c : Cursor) : Run EngineError (Int × Cursor) := do
  let (n, c) ← c.readFixed what 4
  return (signed 32 n, c)

def readU16 (what : String) (c : Cursor) : Run EngineError (Nat × Cursor) := c.readFixed what 2

def take (c : Cursor) (len : Nat) (what : String) : Run EngineError (List UInt8 × Cursor) := do
  let remaining ← .sub c.frame.length c.position
  if remaining < len then
    .fail (err s!"{what}: length {len} exceeds the {remaining} bytes remaining in the record")
  else
    .alloc len
    return (c.rest.take len, { c with position := c.position + len })

def optBytes (c : Cursor) (len : Int) (what : String) :
    Run EngineError (Option (List UInt8) × Cursor) :=
  if len < 0 then pure (none, c)
  else do
    let (bytes, c) ← c.take len.toNat what
    return (some bytes, c)

def readHeaders : Nat → Cursor → Run EngineError (List Header × Cursor)
  | 0, c => pure ([], c)
  | n + 1, c => do
      let (hkLen, c) ← c.readU16 "hkey_len"
      let (hk, c) ← c.take hkLen "hkey"
      let (hvLen, c) ← c.readI32 "hval_len"
      let (hv, c) ← c.optBytes hvLen "hval"
      let (more, c) ← readHeaders n c
      return ((fromUtf8Lossy hk, hv) :: more, c)

end Cursor

structure Preamble where
  timestamp : Int
  offset : Int
  key : Option (List UInt8)
  value : Option (List UInt8)
  headerCount : Nat

def readPreamble (c : Cursor) : Run EngineError (Preamble × Cursor) := do
  let (timestamp, c) ← c.readI64 "timestamp"
  let (offset, c) ← c.readI64 "offset"
  let (keyLen, c) ← c.readI32 "key_len"
  let (key, c) ← c.optBytes keyLen "key"
  let (valueLen, c) ← c.readI32 "value_len"
  let (value, c) ← c.optBytes valueLen "value"
  let (headerCount, c) ← c.readU16 "header_count"
  return ({ timestamp, offset, key, value, headerCount }, c)

def readRecordChecked (frame : List UInt8) (totalLen : Nat) : Run EngineError ArchivedRecord := do
  let (p, c) ← readPreamble ⟨frame, 0⟩
  .alloc p.headerCount
  let (headers, c) ← c.readHeaders p.headerCount
  let consumed := c.position
  if consumed ≠ totalLen then
    .fail (err (s!"total_len mismatch: record declared {totalLen} bytes but its fields used " ++
      s!"{consumed}"))
  else
    return { offset := p.offset, timestamp := p.timestamp, key := p.key, value := p.value, headers }

def decodeRecordsChecked (body : List UInt8) : Nat → Nat → Run EngineError (List ArchivedRecord)
  | 0, _ => pure []
  | n + 1, pos => do
      let remaining ← .sub body.length pos
      if remaining < 4 then
        .fail (err "total_len: not enough bytes remaining for the length prefix")
      else
        let len ← .range body pos (pos + 4)
        let totalLen := leNat len
        let pos := pos + 4
        let remaining ← .sub body.length pos
        if remaining < totalLen then
          .fail (err s!"total_len {totalLen} exceeds the {remaining} bytes remaining in the segment")
        else
          let frame ← .range body pos (pos + totalLen)
          let r ← readRecordChecked frame totalLen
          let more ← decodeRecordsChecked body n (pos + totalLen)
          return r :: more

def checkedLz4 (codecs : Codecs) (body : List UInt8) : Run EngineError (List UInt8) :=
  if body.length < 4 then .fail (err "lz4: missing the 4-byte prepended size")
  else do
    let size ← .range body 0 4
    let declared := leNat size
    if maxLz4DecompressedBytes < declared then
      .fail (err (s!"lz4: declared decompressed size {declared} exceeds the " ++
        s!"{maxLz4DecompressedBytes}-byte cap"))
    else
      match codecs.lz4DecompressSizePrepended body with
      | .error e => .fail (err s!"lz4: {e}")
      | .ok out => pure out

def decodeBodyChecked (codecs : Codecs) (env : Envelope) : Run EngineError (List UInt8) :=
  if env.compression = 0 then do
    .alloc env.body.length
    return env.body
  else if env.compression = 1 then
    match codecs.zstdDecodeAll env.body with
    | .error e => .fail (err s!"zstd: {e}")
    | .ok out => pure out
  else if env.compression = 2 then checkedLz4 codecs env.body
  else
    let c := env.compression.toNat
    .fail (err s!"unknown compression byte {c}")

def decodeEnvelopeChecked (bytes : List UInt8) : Run EngineError Envelope :=
  if bytes.head? = some 0x5B ∨ bytes.head? = some 0x7B then
    .fail (err "legacy JSON segment: byte fingerprints unavailable")
  else if zstdMagic.isPrefixOf bytes then
    .fail (err ("possible zstd-compressed legacy JSON segment (zstd frame magic 28 b5 2f fd): " ++
      "decode_segment cannot decompress this without the object key's compression extension"))
  else if bytes.length < headerSize + footerSize then
    .fail (err "segment shorter than header+footer")
  else do
    let first ← .range bytes 0 4
    if first ≠ magic then
      .fail (err ("bad magic: not a KBAK segment (if this is an lz4-compressed legacy JSON segment, " ++
        "its codec cannot be told from bytes alone — upstream selects it from the object " ++
        "key's .lz4 extension, which decode_segment does not receive)"))
    else
      let version ← .index bytes 4
      if version ≠ 1 then
        let version := version.toNat
        .fail (err s!"KBAK version {version} is not v1")
      else
        let compression ← .index bytes 5
        let count ← .range bytes 8 16
        let tail ← .sub bytes.length footerSize
        let ending ← .range bytes (tail + 4) bytes.length
        if ending ≠ magicEnd then .fail (err "bad end magic: truncated segment")
        else
          let stored ← .range bytes tail (tail + 4)
          let covered ← .range bytes 0 tail
          let want := leNat stored
          let got := crc32 covered
          if want ≠ got then .fail (err s!"CRC32 mismatch: {hex got} != {hex want}")
          else
            let body ← .range bytes headerSize tail
            return { compression, recordCount := leNat count, body }

def decodeSegmentChecked (codecs : Codecs) (bytes : List UInt8) :
    Run EngineError (List ArchivedRecord) := do
  let env ← decodeEnvelopeChecked bytes
  let body ← decodeBodyChecked codecs env
  let maxRecords := body.length / minRecordSize
  if maxRecords < env.recordCount then
    let held := body.length
    let raw := env.recordCount
    .fail (err (s!"record_count {raw} exceeds what {held} decompressed bytes could contain " ++
      s!"(max {maxRecords})"))
  else
    .alloc env.recordCount
    decodeRecordsChecked body env.recordCount 0

end Logweir.Kbak
