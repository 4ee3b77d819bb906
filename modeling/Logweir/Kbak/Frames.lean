import Logweir.Kbak.Scan
import Logweir.Library.Results

/-!
# The two record parsers over bytes

Both parsers are brought to one reading of the body as a list of frames: over a
frame's bytes the digest program answers the digest of the record the plain
decoder reads, and fails where it fails.
-/

set_option autoImplicit false

namespace Logweir.Kbak

open Logweir.ByteStream Logweir.Fingerprint Logweir.Results

theorem readFixed_toOption (what : String) (n : Nat) (c : List UInt8) :
    (readFixed what n c).toOption =
      if n ≤ c.length then some (leNat (c.take n), c.drop n) else none := by
  unfold readFixed
  by_cases short : c.length < n
  · rw [if_pos short, if_neg (by omega)]
    rfl
  · rw [if_neg short, if_pos (by omega)]
    rfl

theorem readI64_toOption (what : String) (c : List UInt8) :
    (readI64 what c).toOption = frameI64.parse c := by
  simp only [frameI64, readI64, ReadProg.parse_bind, ReadProg.parse_readExact, toOption_bind,
    readFixed_toOption]
  split <;> rfl

theorem readI32_toOption (what : String) (c : List UInt8) :
    (readI32 what c).toOption = frameI32.parse c := by
  simp only [frameI32, readI32, ReadProg.parse_bind, ReadProg.parse_readExact, toOption_bind,
    readFixed_toOption]
  split <;> rfl

theorem readU16_toOption (what : String) (c : List UInt8) :
    (readU16 what c).toOption = frameU16.parse c := by
  simp only [frameU16, readU16, ReadProg.parse_bind, ReadProg.parse_readExact, readFixed_toOption]
  split <;> rfl

theorem take_toOption (what : String) (c : List UInt8) (len : Nat) :
    (take c len what).toOption = (ReadProg.readExact len).parse c := by
  simp only [ReadProg.parse_readExact, take]
  by_cases short : c.length < len
  · rw [if_pos short, if_neg (by omega)]
    rfl
  · rw [if_neg short, if_pos (by omega)]
    rfl

def field (c : List UInt8) (len : Int) : Option (Option (List UInt8) × List UInt8) :=
  (optBytes c len "field").toOption

theorem optBytes_toOption (what : String) (c : List UInt8) (len : Int) :
    (optBytes c len what).toOption = field c len := by
  unfold field optBytes
  split
  · rfl
  · simp only [toOption_bind, take_toOption]

theorem parse_digestChunks : ∀ (turns left : Nat) (d : OrderedDigest) (c : List UInt8),
    left ≤ turns → (digestChunks turns left d).parse c =
      if left ≤ c.length then some (d.bytes (c.take left), c.drop left) else none := by
  intro turns
  induction turns with
  | zero =>
      intro left d c enough
      have none : left = 0 := by omega
      simp [digestChunks, none]
  | succ turns ih =>
      intro left d c enough
      unfold digestChunks
      by_cases none : left = 0
      · simp [none]
      · simp only [if_neg none, ReadProg.parse_bind, ReadProg.parse_readExact]
        by_cases first : min left digestChunk ≤ c.length
        · simp only [if_pos first, Option.bind_some]
          rw [ih _ _ _ (by simp only [digestChunk]; omega)]
          by_cases whole : left ≤ c.length
          · rw [if_pos (by simp only [List.length_drop]; omega), if_pos whole, OrderedDigest.bytes_bytes,
              ← List.take_add, List.drop_drop]
            have total : min left digestChunk + (left - min left digestChunk) = left := by omega
            rw [total]
          · rw [if_neg (by simp only [List.length_drop]; omega), if_neg whole]
        · rw [if_neg first, if_neg (by omega)]
          rfl

theorem parse_digestField (d : OrderedDigest) (len : Int) (c : List UInt8) :
    (digestField d len).parse c = (field c len).map fun (bytes, rest) => (d.part bytes, rest) := by
  unfold digestField field optBytes
  by_cases null : len < 0
  · rw [if_pos null, if_pos null]
    rfl
  · rw [if_neg null, if_neg null, parse_digestChunks _ _ _ _ (Nat.le_refl _), toOption_bind,
      take_toOption, ReadProg.parse_readExact]
    by_cases available : len.toNat ≤ c.length
    · rw [if_pos available, if_pos available]
      have size : (c.take len.toNat).length = len.toNat := by
        rw [List.length_take]
        omega
      simp [OrderedDigest.part, size, toOption_pure]
    · rw [if_neg available, if_neg available]
      rfl

def feedHeader (d : OrderedDigest) (h : Header) : OrderedDigest :=
  (d.part (some (strBytes h.1))).part h.2

def keepHeader (keep : String) (kept : Option (List UInt8)) (h : Header) : Option (List UInt8) :=
  if h.1 = keep then h.2.filter fun v => v.length == 8 else kept

theorem field_length (c rest v : List UInt8) (len : Int)
    (read : field c len = some (some v, rest)) : (v.length : Int) = len := by
  unfold field optBytes at read
  split at read
  · cases read
  · rename_i positive
    rw [toOption_bind, take_toOption, ReadProg.parse_readExact] at read
    split at read
    · rename_i available
      simp only [Option.bind_some, toOption_pure, Option.some.injEq, Prod.mk.injEq] at read
      rw [← read.1, List.length_take]
      omega
    · cases read

theorem parse_headerValue {α : Type} (keep hk : String) (d : OrderedDigest)
    (kept : Option (List UInt8)) (hvLen : Int) (c : List UInt8)
    (next : OrderedDigest → Option (List UInt8) → ReadProg α) :
    (if hk = keep then
        if hvLen = 8 then do
          let v ← ReadProg.readExact 8
          next (d.part (some v)) (some v)
        else do
          let d ← digestField d hvLen
          next d none
      else do
        let d ← digestField d hvLen
        next d kept).parse c =
      (field c hvLen).bind fun (hv, rest) =>
        (next (d.part hv) (keepHeader keep kept (hk, hv))).parse rest := by
  by_cases named : hk = keep
  · by_cases eight : hvLen = 8
    · subst eight
      simp only [if_pos named, if_true, ReadProg.parse_bind]
      have whole : field c 8 =
          ((ReadProg.readExact 8).parse c).map (Prod.map some id) := by
        rw [← take_toOption "field", field, optBytes, if_neg (by decide), toOption_bind]
        change (take c 8 "field").toOption.bind _ = _
        cases (take c 8 "field").toOption <;> rfl
      rw [whole]
      cases read : (ReadProg.readExact 8).parse c with
      | none => rfl
      | some got =>
          obtain ⟨v, rest⟩ := got
          rw [read, Option.map_some] at whole
          have size := field_length c rest v 8 whole
          have size : v.length = 8 := by omega
          simp [keepHeader, named, size, Option.filter]
    · simp only [if_pos named, if_neg eight, ReadProg.parse_bind, parse_digestField]
      cases read : field c hvLen with
      | none => rfl
      | some got =>
          obtain ⟨hv, rest⟩ := got
          cases hv with
          | none => simp [keepHeader, named]
          | some v =>
              have size := field_length c rest v hvLen read
              have size : v.length ≠ 8 := by omega
              simp [keepHeader, named, size, Option.filter]
  · simp only [if_neg named, ReadProg.parse_bind, parse_digestField]
    cases field c hvLen with
    | none => rfl
    | some got => simp [keepHeader, named]

theorem parse_digestHeaders (keep : String) : ∀ (n : Nat) (d : OrderedDigest)
    (kept : Option (List UInt8)) (c : List UInt8),
    (digestHeaders keep n d kept).parse c = (readHeaders n c).toOption.map fun (headers, rest) =>
      ((headers.foldl feedHeader d, headers.foldl (keepHeader keep) kept), rest) := by
  intro n
  induction n with
  | zero => exact fun d kept c => rfl
  | succ n ih =>
      intro d kept c
      simp only [digestHeaders, readHeaders, ReadProg.parse_bind, toOption_bind, readU16_toOption,
        take_toOption, readI32_toOption, optBytes_toOption]
      apply bind_map_ext
      rintro ⟨hkLen, c⟩
      apply bind_map_ext
      rintro ⟨hk, c⟩
      apply bind_map_ext
      rintro ⟨hvLen, c⟩
      rw [parse_headerValue keep _ _ kept hvLen c (digestHeaders keep n)]
      apply bind_map_ext
      rintro ⟨hv, c⟩
      simp only [ih]
      cases (readHeaders n c).toOption <;> rfl

theorem readHeaders_length : ∀ (n : Nat) (c rest : List UInt8) (headers : List Header),
    (readHeaders n c).toOption = some (headers, rest) → headers.length = n := by
  intro n
  induction n with
  | zero =>
      intro c rest headers read
      cases read
      rfl
  | succ n ih =>
      intro c rest headers read
      simp only [readHeaders, toOption_bind, Option.bind_eq_some_iff, toOption_pure,
        Option.some.injEq, Prod.mk.injEq] at read
      obtain ⟨_, _, _, _, _, _, _, _, ⟨more, c'⟩, tail, rfl, _⟩ := read
      rw [List.length_cons, ih _ _ _ tail]

def keptOf (keep : String) (headers : List Header) : Option (List UInt8) :=
  match headers.reverse.find? fun h => h.1 == keep with
  | some h => h.2.filter fun v => v.length == 8
  | none => none

def digestOf (sha256 : List UInt8 → Digest) (keep : String) (r : ArchivedRecord) : RecordDigest where
  offset := r.offset
  timestamp := r.timestamp
  digest := recordDigestOrdered sha256 r.key r.value r.headers r.timestamp
  kept := keptOf keep r.headers

theorem keepHeader_fold (keep : String) : ∀ (headers : List Header) (kept : Option (List UInt8)),
    headers.foldl (keepHeader keep) kept =
      match headers.reverse.find? fun h => h.1 == keep with
      | some h => h.2.filter fun v => v.length == 8
      | none => kept := by
  intro headers
  induction headers with
  | nil => exact fun kept => rfl
  | cons h headers ih =>
      intro kept
      rw [List.foldl_cons, ih, List.reverse_cons, List.find?_append]
      cases headers.reverse.find? fun h => h.1 == keep with
      | some last => rfl
      | none => by_cases named : h.1 = keep <;> simp [keepHeader, named]

theorem parse_digestRecord (sha256 : List UInt8 → Digest) (keep : String) (frame : List UInt8) :
    (readDigestRecord sha256 keep).parse frame =
      (readFields frame).toOption.map fun (r, rest) => (digestOf sha256 keep r, rest) := by
  simp only [readDigestRecord, readFields, ReadProg.parse_bind, toOption_bind, readI64_toOption,
    readI32_toOption, readU16_toOption, optBytes_toOption, parse_digestField, parse_digestHeaders,
    Option.bind_map]
  apply bind_map_ext
  rintro ⟨timestamp, c⟩
  apply bind_map_ext
  rintro ⟨offset, c⟩
  apply bind_map_ext
  rintro ⟨keyLen, c⟩
  apply bind_map_ext
  rintro ⟨key, c⟩
  apply bind_map_ext
  rintro ⟨valueLen, c⟩
  apply bind_map_ext
  rintro ⟨value, c⟩
  apply bind_map_ext
  rintro ⟨headerCount, c⟩
  cases read : (readHeaders headerCount c).toOption with
  | none => rfl
  | some got =>
      obtain ⟨headers, rest⟩ := got
      have size := readHeaders_length headerCount c rest headers read
      simp only [Option.bind_some, ReadProg.parse_pure, toOption_pure, Option.map_some, digestOf,
        recordDigestOrdered, orderedParts, keepHeader_fold, keptOf, size]
      rfl

def parseFrames {τ : Type} (readOne : ReadProg τ) : Nat → List UInt8 → Option (List τ)
  | 0, _ => some []
  | n + 1, rest =>
      let totalLen := leNat (rest.take 4)
      let frames := rest.drop 4
      if rest.length < 4 ∨ frames.length < totalLen then none
      else
        match readOne.parse (frames.take totalLen) with
        | some (one, []) => (parseFrames readOne n (frames.drop totalLen)).map fun more => one :: more
        | _ => none

theorem parse_fixed_length {α : Type} (n : Nat) (f : List UInt8 → α) (c rest : List UInt8) (a : α)
    (read : ((ReadProg.readExact n) >>= fun bytes => pure (f bytes)).parse c = some (a, rest)) :
    c.length = rest.length + n := by
  simp only [ReadProg.parse_bind, ReadProg.parse_readExact] at read
  split at read
  · simp only [Option.bind_some, ReadProg.parse_pure, Option.some.injEq, Prod.mk.injEq] at read
    rw [← read.2, List.length_drop]
    omega
  · cases read

theorem field_shorter (c rest : List UInt8) (len : Int) (v : Option (List UInt8))
    (read : field c len = some (v, rest)) : rest.length ≤ c.length := by
  have parsed : (digestField .new len).parse c = some (OrderedDigest.new.part v, rest) := by
    rw [parse_digestField, read]
    rfl
  exact ReadProg.parse_length _ _ _ _ parsed

theorem readHeaders_shorter (n : Nat) (c rest : List UInt8) (headers : List Header)
    (read : (readHeaders n c).toOption = some (headers, rest)) : rest.length ≤ c.length := by
  have parsed := parse_digestHeaders "" n .new none c
  rw [read, Option.map_some] at parsed
  exact ReadProg.parse_length _ _ _ _ parsed

theorem readFields_length (frame rest : List UInt8) (r : ArchivedRecord)
    (read : (readFields frame).toOption = some (r, rest)) : rest.length + 26 ≤ frame.length := by
  simp only [readFields, toOption_bind, readI64_toOption, readI32_toOption, readU16_toOption,
    optBytes_toOption, Option.bind_eq_some_iff, toOption_pure, Option.some.injEq,
    Prod.mk.injEq] at read
  obtain ⟨⟨_, c₁⟩, timestamp, ⟨_, c₂⟩, offset, ⟨_, c₃⟩, keyLen, ⟨_, c₄⟩, key, ⟨_, c₅⟩, valueLen,
    ⟨_, c₆⟩, value, ⟨_, c₇⟩, headerCount, ⟨_, c₈⟩, headers, _, rfl⟩ := read
  have := parse_fixed_length 8 _ _ _ _ timestamp
  have := parse_fixed_length 8 _ _ _ _ offset
  have := parse_fixed_length 4 _ _ _ _ keyLen
  have := field_shorter _ _ _ _ key
  have := parse_fixed_length 4 _ _ _ _ valueLen
  have := field_shorter _ _ _ _ value
  have := parse_fixed_length 2 _ _ _ _ headerCount
  have := readHeaders_shorter _ _ _ _ headers
  simp only at *
  omega

theorem readRecord_toOption (frame : List UInt8) :
    (readRecord frame).toOption =
      match (readFields frame).toOption with
      | some (r, []) => some r
      | _ => none := by
  simp only [readRecord, toOption_bind]
  cases read : (readFields frame).toOption with
  | none => rfl
  | some got =>
      obtain ⟨r, c⟩ := got
      have size := readFields_length frame c r read
      simp only [Option.bind_some]
      cases c with
      | nil => simp [Except.toOption]
      | cons b c =>
          simp only [List.length_cons] at size
          rw [if_pos (by simp only [List.length_cons]; omega)]
          rfl

theorem parseFrames_digest (sha256 : List UInt8 → Digest) (keep : String) :
    ∀ (n : Nat) (body : List UInt8), parseFrames (readDigestRecord sha256 keep) n body =
      (decodeRecords n body).toOption.map fun records => records.map (digestOf sha256 keep) := by
  intro n
  induction n with
  | zero => exact fun body => rfl
  | succ n ih =>
      intro body
      simp only [parseFrames, decodeRecords, parse_digestRecord]
      by_cases prefixed : body.length < 4
      · rw [if_pos (.inl prefixed), if_pos prefixed]
        rfl
      · rw [if_neg prefixed]
        by_cases framed : (body.drop 4).length < leNat (body.take 4)
        · rw [if_pos (.inr framed), if_pos framed]
          rfl
        · rw [if_neg (not_or.mpr ⟨prefixed, framed⟩), if_neg framed, toOption_bind,
            readRecord_toOption]
          cases (readFields ((body.drop 4).take (leNat (body.take 4)))).toOption with
          | none => rfl
          | some got =>
              obtain ⟨r, c⟩ := got
              cases c with
              | cons b c => rfl
              | nil =>
                  simp only [Option.map_some, ih, Option.bind_some, toOption_bind]
                  cases (decodeRecords n ((body.drop 4).drop (leNat (body.take 4)))).toOption <;> rfl

theorem decodeRecords_length : ∀ (n : Nat) (body : List UInt8) (records : List ArchivedRecord),
    decodeRecords n body = .ok records →
      records.length = n ∧ n * minRecordSize ≤ body.length := by
  intro n
  induction n with
  | zero =>
      intro body records decoded
      cases decoded
      exact ⟨rfl, by omega⟩
  | succ n ih =>
      intro body records decoded
      simp only [decodeRecords] at decoded
      split at decoded
      · cases decoded
      · rename_i prefixed
        split at decoded
        · cases decoded
        · rename_i framed
          obtain ⟨r, one, decoded⟩ := bind_eq_ok.mp decoded
          obtain ⟨more, tail, decoded⟩ := bind_eq_ok.mp decoded
          cases decoded
          obtain ⟨count, held⟩ := ih _ _ tail
          have fields := readRecord_toOption ((body.drop 4).take (leNat (body.take 4)))
          rw [one] at fields
          split at fields
          · rename_i r' read
            have size := readFields_length _ _ _ read
            simp only [List.length_take, List.length_drop, List.length_nil, minRecordSize] at *
            exact ⟨by rw [List.length_cons, count], by omega⟩
          · cases fields

end Logweir.Kbak
