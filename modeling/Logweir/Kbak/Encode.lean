import Logweir.Kafka.Layout

/-!
# The KBAK v1 encoding and its round trip

The documented uncompressed layout: a 32-byte header, each record behind its length, and a
footer of the CRC32 and the end magic.  `decode_segment` reads it back as the records it was
made of.
-/

set_option autoImplicit false

namespace Logweir.Kbak

open Logweir.Fingerprint

theorem strBytes_eq (s : String) : strBytes s = s.toList.flatMap String.utf8EncodeChar := by
  have encoded : s.toByteArray = s.toList.utf8Encode := by
    simp
  show s.toByteArray.data.toList = _
  rw [encoded]
  simp [List.utf8Encode]

theorem lossyChars_start {b : UInt8} {p : Utf8Partial} (rest : List UInt8)
    (begun : utf8Start b.toNat = .inr p) : lossyChars (b :: rest) none = lossyChars rest (some p) := by
  simp only [lossyChars, begun]

theorem lossyChars_more {b : UInt8} {p : Utf8Partial} (rest : List UInt8)
    (inside : p.low ≤ b.toNat ∧ b.toNat ≤ p.high) (due : p.due ≠ 1) :
    lossyChars (b :: rest) (some p) =
      lossyChars rest (some ⟨p.scalar * 64 + b.toNat % 64, p.due - 1, 0x80, 0xBF⟩) := by
  simp only [lossyChars, if_pos inside, if_neg due]

theorem lossyChars_last {b : UInt8} {p : Utf8Partial} (rest : List UInt8)
    (inside : p.low ≤ b.toNat ∧ b.toNat ≤ p.high) (due : p.due = 1) :
    lossyChars (b :: rest) (some p) =
      Char.ofNat (p.scalar * 64 + b.toNat % 64) :: lossyChars rest none := by
  simp only [lossyChars, if_pos inside, if_pos due]

theorem utf8Start_two (h : Nat) (low : 2 ≤ h) (small : h < 32) :
    utf8Start (h + 0xC0) = .inr ⟨h, 1, 0x80, 0xBF⟩ := by
  unfold utf8Start
  rw [if_neg (by omega), if_pos (by omega), Nat.add_sub_cancel]

theorem utf8Start_three (h : Nat) (small : h < 16) : utf8Start (h + 0xE0) =
    .inr ⟨h, 2, if h = 0 then 0xA0 else 0x80, if h = 13 then 0x9F else 0xBF⟩ := by
  have all : ∀ h : Fin 16, utf8Start (h.val + 0xE0) =
      .inr ⟨h.val, 2, if h.val = 0 then 0xA0 else 0x80, if h.val = 13 then 0x9F else 0xBF⟩ := by
    decide
  exact all ⟨h, small⟩

theorem utf8Start_four (h : Nat) (small : h < 5) : utf8Start (h + 0xF0) =
    .inr ⟨h, 3, if h = 0 then 0x90 else 0x80, if h = 4 then 0x8F else 0xBF⟩ := by
  have all : ∀ h : Fin 5, utf8Start (h.val + 0xF0) =
      .inr ⟨h.val, 3, if h.val = 0 then 0x90 else 0x80, if h.val = 4 then 0x8F else 0xBF⟩ := by
    decide
  exact all ⟨h, small⟩

theorem lossyChars_char (c : Char) (rest : List UInt8) :
    lossyChars (String.utf8EncodeChar c ++ rest) none = c :: lossyChars rest none := by
  have valid := c.valid
  have back : Char.ofNat c.val.toNat = c := Char.ofNat_toNat c
  simp only [UInt32.isValidChar, Nat.isValidChar] at valid
  unfold String.utf8EncodeChar
  generalize c.val.toNat = v at *
  have byte (n : Nat) (small : n < 256) : (UInt8.ofNat n).toNat = n := by
    simp only [UInt8.toNat_ofNat']
    exact Nat.mod_eq_of_lt small
  dsimp only
  split
  · simp only [List.cons_append, List.nil_append, lossyChars, byte v (by omega), utf8Start,
      if_pos (show v < 0x80 by omega), back]
  · split
    · simp only [List.cons_append, List.nil_append]
      rw [lossyChars_start _ (by rw [byte _ (by omega)]; exact utf8Start_two _ (by omega) (by omega)),
        lossyChars_last _ (by rw [byte _ (by omega)]; dsimp only; omega) rfl, byte _ (by omega)]
      have whole : v / 64 % 32 * 64 + (v % 64 + 128) % 64 = v := by omega
      rw [whole, back]
    · split
      · simp only [List.cons_append, List.nil_append]
        rw [lossyChars_start _ (by rw [byte _ (by omega)]; exact utf8Start_three _ (by omega)),
          lossyChars_more _ (by rw [byte _ (by omega)]; dsimp only; split <;> split <;> omega)
            (by simp), byte _ (by omega),
          lossyChars_last _ (by rw [byte _ (by omega)]; dsimp only; omega) rfl, byte _ (by omega)]
        have whole : (v / 4096 % 16 * 64 + (v / 64 % 64 + 128) % 64) * 64 + (v % 64 + 128) % 64 = v := by
          omega
        rw [whole, back]
      · simp only [List.cons_append, List.nil_append]
        rw [lossyChars_start _ (by rw [byte _ (by omega)]; exact utf8Start_four _ (by omega)),
          lossyChars_more _ (by rw [byte _ (by omega)]; dsimp only; split <;> split <;> omega)
            (by simp), byte _ (by omega),
          lossyChars_more _ (by rw [byte _ (by omega)]; dsimp only; omega) (by simp), byte _ (by omega),
          lossyChars_last _ (by rw [byte _ (by omega)]; dsimp only; omega) rfl, byte _ (by omega)]
        have whole : ((v / 262144 % 8 * 64 + (v / 4096 % 64 + 128) % 64) * 64 +
            (v / 64 % 64 + 128) % 64) * 64 + (v % 64 + 128) % 64 = v := by
          omega
        rw [whole, back]

theorem fromUtf8Lossy_strBytes (s : String) : fromUtf8Lossy (strBytes s) = s := by
  have chars (l : List Char) : lossyChars (l.flatMap String.utf8EncodeChar) none = l := by
    induction l with
    | nil => rfl
    | cons c l ih => rw [List.flatMap_cons, lossyChars_char, ih]
  rw [fromUtf8Lossy, strBytes_eq, chars, String.ofList_toList]

def littleEndian : Nat → Nat → List UInt8
  | 0, _ => []
  | w + 1, n => UInt8.ofNat n :: littleEndian w (n / 256)

@[simp] theorem length_littleEndian (w n : Nat) : (littleEndian w n).length = w := by
  induction w generalizing n with
  | zero => rfl
  | succ w ih => simp [littleEndian, ih]

theorem leNat_littleEndian (w n : Nat) : leNat (littleEndian w n) = n % 256 ^ w := by
  induction w generalizing n with
  | zero => simp [littleEndian, leNat, Nat.mod_one]
  | succ w ih =>
      have step := Nat.mod_mul_right_div_self n 256 (256 ^ w)
      have split := Nat.div_add_mod (n % (256 * 256 ^ w)) 256
      rw [Nat.mod_mul_right_mod] at split
      simp only [littleEndian, leNat, ih, UInt8.toNat_ofNat', Nat.pow_succ, Nat.mul_comm (256 ^ w)]
      omega

def littleSigned (w : Nat) (i : Int) : List UInt8 := littleEndian w (i % 2 ^ (8 * w)).toNat

@[simp] theorem length_littleSigned (w : Nat) (i : Int) : (littleSigned w i).length = w :=
  length_littleEndian w _

def encodeOpt : Option (List UInt8) → List UInt8
  | none => littleSigned 4 (-1)
  | some b => littleSigned 4 b.length ++ b

def encodeHeader (h : Header) : List UInt8 :=
  littleEndian 2 (strBytes h.1).length ++ (strBytes h.1 ++ encodeOpt h.2)

def encodeHeaders (headers : List Header) : List UInt8 := headers.flatMap encodeHeader

def encodeFields (r : ArchivedRecord) : List UInt8 :=
  littleSigned 8 r.timestamp ++ (littleSigned 8 r.offset ++ (encodeOpt r.key ++ (encodeOpt r.value ++
    (littleEndian 2 r.headers.length ++ encodeHeaders r.headers))))

def encodeRecord (r : ArchivedRecord) : List UInt8 :=
  littleEndian 4 (encodeFields r).length ++ encodeFields r

def encodeHead (count : Nat) (startOffset endOffset : Int) : List UInt8 :=
  magic ++ ([1, 0, 0, 0] ++ (littleEndian 8 count ++ (littleSigned 8 startOffset ++
    littleSigned 8 endOffset)))

def encodeCovered (startOffset endOffset : Int) (records : List ArchivedRecord) : List UInt8 :=
  encodeHead records.length startOffset endOffset ++ records.flatMap encodeRecord

def encodeSegment (startOffset endOffset : Int) (records : List ArchivedRecord) : List UInt8 :=
  encodeCovered startOffset endOffset records ++
    (littleEndian 4 (crc32 (encodeCovered startOffset endOffset records)) ++ magicEnd)

def FitsOpt (part : Option (List UInt8)) : Prop := ∀ b ∈ part, b.length < 2 ^ 31

def FitsKey (h : Header) : Prop := (strBytes h.1).length < 2 ^ 16 ∧ FitsOpt h.2

structure ArchivedRecord.Fits (r : ArchivedRecord) : Prop where
  offset : InI64 r.offset
  timestamp : InI64 r.timestamp
  key : FitsOpt r.key
  value : FitsOpt r.value
  headers : ∀ h ∈ r.headers, FitsKey h
  count : r.headers.length < 2 ^ 16
  frame : (encodeFields r).length < 2 ^ 32

theorem readFixed_append (what : String) (w n : Nat) (rest : List UInt8) :
    readFixed what w (littleEndian w n ++ rest) = .ok (n % 256 ^ w, rest) := by
  have size := length_littleEndian w n
  rw [readFixed, if_neg (by simp), List.take_left' size, List.drop_left' size, leNat_littleEndian]

theorem readI64_append (what : String) (i : Int) (range : InI64 i) (rest : List UInt8) :
    readI64 what (littleSigned 8 i ++ rest) = .ok (i, rest) := by
  have back : signed 64 ((i % 2 ^ (8 * 8)).toNat % 256 ^ 8) = i := by
    simp only [InI64] at range
    simp only [signed]
    split <;> omega
  simp only [readI64, littleSigned, readFixed_append, bind, Except.bind, pure, Except.pure, back]

theorem readI32_length (what : String) (n : Nat) (small : n < 2 ^ 31) (rest : List UInt8) :
    readI32 what (littleSigned 4 n ++ rest) = .ok ((n : Int), rest) := by
  have back : signed 32 (((n : Int) % 2 ^ (8 * 4)).toNat % 256 ^ 4) = n := by
    simp only [signed]
    split <;> omega
  simp only [readI32, littleSigned, readFixed_append, bind, Except.bind, pure, Except.pure, back]

theorem readI32_null (what : String) (rest : List UInt8) :
    readI32 what (littleSigned 4 (-1) ++ rest) = .ok (-1, rest) := by
  simp only [readI32, littleSigned, readFixed_append, bind, Except.bind, pure, Except.pure]
  rfl

theorem readU16_append (what : String) (n : Nat) (small : n < 2 ^ 16) (rest : List UInt8) :
    readU16 what (littleEndian 2 n ++ rest) = .ok (n, rest) := by
  rw [readU16, readFixed_append, Nat.mod_eq_of_lt (by omega)]

theorem take_append (b rest : List UInt8) (what : String) :
    take (b ++ rest) b.length what = .ok (b, rest) := by
  simp [take]

theorem optBytes_append (what whatLen : String) (part : Option (List UInt8)) (fits : FitsOpt part)
    (rest : List UInt8) :
    (readI32 whatLen (encodeOpt part ++ rest) >>= fun x => optBytes x.2 x.1 what) =
      .ok (part, rest) := by
  cases part with
  | none =>
      rw [encodeOpt, readI32_null]
      rfl
  | some b =>
      rw [encodeOpt, List.append_assoc, readI32_length _ _ (fits b rfl)]
      have present : ¬ (b.length : Int) < 0 := by omega
      show optBytes (b ++ rest) b.length what = .ok (some b, rest)
      rw [optBytes, if_neg present, Int.toNat_natCast, take_append]
      rfl

theorem readHeaders_append (headers : List Header) (fits : ∀ h ∈ headers, FitsKey h)
    (rest : List UInt8) :
    readHeaders headers.length (encodeHeaders headers ++ rest) = .ok (headers, rest) := by
  induction headers with
  | nil => rfl
  | cons h headers ih =>
      obtain ⟨key, value⟩ := fits h (by simp)
      have later := ih fun h' member => fits h' (by simp [member])
      have read := optBytes_append "hval" "hval_len" h.2 value (encodeHeaders headers ++ rest)
      have split : encodeHeaders (h :: headers) ++ rest =
          littleEndian 2 (strBytes h.1).length ++ (strBytes h.1 ++
            (encodeOpt h.2 ++ (encodeHeaders headers ++ rest))) := by
        simp [encodeHeaders, encodeHeader]
      rw [List.length_cons, readHeaders, split, readU16_append _ _ key]
      show (take _ _ "hkey" >>= _) = _
      rw [take_append]
      show (readI32 "hval_len" _ >>= _) = _
      simp only [bind, Except.bind] at read ⊢
      split at read
      · cases read
      · rename_i x got
        simp only [read, later, fromUtf8Lossy_strBytes]
        rfl

theorem readFields_encode (r : ArchivedRecord) (fits : r.Fits) :
    readFields (encodeFields r) = .ok (r, []) := by
  have headers := readHeaders_append r.headers fits.headers []
  have value := optBytes_append "value" "value_len" r.value fits.value
    (littleEndian 2 r.headers.length ++ encodeHeaders r.headers)
  have key := optBytes_append "key" "key_len" r.key fits.key
    (encodeOpt r.value ++ (littleEndian 2 r.headers.length ++ encodeHeaders r.headers))
  rw [List.append_nil] at headers
  simp only [bind, Except.bind] at key value
  split at key
  · cases key
  · rename_i gotKey
    split at value
    · cases value
    · rename_i gotValue
      simp only [readFields, encodeFields, readI64_append _ _ fits.timestamp,
        readI64_append _ _ fits.offset, bind, Except.bind, gotKey, key, gotValue, value,
        readU16_append _ _ fits.count, headers]
      rfl

theorem readRecord_encode (r : ArchivedRecord) (fits : r.Fits) :
    readRecord (encodeFields r) = .ok r := by
  rw [readRecord, readFields_encode r fits]
  show (if _ then _ else _) = _
  rw [if_neg (by simp)]

theorem decodeRecords_encode (records : List ArchivedRecord) (fits : ∀ r ∈ records, r.Fits) :
    decodeRecords records.length (records.flatMap encodeRecord) = .ok records := by
  induction records with
  | nil => rfl
  | cons r records ih =>
      have own := fits r (by simp)
      have split : (r :: records).flatMap encodeRecord =
          littleEndian 4 (encodeFields r).length ++ (encodeFields r ++ records.flatMap encodeRecord) := by
        simp [encodeRecord]
      have size := length_littleEndian 4 (encodeFields r).length
      have frame : (encodeFields r).length % 256 ^ 4 = (encodeFields r).length :=
        Nat.mod_eq_of_lt own.frame
      rw [List.length_cons, decodeRecords, split, if_neg (by simp), List.take_left' size,
        List.drop_left' size, leNat_littleEndian, frame]
      show (if _ then _ else _) = _
      rw [if_neg (by simp), List.take_left' rfl, List.drop_left' rfl, readRecord_encode r own]
      show (decodeRecords _ _ >>= _) = _
      rw [ih fun r' member => fits r' (by simp [member])]
      rfl

theorem crc32Bits_lt (k crc : Nat) (small : crc < 2 ^ 32) : crc32Bits k crc < 2 ^ 32 := by
  induction k generalizing crc with
  | zero => exact small
  | succ k ih =>
      rw [crc32Bits]
      split
      · exact ih _ (Nat.xor_lt_two_pow (by omega) (by decide))
      · exact ih _ (by omega)

theorem crc32_lt (bytes : List UInt8) : crc32 bytes < 2 ^ 32 := by
  have fold : ∀ (l : List UInt8) (crc : Nat), crc < 2 ^ 32 →
      l.foldl (fun crc b => crc32Bits 8 (crc ^^^ b.toNat)) crc < 2 ^ 32 := by
    intro l
    induction l with
    | nil => exact fun crc small => small
    | cons b l ih =>
        intro crc small
        have byte := b.toNat_lt
        exact ih _ (crc32Bits_lt 8 _ (Nat.xor_lt_two_pow small (by omega)))
  exact Nat.xor_lt_two_pow (fold bytes _ (by decide)) (by decide)

@[simp] theorem length_encodeHead (count : Nat) (startOffset endOffset : Int) :
    (encodeHead count startOffset endOffset).length = headerSize := by
  simp [encodeHead, magic, headerSize]

theorem slice_between (before between after : List UInt8) {start stop : Nat}
    (starts : start = before.length) (stops : stop = before.length + between.length) :
    slice (before ++ (between ++ after)) start stop = between := by
  subst starts stops
  rw [slice, ← List.append_assoc, List.take_left' (by simp), List.drop_left' rfl]

theorem decodeEnvelope_encode (startOffset endOffset : Int) (records : List ArchivedRecord)
    (count : records.length < 2 ^ 64) :
    decodeEnvelope (encodeSegment startOffset endOffset records) =
      .ok ⟨0, records.length, records.flatMap encodeRecord⟩ := by
  have crc := crc32_lt (encodeCovered startOffset endOffset records)
  have whole : encodeSegment startOffset endOffset records =
      encodeCovered startOffset endOffset records ++
        (littleEndian 4 (crc32 (encodeCovered startOffset endOffset records)) ++ magicEnd) := rfl
  have covered : encodeCovered startOffset endOffset records =
      encodeHead records.length startOffset endOffset ++ records.flatMap encodeRecord := rfl
  have head : encodeHead records.length startOffset endOffset = [0x4B, 0x42, 0x41, 0x4B, 1, 0, 0, 0] ++
      (littleEndian 8 records.length ++ (littleSigned 8 startOffset ++ littleSigned 8 endOffset)) := rfl
  have long : (encodeSegment startOffset endOffset records).length =
      (encodeCovered startOffset endOffset records).length + footerSize := by
    rw [whole]
    simp [magicEnd, footerSize]
  have opening : encodeSegment startOffset endOffset records = [0x4B, 0x42, 0x41, 0x4B, 1, 0, 0, 0] ++
      (littleEndian 8 records.length ++ ((littleSigned 8 startOffset ++ littleSigned 8 endOffset) ++
        (records.flatMap encodeRecord ++
          (littleEndian 4 (crc32 (encodeCovered startOffset endOffset records)) ++ magicEnd)))) := by
    rw [whole, covered, head]
    simp only [List.append_assoc]
  have size : headerSize ≤ (encodeCovered startOffset endOffset records).length := by
    simp [covered]
  have counted : slice (encodeSegment startOffset endOffset records) 8 16 =
      littleEndian 8 records.length := by
    rw [opening]
    exact slice_between _ _ _ rfl (by simp)
  have footer : slice (encodeSegment startOffset endOffset records)
      (encodeCovered startOffset endOffset records).length
      ((encodeCovered startOffset endOffset records).length + 4) =
      littleEndian 4 (crc32 (encodeCovered startOffset endOffset records)) := by
    rw [whole]
    exact slice_between _ _ _ rfl (by simp)
  have body : slice (encodeSegment startOffset endOffset records) headerSize
      (encodeCovered startOffset endOffset records).length = records.flatMap encodeRecord := by
    rw [whole, covered, List.append_assoc]
    exact slice_between _ _ _ (by simp) (by simp)
  have ending : (encodeSegment startOffset endOffset records).drop
      ((encodeCovered startOffset endOffset records).length + 4) = magicEnd := by
    rw [whole, ← List.append_assoc]
    exact List.drop_left' (by simp)
  have front : (encodeSegment startOffset endOffset records).take
      (encodeCovered startOffset endOffset records).length =
      encodeCovered startOffset endOffset records := by
    rw [whole]
    exact List.take_left' rfl
  have first : (encodeSegment startOffset endOffset records).head? = some 0x4B := by
    rw [opening]
    rfl
  have notZstd : zstdMagic.isPrefixOf (encodeSegment startOffset endOffset records) = false := by
    rw [opening]
    rfl
  have named : (encodeSegment startOffset endOffset records).take 4 = magic := by
    rw [opening]
    rfl
  have version : byteAt (encodeSegment startOffset endOffset records) 4 = 1 := by
    rw [opening]
    rfl
  have compression : byteAt (encodeSegment startOffset endOffset records) 5 = 0 := by
    rw [opening]
    rfl
  have tail : (encodeSegment startOffset endOffset records).length - footerSize =
      (encodeCovered startOffset endOffset records).length := by
    omega
  have stored : leNat (littleEndian 4 (crc32 (encodeCovered startOffset endOffset records))) =
      crc32 (encodeCovered startOffset endOffset records) := by
    rw [leNat_littleEndian]
    exact Nat.mod_eq_of_lt crc
  have number : leNat (littleEndian 8 records.length) = records.length := by
    rw [leNat_littleEndian]
    exact Nat.mod_eq_of_lt count
  rw [decodeEnvelope, first, notZstd, named, version, compression, tail, if_neg (by decide),
    if_neg (by decide), if_neg (by rw [long]; omega), if_neg (by simp), if_neg (by simp)]
  dsimp only
  rw [ending, if_neg (by simp), footer, front, stored, if_neg (by simp), counted, body, number]

theorem minRecordSize_le_encode (r : ArchivedRecord) : minRecordSize ≤ (encodeRecord r).length := by
  have opt (part : Option (List UInt8)) : 4 ≤ (encodeOpt part).length := by
    cases part <;> simp [encodeOpt]
  have key := opt r.key
  have value := opt r.value
  simp only [encodeRecord, encodeFields, List.length_append, length_littleEndian, length_littleSigned,
    minRecordSize]
  omega

theorem minRecordSize_mul_le (records : List ArchivedRecord) :
    records.length * minRecordSize ≤ (records.flatMap encodeRecord).length := by
  induction records with
  | nil => simp
  | cons r records ih =>
      have least := minRecordSize_le_encode r
      simp only [List.length_cons, List.flatMap_cons, List.length_append, Nat.add_mul, Nat.one_mul]
      omega

structure Holdable (records : List ArchivedRecord) : Prop where
  fits : ∀ r ∈ records, r.Fits
  count : records.length < 2 ^ 64

theorem decodeSegment_encode (codecs : Codecs) (startOffset endOffset : Int)
    (records : List ArchivedRecord) (holdable : Holdable records) :
    decodeSegment codecs (encodeSegment startOffset endOffset records) = .ok records := by
  have bound := minRecordSize_mul_le records
  have room : ¬ (records.flatMap encodeRecord).length / minRecordSize < records.length := by
    rw [Nat.not_lt]
    exact (Nat.le_div_iff_mul_le (by decide)).mpr bound
  simp only [decodeSegment, decodeEnvelope_encode _ _ _ holdable.count, bind, Except.bind, decodeBody,
    if_true, if_neg room]
  exact decodeRecords_encode records holdable.fits

end Logweir.Kbak
