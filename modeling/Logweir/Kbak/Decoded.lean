import Logweir.Kbak.Checked
import Logweir.Kbak.Frames

/-!
# Decoding any bytes

`decode_segment` on any byte string ends in an error or in the header's count of records and
never indexes out of bounds.  Every size it asks for is within the decompressed body but a
record's `header_count`, and that one is too unless the frame it stands in is no record.
-/

set_option autoImplicit false

namespace Logweir.Kbak

open Logweir.ByteStream Logweir.Fingerprint Logweir.Results
open Logweir.Checked (Run Outcome Follows Agrees)

/-- A cursor over a frame, at what is left of it. -/
structure Tracks (frame : List UInt8) (c : Cursor) (left : List UInt8) : Prop where
  same : c.frame = frame
  within : c.position ≤ frame.length
  rest : c.rest = left

/-- A value and where the cursor stands behind it. -/
def Gives {α : Type} (frame : List UInt8) (x : α × Cursor) (y : α × List UInt8) : Prop :=
  x.1 = y.1 ∧ Tracks frame x.2 y.2

section Cursor
variable {frame left : List UInt8} {c : Cursor}

theorem Tracks.length (tracks : Tracks frame c left) :
    left.length = frame.length - c.position := by
  rw [← tracks.rest, Cursor.rest, tracks.same, List.length_drop]

theorem Tracks.step (tracks : Tracks frame c left) {n : Nat} (enough : n ≤ left.length) :
    Tracks frame { c with position := c.position + n } (left.drop n) := by
  have size := tracks.length
  have within := tracks.within
  refine ⟨tracks.same, by simp only; omega, ?_⟩
  rw [← tracks.rest]
  simp [Cursor.rest, List.drop_drop]

theorem readFixed_follows (tracks : Tracks frame c left) (what : String) (n : Nat) :
    Follows frame.length (Gives frame) (c.readFixed what n) (readFixed what n left) := by
  have size := tracks.length
  have within := tracks.within
  refine Follows.ite (by rw [tracks.same]; omega) (fun _ => .fail _) fun enough => ?_
  rw [tracks.same] at enough
  refine .done ⟨?_, tracks.step (by omega)⟩
  rw [tracks.rest]

theorem readI64_follows (tracks : Tracks frame c left) (what : String) :
    Follows frame.length (Gives frame) (c.readI64 what) (readI64 what left) :=
  (readFixed_follows tracks what 8).bind fun _ _ given => .done ⟨by rw [given.1], given.2⟩

theorem readI32_follows (tracks : Tracks frame c left) (what : String) :
    Follows frame.length (Gives frame) (c.readI32 what) (readI32 what left) :=
  (readFixed_follows tracks what 4).bind fun _ _ given => .done ⟨by rw [given.1], given.2⟩

theorem readU16_follows (tracks : Tracks frame c left) (what : String) :
    Follows frame.length (Gives frame) (c.readU16 what) (readU16 what left) :=
  readFixed_follows tracks what 2

theorem take_follows (tracks : Tracks frame c left) (len : Nat) (what : String) :
    Follows frame.length (Gives frame) (c.take len what) (take left len what) := by
  have size := tracks.length
  have within := tracks.within
  have room : c.frame.length - c.position = left.length := by rw [tracks.same, size]
  rw [Cursor.take, Run.sub_eq (by rw [tracks.same]; exact within), Run.done_bind, room]
  refine Follows.ite Iff.rfl (fun _ => .fail _) fun enough => ?_
  refine .alloc (by omega) (.done ⟨?_, tracks.step (by omega)⟩)
  rw [tracks.rest]

theorem optBytes_follows (tracks : Tracks frame c left) (len : Int) (what : String) :
    Follows frame.length (Gives frame) (c.optBytes len what) (optBytes left len what) := by
  refine Follows.ite Iff.rfl (fun _ => .done ⟨rfl, tracks⟩) fun _ => ?_
  exact (take_follows tracks len.toNat what).bind fun _ _ given => .done ⟨by rw [given.1], given.2⟩

theorem readHeaders_follows (n : Nat) : ∀ {c : Cursor} {left : List UInt8}, Tracks frame c left →
    Follows frame.length (Gives frame) (c.readHeaders n) (readHeaders n left) := by
  induction n with
  | zero => exact fun tracks => .done ⟨rfl, tracks⟩
  | succ n ih =>
      intro c left tracks
      refine (readU16_follows tracks "hkey_len").bind ?_
      rintro ⟨hkLen, c⟩ ⟨_, left⟩ ⟨rfl, tracks⟩
      refine (take_follows tracks hkLen "hkey").bind ?_
      rintro ⟨hk, c⟩ ⟨_, left⟩ ⟨rfl, tracks⟩
      refine (readI32_follows tracks "hval_len").bind ?_
      rintro ⟨hvLen, c⟩ ⟨_, left⟩ ⟨rfl, tracks⟩
      refine (optBytes_follows tracks hvLen "hval").bind ?_
      rintro ⟨hv, c⟩ ⟨_, left⟩ ⟨rfl, tracks⟩
      refine (ih tracks).bind ?_
      rintro ⟨more, c⟩ ⟨_, left⟩ ⟨rfl, tracks⟩
      exact .done ⟨rfl, tracks⟩

end Cursor

def preambleFields (frame : List UInt8) : Except EngineError (Preamble × List UInt8) := do
  let (timestamp, c) ← readI64 "timestamp" frame
  let (offset, c) ← readI64 "offset" c
  let (keyLen, c) ← readI32 "key_len" c
  let (key, c) ← optBytes c keyLen "key"
  let (valueLen, c) ← readI32 "value_len" c
  let (value, c) ← optBytes c valueLen "value"
  let (headerCount, c) ← readU16 "header_count" c
  return ({ timestamp, offset, key, value, headerCount }, c)

theorem readFields_eq (frame : List UInt8) : readFields frame = preambleFields frame >>= fun x =>
    readHeaders x.1.headerCount x.2 >>= fun y =>
      pure ({ offset := x.1.offset, timestamp := x.1.timestamp, key := x.1.key, value := x.1.value
              headers := y.1 }, y.2) := by
  simp only [readFields, preambleFields, bind_assoc, pure_bind]

def declaredHeaders (frame : List UInt8) : Option Nat :=
  match preambleFields frame with
  | .ok (p, _) => some p.headerCount
  | .error _ => none

theorem readPreamble_follows (frame : List UInt8) :
    Follows frame.length (Gives frame) (readPreamble ⟨frame, 0⟩) (preambleFields frame) := by
  have tracks : Tracks frame ⟨frame, 0⟩ frame := ⟨rfl, Nat.zero_le _, rfl⟩
  refine (readI64_follows tracks "timestamp").bind ?_
  rintro ⟨timestamp, c⟩ ⟨_, left⟩ ⟨rfl, tracks⟩
  refine (readI64_follows tracks "offset").bind ?_
  rintro ⟨offset, c⟩ ⟨_, left⟩ ⟨rfl, tracks⟩
  refine (readI32_follows tracks "key_len").bind ?_
  rintro ⟨keyLen, c⟩ ⟨_, left⟩ ⟨rfl, tracks⟩
  refine (optBytes_follows tracks keyLen "key").bind ?_
  rintro ⟨key, c⟩ ⟨_, left⟩ ⟨rfl, tracks⟩
  refine (readI32_follows tracks "value_len").bind ?_
  rintro ⟨valueLen, c⟩ ⟨_, left⟩ ⟨rfl, tracks⟩
  refine (optBytes_follows tracks valueLen "value").bind ?_
  rintro ⟨value, c⟩ ⟨_, left⟩ ⟨rfl, tracks⟩
  refine (readU16_follows tracks "header_count").bind ?_
  rintro ⟨headerCount, c⟩ ⟨_, left⟩ ⟨rfl, tracks⟩
  exact .done ⟨rfl, tracks⟩

section Record
variable {frame : List UInt8} {bound : Nat}

theorem readRecord_follows (small : frame.length ≤ bound)
    (modest : ∀ count, declaredHeaders frame = some count → count ≤ bound) :
    Follows bound Eq (readRecordChecked frame frame.length) (readRecord frame) := by
  simp only [readRecord, readFields_eq, bind_assoc, pure_bind]
  refine ((readPreamble_follows frame).mono small).bind_known ?_
  rintro ⟨p, c⟩ ⟨_, left⟩ read ⟨rfl, tracks⟩
  have declared : declaredHeaders frame = some p.headerCount := by
    rw [declaredHeaders, read]
  refine .alloc (modest _ declared) (((readHeaders_follows p.headerCount tracks).mono small).bind ?_)
  rintro ⟨headers, c⟩ ⟨_, left⟩ ⟨rfl, tracks⟩
  have size : left.length = frame.length - c.position := tracks.length
  have within : c.position ≤ frame.length := tracks.within
  have used : frame.length - left.length = c.position := by omega
  dsimp only
  rw [used]
  exact Follows.ite Iff.rfl (fun _ => .fail _) fun _ => .done rfl

theorem declared_allocated {count : Nat} (declared : declaredHeaders frame = some count) :
    count ∈ (readRecordChecked frame frame.length).allocated := by
  have ends := (readPreamble_follows frame).ends
  unfold declaredHeaders at declared
  cases read : preambleFields frame with
  | error e =>
      rw [read] at declared
      cases declared
  | ok x =>
      rw [read] at declared ends
      cases declared
      obtain ⟨y, ended, given⟩ := ends.exists_of_ok
      refine Run.mem_allocated_bind.mpr (.inr ⟨y, ended, ?_⟩)
      rw [← given.1]
      exact List.mem_cons_self

theorem readHeaders_le (n : Nat) : ∀ (c rest : List UInt8) (headers : List Header),
    (readHeaders n c).toOption = some (headers, rest) → rest.length + n ≤ c.length := by
  induction n with
  | zero =>
      intro c rest headers read
      cases read
      exact Nat.le_refl _
  | succ n ih =>
      intro c rest headers read
      simp only [readHeaders, toOption_bind, readU16_toOption, take_toOption, readI32_toOption,
        optBytes_toOption, Option.bind_eq_some_iff, toOption_pure, Option.some.injEq,
        Prod.mk.injEq] at read
      obtain ⟨⟨_, c₁⟩, keyLen, ⟨_, c₂⟩, key, ⟨_, c₃⟩, valueLen, ⟨_, c₄⟩, value, ⟨_, c₅⟩, more, _, rfl⟩ :=
        read
      have := parse_fixed_length 2 _ _ _ _ keyLen
      have := ReadProg.parse_length _ _ _ _ key
      have := parse_fixed_length 4 _ _ _ _ valueLen
      have := field_shorter _ _ _ _ value
      have := ih _ _ _ more
      simp only at *
      omega

theorem declared_le_of_record {r : ArchivedRecord} {count : Nat} (record : readRecord frame = .ok r)
    (declared : declaredHeaders frame = some count) : count ≤ frame.length := by
  obtain ⟨⟨r', left⟩, fields, _⟩ := bind_eq_ok.mp record
  rw [readFields_eq] at fields
  obtain ⟨⟨p, left'⟩, preamble, fields⟩ := bind_eq_ok.mp fields
  obtain ⟨⟨headers, left''⟩, read, _⟩ := bind_eq_ok.mp fields
  have within := readHeaders_le _ _ _ _ ((toOption_eq_some _ _).mpr read)
  have follows := (readPreamble_follows frame).ends
  rw [preamble] at follows
  unfold declaredHeaders at declared
  rw [preamble] at declared
  cases declared
  obtain ⟨x, _, given⟩ := follows.exists_of_ok
  have size : left'.length = frame.length - x.2.position := given.2.length
  simp only at within
  omega

end Record

def stoppedAt : Nat → List UInt8 → Option (List UInt8)
  | 0, _ => none
  | n + 1, left =>
      if left.length < 4 then none
      else
        let totalLen := leNat (left.take 4)
        let left := left.drop 4
        if left.length < totalLen then none
        else
          match readRecord (left.take totalLen) with
          | .error _ => some (left.take totalLen)
          | .ok _ => stoppedAt n (left.drop totalLen)

section Loop
variable {body : List UInt8} {bound : Nat}

theorem decodeRecordsChecked_framed {n pos : Nat} {frame : List UInt8} (inside : pos ≤ body.length)
    (prefixed : ¬ (body.drop pos).length < 4)
    (framed : ¬ ((body.drop pos).drop 4).length < leNat ((body.drop pos).take 4))
    (one : ((body.drop pos).drop 4).take (leNat ((body.drop pos).take 4)) = frame) :
    decodeRecordsChecked body (n + 1) pos = readRecordChecked frame frame.length >>= fun r =>
      decodeRecordsChecked body n (pos + 4 + frame.length) >>= fun more => pure (r :: more) := by
  have lengths : (body.take (pos + 4)).drop pos = (body.drop pos).take 4 := by
    rw [List.drop_take, Nat.add_sub_cancel_left]
  have size : (body.drop pos).length = body.length - pos := List.length_drop
  have size' : ((body.drop pos).drop 4).length = body.length - (pos + 4) := by
    rw [List.drop_drop, List.length_drop]
  have long : frame.length = leNat ((body.drop pos).take 4) := by
    rw [← one, List.length_take]
    omega
  rw [decodeRecordsChecked, Run.sub_eq inside, Run.done_bind, ← size, if_neg prefixed,
    Run.range_eq (by omega) (by omega), Run.done_bind, lengths]
  dsimp only
  rw [← long] at framed one ⊢
  have cut : (body.take (pos + 4 + frame.length)).drop (pos + 4) = frame := by
    rw [List.drop_take, Nat.add_sub_cancel_left, ← List.drop_drop, one]
  rw [Run.sub_eq (by omega), Run.done_bind, if_neg (by omega), Run.range_eq (by omega) (by omega),
    Run.done_bind, cut]

theorem decodeRecords_follows (small : body.length ≤ bound) (n : Nat) :
    ∀ pos ≤ body.length,
      (∀ frame count, stoppedAt n (body.drop pos) = some frame → declaredHeaders frame = some count →
        count ≤ bound) →
      Follows bound Eq (decodeRecordsChecked body n pos) (decodeRecords n (body.drop pos)) := by
  induction n with
  | zero => exact fun pos _ _ => .done rfl
  | succ n ih =>
      intro pos inside modest
      have size : (body.drop pos).length = body.length - pos := List.length_drop
      have size' : ((body.drop pos).drop 4).length = body.length - (pos + 4) := by
        rw [List.drop_drop, List.length_drop]
      by_cases prefixed : (body.drop pos).length < 4
      · rw [decodeRecordsChecked, Run.sub_eq inside, Run.done_bind, decodeRecords, ← size,
          if_pos prefixed, if_pos prefixed]
        exact .fail _
      · by_cases framed : ((body.drop pos).drop 4).length < leNat ((body.drop pos).take 4)
        · have lengths : (body.take (pos + 4)).drop pos = (body.drop pos).take 4 := by
            rw [List.drop_take, Nat.add_sub_cancel_left]
          rw [decodeRecordsChecked, Run.sub_eq inside, Run.done_bind, decodeRecords, ← size,
            if_neg prefixed, if_neg prefixed, Run.range_eq (by omega) (by omega), Run.done_bind, lengths]
          dsimp only
          rw [Run.sub_eq (by omega), Run.done_bind, ← size', if_pos framed, if_pos framed]
          exact .fail _
        · obtain ⟨one, same⟩ : ∃ one, ((body.drop pos).drop 4).take (leNat ((body.drop pos).take 4)) =
            one := ⟨_, rfl⟩
          have long : one.length = leNat ((body.drop pos).take 4) := by
            rw [← same, List.length_take]
            omega
          have rest : ((body.drop pos).drop 4).drop one.length = body.drop (pos + 4 + one.length) := by
            rw [List.drop_drop, List.drop_drop, Nat.add_assoc]
          simp only [stoppedAt, if_neg prefixed, if_neg framed, same] at modest
          rw [decodeRecordsChecked_framed inside prefixed framed same, decodeRecords, if_neg prefixed]
          dsimp only
          rw [if_neg framed, same]
          rw [← long, rest] at modest ⊢
          have own : Follows bound Eq (readRecordChecked one one.length) (readRecord one) := by
            refine readRecord_follows (by omega) fun count declared => ?_
            cases record : readRecord one with
            | error e =>
                rw [record] at modest
                exact modest one count rfl declared
            | ok r =>
                have held := declared_le_of_record record declared
                omega
          refine own.bind_known ?_
          rintro r _ record rfl
          rw [record] at modest
          refine (ih (pos + 4 + one.length) (by omega) modest).bind ?_
          rintro more _ rfl
          exact .done rfl

theorem stopped_allocated (n : Nat) : ∀ pos ≤ body.length, ∀ {frame : List UInt8} {count : Nat},
    stoppedAt n (body.drop pos) = some frame → declaredHeaders frame = some count →
      count ∈ (decodeRecordsChecked body n pos).allocated := by
  induction n with
  | zero =>
      intro pos _ frame count stopped
      cases stopped
  | succ n ih =>
      intro pos inside frame count stopped declared
      rw [stoppedAt] at stopped
      have size : (body.drop pos).length = body.length - pos := List.length_drop
      have size' : ((body.drop pos).drop 4).length = body.length - (pos + 4) := by
        rw [List.drop_drop, List.length_drop]
      split at stopped
      · cases stopped
      · rename_i prefixed
        dsimp only at stopped
        split at stopped
        · cases stopped
        · rename_i framed
          obtain ⟨one, same⟩ : ∃ one, ((body.drop pos).drop 4).take (leNat ((body.drop pos).take 4)) =
            one := ⟨_, rfl⟩
          have long : one.length = leNat ((body.drop pos).take 4) := by
            rw [← same, List.length_take]
            omega
          have rest : ((body.drop pos).drop 4).drop one.length = body.drop (pos + 4 + one.length) := by
            rw [List.drop_drop, List.drop_drop, Nat.add_assoc]
          rw [decodeRecordsChecked_framed inside prefixed framed same]
          rw [same, ← long, rest] at stopped
          rw [Run.mem_allocated_bind]
          cases record : readRecord one with
          | error e =>
              rw [record] at stopped
              cases stopped
              exact .inl (declared_allocated declared)
          | ok r =>
              rw [record] at stopped
              have ends := (readRecord_follows (Nat.le_refl one.length) fun _ given =>
                declared_le_of_record record given).ends
              rw [record] at ends
              obtain ⟨r', ended, _⟩ := ends.exists_of_ok
              refine .inr ⟨r', ended, Run.mem_allocated_bind.mpr (.inl ?_)⟩
              exact ih _ (by omega) stopped declared

end Loop

theorem decodeEnvelope_follows (bytes : List UInt8) :
    Follows 0 Eq (decodeEnvelopeChecked bytes) (decodeEnvelope bytes) := by
  refine Follows.ite Iff.rfl (fun _ => .fail _) fun _ => ?_
  refine Follows.ite Iff.rfl (fun _ => .fail _) fun _ => ?_
  refine Follows.ite Iff.rfl (fun _ => .fail _) fun long => ?_
  simp only [headerSize, footerSize] at long
  have at4 : bytes[4]? = some (byteAt bytes 4) := by
    rw [byteAt, List.getElem?_eq_getElem (by omega), Option.getD_some]
  have at5 : bytes[5]? = some (byteAt bytes 5) := by
    rw [byteAt, List.getElem?_eq_getElem (by omega), Option.getD_some]
  have whole (start : Nat) : (bytes.take bytes.length).drop start = bytes.drop start := by
    rw [List.take_length]
  rw [Run.range_eq (by omega) (by omega), Run.done_bind, List.drop_zero]
  refine Follows.ite Iff.rfl (fun _ => .fail _) fun _ => ?_
  rw [Run.index_eq at4, Run.done_bind]
  refine Follows.ite Iff.rfl (fun _ => .fail _) fun _ => ?_
  rw [Run.index_eq at5, Run.done_bind, Run.range_eq (by omega) (by omega), Run.done_bind,
    Run.sub_eq (by simp only [footerSize]; omega), Run.done_bind,
    Run.range_eq (by simp only [footerSize]; omega) (by omega), Run.done_bind, whole]
  refine Follows.ite Iff.rfl (fun _ => .fail _) fun _ => ?_
  rw [Run.range_eq (by omega) (by simp only [footerSize]; omega), Run.done_bind,
    Run.range_eq (by omega) (by omega), Run.done_bind, List.drop_zero]
  refine Follows.ite Iff.rfl (fun _ => .fail _) fun _ => ?_
  rw [Run.range_eq (by simp only [headerSize, footerSize]; omega) (by omega), Run.done_bind]
  exact .done rfl

theorem decodeBody_follows (codecs : Codecs) (env : Envelope) {bound : Nat}
    (small : ∀ body, decodeBody codecs env = .ok body → body.length ≤ bound) :
    Follows bound Eq (decodeBodyChecked codecs env) (decodeBody codecs env) := by
  unfold decodeBody at small ⊢
  refine Follows.ite Iff.rfl (fun plain => ?_) fun _ => ?_
  · rw [if_pos plain] at small
    exact .alloc (small _ rfl) (.done rfl)
  · refine Follows.ite Iff.rfl (fun _ => ?_) fun _ => ?_
    · cases codecs.zstdDecodeAll env.body with
      | error e => exact .fail _
      | ok out => exact .done rfl
    · refine Follows.ite Iff.rfl (fun _ => ?_) fun _ => .fail _
      refine Follows.ite Iff.rfl (fun _ => .fail _) fun long => ?_
      rw [Run.range_eq (by omega) (by omega), Run.done_bind, List.drop_zero]
      refine Follows.ite Iff.rfl (fun _ => .fail _) fun _ => ?_
      cases codecs.lz4DecompressSizePrepended env.body with
      | error e => exact .fail _
      | ok out => exact .done rfl

def opened (codecs : Codecs) (bytes : List UInt8) : Except EngineError (Envelope × List UInt8) := do
  let env ← decodeEnvelope bytes
  let body ← decodeBody codecs env
  return (env, body)

def recordCount (bytes : List UInt8) : Nat := leNat (slice bytes 8 16)

def bodyLength (codecs : Codecs) (bytes : List UInt8) : Nat :=
  match opened codecs bytes with
  | .ok (_, body) => body.length
  | .error _ => 0

/-- The first frame that is no record, where the loop is entered at all, declares no more
headers than the decompressed body has bytes. -/
def ModestHeaders (codecs : Codecs) (bytes : List UInt8) : Prop :=
  ∀ env body frame count, opened codecs bytes = .ok (env, body) →
    env.recordCount ≤ body.length / minRecordSize → stoppedAt env.recordCount body = some frame →
    declaredHeaders frame = some count → count ≤ body.length

/-- A decoding that ends in an error or in `record_count` records, with no index out of
bounds and no allocation above the decompressed body's length. -/
structure SoundDecode (codecs : Codecs) (bytes : List UInt8) : Prop where
  noPanic : (decodeSegmentChecked codecs bytes).outcome ≠ .panic
  counted : ∀ records, (decodeSegmentChecked codecs bytes).outcome = .ok records →
    records.length = recordCount bytes
  allocates : ∀ n ∈ (decodeSegmentChecked codecs bytes).allocated, n ≤ bodyLength codecs bytes

section Segment
variable {codecs : Codecs} {bytes : List UInt8}

theorem opened_eq {env : Envelope} {body : List UInt8} (enveloped : decodeEnvelope bytes = .ok env)
    (decoded : decodeBody codecs env = .ok body) : opened codecs bytes = .ok (env, body) := by
  simp only [opened, enveloped, decoded, bind, Except.bind, pure, Except.pure]

theorem bodyLength_eq {env : Envelope} {body : List UInt8}
    (both : opened codecs bytes = .ok (env, body)) : bodyLength codecs bytes = body.length := by
  rw [bodyLength, both]

theorem decodeSegment_follows {bound : Nat} (small : bodyLength codecs bytes ≤ bound)
    (modest : ∀ env body frame count, opened codecs bytes = .ok (env, body) →
      env.recordCount ≤ body.length / minRecordSize → stoppedAt env.recordCount body = some frame →
      declaredHeaders frame = some count → count ≤ bound) :
    Follows bound Eq (decodeSegmentChecked codecs bytes) (decodeSegment codecs bytes) := by
  refine ((decodeEnvelope_follows bytes).mono (Nat.zero_le bound)).bind_known ?_
  rintro env _ enveloped rfl
  have within (body : List UInt8) (decoded : decodeBody codecs env = .ok body) :
      body.length ≤ bound := by
    rw [bodyLength_eq (opened_eq enveloped decoded)] at small
    exact small
  refine (decodeBody_follows codecs env within).bind_known ?_
  rintro body _ decoded rfl
  refine Follows.ite Iff.rfl (fun _ => .fail _) fun counted => ?_
  have fits : env.recordCount ≤ body.length / minRecordSize := Nat.le_of_not_lt counted
  have bodyFits := within body decoded
  have fewer := Nat.div_le_self body.length minRecordSize
  refine .alloc (by omega) (decodeRecords_follows bodyFits env.recordCount 0 (Nat.zero_le _) ?_)
  rw [List.drop_zero]
  exact fun frame count => modest env body frame count (opened_eq enveloped decoded) fits

theorem decodeSegment_agrees (codecs : Codecs) (bytes : List UInt8) :
    Agrees Eq (decodeSegmentChecked codecs bytes).outcome (decodeSegment codecs bytes) := by
  cases both : opened codecs bytes with
  | error e =>
      refine (decodeSegment_follows (Nat.le_refl _) ?_).ends
      intro env body frame count given
      rw [both] at given
      cases given
  | ok x =>
      obtain ⟨env, body⟩ := x
      let declared := ((stoppedAt env.recordCount body).bind declaredHeaders).getD 0
      refine (decodeSegment_follows (Nat.le_add_right _ declared) ?_).ends
      intro env' body' frame count given _ stopped headers
      rw [both] at given
      cases given
      have same : declared = count := by
        simp only [declared, stopped, Option.bind_some, headers, Option.getD_some]
      omega

theorem decodeSegment_counted {records : List ArchivedRecord}
    (decoded : decodeSegment codecs bytes = .ok records) : records.length = recordCount bytes := by
  obtain ⟨env, enveloped, decoded⟩ := bind_eq_ok.mp decoded
  obtain ⟨body, _, decoded⟩ := bind_eq_ok.mp decoded
  dsimp only at decoded
  split at decoded
  · cases decoded
  · rw [(decodeRecords_length _ _ _ decoded).1]
    unfold decodeEnvelope at enveloped
    dsimp only at enveloped
    split_ifs at enveloped
    cases enveloped
    rfl

theorem stopped_allocated_segment {env : Envelope} {body frame : List UInt8} {count : Nat}
    (both : opened codecs bytes = .ok (env, body))
    (fits : env.recordCount ≤ body.length / minRecordSize)
    (stopped : stoppedAt env.recordCount body = some frame)
    (declared : declaredHeaders frame = some count) :
    count ∈ (decodeSegmentChecked codecs bytes).allocated := by
  obtain ⟨env', enveloped, both⟩ := bind_eq_ok.mp both
  obtain ⟨body', decoded, both⟩ := bind_eq_ok.mp both
  cases both
  have envelopeEnds := (decodeEnvelope_follows bytes).ends
  rw [enveloped] at envelopeEnds
  obtain ⟨_, envelopeRan, envelopeSame⟩ := envelopeEnds.exists_of_ok
  rw [envelopeSame] at envelopeRan
  have within : ∀ b, decodeBody codecs env = .ok b → b.length ≤ body.length := by
    intro b got
    rw [decoded] at got
    cases got
    exact Nat.le_refl _
  have bodyEnds := (decodeBody_follows codecs env within).ends
  rw [decoded] at bodyEnds
  obtain ⟨_, bodyRan, bodySame⟩ := bodyEnds.exists_of_ok
  rw [bodySame] at bodyRan
  refine Run.mem_allocated_bind.mpr (.inr ⟨_, envelopeRan, ?_⟩)
  refine Run.mem_allocated_bind.mpr (.inr ⟨_, bodyRan, ?_⟩)
  dsimp only
  rw [if_neg (Nat.not_lt.mpr fits)]
  refine List.mem_cons_of_mem _ (stopped_allocated env.recordCount 0 (Nat.zero_le _) ?_ declared)
  rw [List.drop_zero]
  exact stopped

theorem soundDecode_iff : SoundDecode codecs bytes ↔ ModestHeaders codecs bytes := by
  constructor
  · intro sound env body frame count both fits stopped declared
    have asked := sound.allocates _ (stopped_allocated_segment both fits stopped declared)
    rw [bodyLength_eq both] at asked
    exact asked
  · intro modest
    have agrees := decodeSegment_agrees codecs bytes
    refine ⟨agrees.not_panic, fun records ended => decodeSegment_counted (agrees.ok_iff.mp ended), ?_⟩
    refine (decodeSegment_follows (Nat.le_refl _) fun env body frame count both fits stopped declared => ?_).within
    rw [bodyLength_eq both]
    exact modest env body frame count both fits stopped declared

end Segment

structure Writable where
  startOffset : Int
  endOffset : Int
  records : List ArchivedRecord
  holdable : Holdable records

def hollowFrame : List UInt8 := List.replicate 16 0 ++ (List.replicate 8 0xFF ++ [0xFF, 0xFF])

def hollowSegment : List UInt8 :=
  let covered := encodeHead 1 0 0 ++ (littleEndian 4 26 ++ hollowFrame)
  covered ++ (littleEndian 4 (crc32 covered) ++ magicEnd)

end Logweir.Kbak
