import Logweir.Library.Codes
import Logweir.Verify.Sampled
import Mathlib.Data.List.Perm.Basic

/-!
# What the digests are computed over

The byte layout of `record_digest_ordered` reads back as one record, and the layout of
`record_fingerprint` as one record up to the order of its headers: every part is behind its
length, the headers behind their number, and the sort is a canonical form of their multiset.
-/

set_option autoImplicit false

namespace Logweir.Fingerprint

open Logweir.Codes Logweir.Sampled

@[simp] theorem length_bigEndian (w n : Nat) : (bigEndian w n).length = w := by
  induction w generalizing n with
  | zero => rfl
  | succ w ih => simp [bigEndian, ih]

theorem bigEndian_inj (w : Nat) : ∀ {n m : Nat}, n < 256 ^ w → m < 256 ^ w →
    bigEndian w n = bigEndian w m → n = m := by
  induction w with
  | zero =>
      intro n m small small' _
      simp only [Nat.pow_zero] at small small'
      omega
  | succ w ih =>
      intro n m small small' same
      rw [Nat.pow_succ] at small small'
      simp only [bigEndian] at same
      obtain ⟨high, low⟩ := List.append_inj same (by simp)
      have quotient : n / 256 = m / 256 := ih (by omega) (by omega) high
      have remainder : n % 256 = m % 256 := by
        have bytes := congrArg UInt8.toNat (List.cons.inj low).1
        simpa using bytes
      omega

theorem u64_delimits : SelfDelimiting (· ≤ u64Max) u64ToBeBytes :=
  .fixed (length_bigEndian 8) fun n m small small' same => by
    simp only [u64Max] at small small'
    exact bigEndian_inj 8 (by omega) (by omega) same

/-- The range of an `i64`. -/
def InI64 (i : Int) : Prop := -2 ^ 63 ≤ i ∧ i < 2 ^ 63

theorem i64_delimits : SelfDelimiting InI64 i64ToBeBytes :=
  .fixed (fun i => length_bigEndian 8 _) fun i j range range' same => by
    simp only [InI64] at range range'
    have digits := bigEndian_inj 8 (by omega) (by omega) same
    omega

theorem strBytes_inj {s t : String} (same : strBytes s = strBytes t) : s = t :=
  String.toByteArray_inj.mp (ByteArray.ext (Array.toList_inj.mp same))

/-- A part of a length that the null marker does not take. -/
def FitsPart (part : Option (List UInt8)) : Prop := ∀ b ∈ part, b.length < u64Max

def partBytes (part : Option (List UInt8)) : List UInt8 :=
  u64ToBeBytes ((part.map List.length).getD u64Max) ++ part.getD []

theorem part_fed (d : OrderedDigest) (part : Option (List UInt8)) :
    (d.part part).fed = d.fed ++ partBytes part := by
  cases part <;> simp [OrderedDigest.part, OrderedDigest.length, OrderedDigest.bytes, partBytes]

theorem part_delimits : SelfDelimiting FitsPart partBytes :=
  u64_delimits.nullable (Nat.le_refl u64Max)

def FitsHeader (h : Header) : Prop := FitsPart (some (strBytes h.1)) ∧ FitsPart h.2

def headerBytes (h : Header) : List UInt8 := partBytes (some (strBytes h.1)) ++ partBytes h.2

theorem header_delimits : SelfDelimiting FitsHeader headerBytes := by
  intro h h' fits fits' rest rest' same
  obtain ⟨parts, rests⟩ := (part_delimits.pair part_delimits) (some (strBytes h.1), h.2)
    (some (strBytes h'.1), h'.2) fits fits' rest rest' same
  simp only [Prod.mk.injEq, Option.some.injEq] at parts
  exact ⟨Prod.ext (strBytes_inj parts.1) parts.2, rests⟩

def headersBytes (headers : List Header) : List UInt8 :=
  u64ToBeBytes headers.length ++ headers.flatMap headerBytes

theorem headers_delimit :
    SelfDelimiting (fun l : List Header => l.length ≤ u64Max ∧ ∀ h ∈ l, FitsHeader h) headersBytes :=
  u64_delimits.counted header_delimits

theorem headers_fed (headers : List Header) (d : OrderedDigest) :
    (headers.foldl (fun d (k, v) => (d.part (some (strBytes k))).part v) d).fed =
      d.fed ++ headers.flatMap headerBytes := by
  induction headers generalizing d with
  | nil => simp
  | cons h headers ih => simp [ih, part_fed, headerBytes]

theorem closed_eq (key value : Option (List UInt8)) (headers : List Header) (timestampMs : Int) :
    (orderedParts key value headers).closed timestampMs =
      partBytes key ++ (partBytes value ++ (headersBytes headers ++ i64ToBeBytes timestampMs)) := by
  simp [orderedParts, OrderedDigest.closed, headers_fed, OrderedDigest.count, part_fed, headersBytes,
    OrderedDigest.new]

structure Fed where
  key : Option (List UInt8)
  value : Option (List UInt8)
  headers : List Header
  timestampMs : Int
  keyFits : FitsPart key
  valueFits : FitsPart value
  headersFit : ∀ h ∈ headers, FitsHeader h
  countFits : headers.length < u64Max
  timestampFits : InI64 timestampMs

namespace Fed

def orderedBytes (r : Fed) : List UInt8 :=
  (orderedParts r.key r.value r.headers).closed r.timestampMs

def fingerprintBytes (r : Fed) : List UInt8 :=
  (orderedParts r.key r.value (r.headers.mergeSort headerLe)).closed r.timestampMs

theorem recordDigestOrdered_eq (sha256 : List UInt8 → Digest) (r : Fed) :
    recordDigestOrdered sha256 r.key r.value r.headers r.timestampMs = sha256 r.orderedBytes := rfl

theorem recordFingerprint_eq (sha256 : List UInt8 → Digest) (r : Fed) :
    recordFingerprint sha256 r.key r.value r.headers r.timestampMs =
      Text.hexEncode (sha256 r.fingerprintBytes).toList := rfl

end Fed

theorem closed_inj {key value key' value' : Option (List UInt8)} {headers headers' : List Header}
    {timestampMs timestampMs' : Int} (keys : FitsPart key ∧ FitsPart key')
    (values : FitsPart value ∧ FitsPart value')
    (count : headers.length < u64Max ∧ headers'.length < u64Max)
    (fits : (∀ h ∈ headers, FitsHeader h) ∧ ∀ h ∈ headers', FitsHeader h)
    (times : InI64 timestampMs ∧ InI64 timestampMs')
    (same : (orderedParts key value headers).closed timestampMs =
      (orderedParts key' value' headers').closed timestampMs') :
    key = key' ∧ value = value' ∧ headers = headers' ∧ timestampMs = timestampMs' := by
  rw [closed_eq, closed_eq] at same
  obtain ⟨key_eq, same⟩ := part_delimits key key' keys.1 keys.2 _ _ same
  obtain ⟨value_eq, same⟩ := part_delimits value value' values.1 values.2 _ _ same
  obtain ⟨headers_eq, same⟩ := headers_delimit headers headers'
    ⟨Nat.le_of_lt count.1, fits.1⟩ ⟨Nat.le_of_lt count.2, fits.2⟩ _ _ same
  exact ⟨key_eq, value_eq, headers_eq, i64_delimits.injective times.1 times.2 same⟩

theorem bytesLe_total (a b : List UInt8) : bytesLe a b = true ∨ bytesLe b a = true := by
  induction a generalizing b with
  | nil => exact .inl (by simp [bytesLe])
  | cons x a ih =>
      cases b with
      | nil => exact .inr (by simp [bytesLe])
      | cons y b =>
          by_cases same : x = y
          · subst same
            simpa [bytesLe] using ih b
          · have apart : x < y ∨ y < x := by
              simp only [UInt8.lt_iff_toNat_lt]
              have differ : x.toNat ≠ y.toNat := fun eq => same (UInt8.toNat_inj.mp eq)
              omega
            simpa [bytesLe, same, Ne.symm same] using apart

theorem bytesLe_antisymm {a b : List UInt8} (ab : bytesLe a b = true) (ba : bytesLe b a = true) :
    a = b := by
  induction a generalizing b with
  | nil =>
      cases b with
      | nil => rfl
      | cons y b => simp [bytesLe] at ba
  | cons x a ih =>
      cases b with
      | nil => simp [bytesLe] at ab
      | cons y b =>
          by_cases same : x = y
          · subst same
            simp only [bytesLe, if_true] at ab ba
            rw [ih ab ba]
          · simp only [bytesLe, if_neg same, if_neg (Ne.symm same), decide_eq_true_eq,
              UInt8.lt_iff_toNat_lt] at ab ba
            omega

theorem bytesLe_trans {a b c : List UInt8} (ab : bytesLe a b = true) (bc : bytesLe b c = true) :
    bytesLe a c = true := by
  induction a generalizing b c with
  | nil => simp [bytesLe]
  | cons x a ih =>
      cases b with
      | nil => simp [bytesLe] at ab
      | cons y b =>
          cases c with
          | nil => simp [bytesLe] at bc
          | cons z c =>
              simp only [bytesLe] at ab bc ⊢
              split at ab
              · rename_i first
                subst first
                split at bc
                · rename_i second
                  rw [if_pos second]
                  exact ih ab bc
                · rename_i second
                  rw [if_neg second]
                  exact bc
              · rename_i first
                simp only [decide_eq_true_eq, UInt8.lt_iff_toNat_lt] at ab
                split at bc
                · rename_i second
                  subst second
                  rw [if_neg first]
                  simpa [UInt8.lt_iff_toNat_lt] using ab
                · simp only [decide_eq_true_eq, UInt8.lt_iff_toNat_lt] at bc
                  have less : x.toNat < z.toNat := Nat.lt_trans ab bc
                  have differ : x ≠ z := fun eq => by
                    subst eq
                    omega
                  rw [if_neg differ]
                  simpa [UInt8.lt_iff_toNat_lt] using less

def valueLe : Option (List UInt8) → Option (List UInt8) → Bool
  | none, _ => true
  | some _, none => false
  | some x, some y => bytesLe x y

theorem headerLe_eq (a b : Header) : headerLe a b =
    if strBytes a.1 = strBytes b.1 then valueLe a.2 b.2 else bytesLe (strBytes a.1) (strBytes b.1) := by
  unfold headerLe
  split
  · cases a.2 <;> cases b.2 <;> rfl
  · rfl

theorem valueLe_total (a b : Option (List UInt8)) : valueLe a b = true ∨ valueLe b a = true := by
  cases a with
  | none => exact .inl rfl
  | some x =>
      cases b with
      | none => exact .inr rfl
      | some y => exact bytesLe_total x y

theorem valueLe_antisymm {a b : Option (List UInt8)} (ab : valueLe a b = true)
    (ba : valueLe b a = true) : a = b := by
  cases a with
  | none =>
      cases b with
      | none => rfl
      | some y => simp [valueLe] at ba
  | some x =>
      cases b with
      | none => simp [valueLe] at ab
      | some y => rw [bytesLe_antisymm ab ba]

theorem valueLe_trans {a b c : Option (List UInt8)} (ab : valueLe a b = true)
    (bc : valueLe b c = true) : valueLe a c = true := by
  cases a with
  | none => rfl
  | some x =>
      cases b with
      | none => simp [valueLe] at ab
      | some y =>
          cases c with
          | none => simp [valueLe] at bc
          | some z => exact bytesLe_trans ab bc

theorem headerLe_total (a b : Header) : (headerLe a b || headerLe b a) = true := by
  rw [headerLe_eq, headerLe_eq, Bool.or_eq_true]
  by_cases same : strBytes a.1 = strBytes b.1
  · rw [if_pos same, if_pos same.symm]
    exact valueLe_total a.2 b.2
  · rw [if_neg same, if_neg (Ne.symm same)]
    exact bytesLe_total _ _

theorem headerLe_antisymm {a b : Header} (ab : headerLe a b = true) (ba : headerLe b a = true) :
    a = b := by
  rw [headerLe_eq] at ab ba
  by_cases same : strBytes a.1 = strBytes b.1
  · rw [if_pos same] at ab
    rw [if_pos same.symm] at ba
    exact Prod.ext (strBytes_inj same) (valueLe_antisymm ab ba)
  · rw [if_neg same] at ab
    rw [if_neg (Ne.symm same)] at ba
    exact absurd (bytesLe_antisymm ab ba) same

theorem headerLe_trans (a b c : Header) (ab : headerLe a b = true) (bc : headerLe b c = true) :
    headerLe a c = true := by
  rw [headerLe_eq] at ab bc ⊢
  by_cases first : strBytes a.1 = strBytes b.1
  · rw [if_pos first] at ab
    rw [first]
    by_cases second : strBytes b.1 = strBytes c.1
    · rw [if_pos second] at bc ⊢
      exact valueLe_trans ab bc
    · rw [if_neg second] at bc ⊢
      exact bc
  · rw [if_neg first] at ab
    by_cases second : strBytes b.1 = strBytes c.1
    · rw [← second, if_neg first]
      exact ab
    · rw [if_neg second] at bc
      have through := bytesLe_trans ab bc
      have apart : strBytes a.1 ≠ strBytes c.1 := fun eq =>
        second (bytesLe_antisymm bc (eq ▸ ab))
      rw [if_neg apart]
      exact through

theorem mergeSort_headers_eq {l m : List Header} :
    l.mergeSort headerLe = m.mergeSort headerLe ↔ l.Perm m := by
  have own (l : List Header) : (l.mergeSort headerLe).Perm l := List.mergeSort_perm l headerLe
  have sorted (l : List Header) : (l.mergeSort headerLe).Pairwise fun a b => headerLe a b = true :=
    List.pairwise_mergeSort headerLe_trans headerLe_total l
  constructor
  · intro same
    exact ((own l).symm.trans (same ▸ .refl _)).trans (own m)
  · intro perm
    have sorts : (l.mergeSort headerLe).Perm (m.mergeSort headerLe) :=
      ((own l).trans perm).trans (own m).symm
    exact sorts.eq_of_pairwise (fun a b _ _ => headerLe_antisymm) (sorted l) (sorted m)

/-- The bytes under `record_digest_ordered` are equal exactly for equal records, and those under
`record_fingerprint` exactly for records equal up to the order of their headers. -/
theorem layouts_injective (r r' : Fed) :
    (r.orderedBytes = r'.orderedBytes ↔ r = r') ∧
      (r.fingerprintBytes = r'.fingerprintBytes ↔
        r.key = r'.key ∧ r.value = r'.value ∧ r.headers.Perm r'.headers ∧
          r.timestampMs = r'.timestampMs) := by
  constructor
  · constructor
    · intro same
      obtain ⟨key, value, headers, timestampMs⟩ := closed_inj ⟨r.keyFits, r'.keyFits⟩
        ⟨r.valueFits, r'.valueFits⟩ ⟨r.countFits, r'.countFits⟩ ⟨r.headersFit, r'.headersFit⟩
        ⟨r.timestampFits, r'.timestampFits⟩ same
      cases r
      cases r'
      cases key
      cases value
      cases headers
      cases timestampMs
      rfl
    · intro same
      rw [same]
  · constructor
    · intro same
      have count (r : Fed) : (r.headers.mergeSort headerLe).length < u64Max := by
        rw [List.length_mergeSort]
        exact r.countFits
      have fits (r : Fed) : ∀ h ∈ r.headers.mergeSort headerLe, FitsHeader h :=
        fun h member => r.headersFit h (List.mem_mergeSort.mp member)
      obtain ⟨key, value, headers, timestampMs⟩ := closed_inj ⟨r.keyFits, r'.keyFits⟩
        ⟨r.valueFits, r'.valueFits⟩ ⟨count r, count r'⟩ ⟨fits r, fits r'⟩
        ⟨r.timestampFits, r'.timestampFits⟩ same
      exact ⟨key, value, mergeSort_headers_eq.mp headers, timestampMs⟩
    · rintro ⟨key, value, headers, timestampMs⟩
      unfold Fed.fingerprintBytes
      rw [key, value, timestampMs, mergeSort_headers_eq.mpr headers]

end Logweir.Fingerprint
