import Mathlib.Algebra.Group.Int.Defs
import Mathlib.Algebra.Group.Nat.Defs

/-!
# The ordered record digest

`logweir_kafka::fingerprint`.  A record's digest is the hash of one byte layout:
each component behind its length as eight big-endian bytes (all ones for a
null), the header count, each header's key and value in recorded order, and the
timestamp.  `OrderedDigest` feeds that layout one piece at a time, so a reader
that streams a record never holds it.
-/

set_option autoImplicit false

namespace Logweir.Fingerprint

/-- `[u8; 32]`. -/
abbrev Digest := Vector UInt8 32

abbrev Header := String × Option (List UInt8)

def bigEndian : Nat → Nat → List UInt8
  | 0, _ => []
  | w + 1, n => bigEndian w (n / 256) ++ [UInt8.ofNat n]

def u64ToBeBytes (n : Nat) : List UInt8 := bigEndian 8 n

def i64ToBeBytes (i : Int) : List UInt8 := bigEndian 8 (i % 2 ^ 64).toNat

def u64Max : Nat := 2 ^ 64 - 1

def strBytes (s : String) : List UInt8 := s.toUTF8.data.toList

structure OrderedDigest where
  fed : List UInt8
deriving DecidableEq, Repr

namespace OrderedDigest

def new : OrderedDigest := ⟨[]⟩

def length (d : OrderedDigest) (len : Option Nat) : OrderedDigest :=
  ⟨d.fed ++ u64ToBeBytes (len.getD u64Max)⟩

def bytes (d : OrderedDigest) (b : List UInt8) : OrderedDigest := ⟨d.fed ++ b⟩

def part (d : OrderedDigest) (part : Option (List UInt8)) : OrderedDigest :=
  match part with
  | none => d.length none
  | some b => (d.length (some b.length)).bytes b

def count (d : OrderedDigest) (n : Nat) : OrderedDigest := ⟨d.fed ++ u64ToBeBytes n⟩

def closed (d : OrderedDigest) (timestampMs : Int) : List UInt8 :=
  d.fed ++ i64ToBeBytes timestampMs

def finish (sha256 : List UInt8 → Digest) (d : OrderedDigest) (timestampMs : Int) : Digest :=
  sha256 (d.closed timestampMs)

@[simp] theorem bytes_nil (d : OrderedDigest) : d.bytes [] = d := by
  simp [bytes]

@[simp] theorem bytes_bytes (d : OrderedDigest) (a b : List UInt8) :
    (d.bytes a).bytes b = d.bytes (a ++ b) := by
  simp [bytes]

end OrderedDigest

def orderedParts (key value : Option (List UInt8)) (headers : List Header) : OrderedDigest :=
  headers.foldl (fun d (k, v) => (d.part (some (strBytes k))).part v)
    (((OrderedDigest.new.part key).part value).count headers.length)

def recordDigestOrdered (sha256 : List UInt8 → Digest) (key value : Option (List UInt8))
    (headers : List Header) (timestampMs : Int) : Digest :=
  (orderedParts key value headers).finish sha256 timestampMs

end Logweir.Fingerprint
