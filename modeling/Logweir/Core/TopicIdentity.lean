import Logweir.Kafka.Layout
import Logweir.Library.Base64
import Logweir.Receipt.Document

/-!
# Topic identities

`logweir_core::topic_identity`: the text of a topic's ID, and what two points' IDs say about the
generations of the topic.
-/

set_option autoImplicit false

namespace Logweir.TopicIdentities

open Std (ExtTreeMap)
open Logweir.Fingerprint (InI64 bigEndian i64ToBeBytes)
open Logweir.Receipt

def topicIdTextLen : Nat := 22

def isReserved (most least : Int) : Bool := most == 0 && (least == 0 || least == 1)

def topicIdText (most least : Int) : Option String :=
  if isReserved most least then none
  else some (Base64.encode (i64ToBeBytes most ++ i64ToBeBytes least))

/-- `i64::from_be_bytes`. -/
def i64FromBeBytes (bytes : List UInt8) : Int :=
  let n : Nat := bytes.foldl (fun n b => n * 256 + b.toNat) 0
  if n < 2 ^ 63 then (n : Int) else (n : Int) - 2 ^ 64

def topicIdHalves (text : String) : Option (Int × Int) :=
  if text.utf8ByteSize ≠ topicIdTextLen ∨
      !text.toList.all fun c => c.isAlphanum || c == '-' || c == '_' then none
  else
    match Base64.decode text with
    | none => none
    | some bytes =>
        if bytes.length ≠ 16 then none
        else
          let most := i64FromBeBytes (bytes.take 8)
          let least := i64FromBeBytes (bytes.drop 8)
          if topicIdText most least = some text then some (most, least) else none

def isCanonical (text : String) : Bool := (topicIdHalves text).isSome

inductive WithinCapture where
  | unchanged (topicId : String)
  | changed (before after : String)
  | notEstablished
  deriving DecidableEq

inductive Unestablished where
  | noPredecessor
  | otherCluster
  | previousNotRecorded
  | previousUnread (why : String)
  | currentNotRecorded
  | currentUnread (why : String)
  | currentAfterUnread (why : String)
  deriving DecidableEq

inductive Generation where
  | new (previous current : String)
  | changedDuringCapture (before after : String)
  | same (topicId : String)
  | notEstablished (why : Unestablished)
  deriving DecidableEq

def real (id : Option String) : Option String := id.filter isCanonical

def withinCapture (entry : TopicIdentity) : WithinCapture :=
  match real entry.topicId, real entry.topicIdAfter with
  | some before, some after => if before = after then .unchanged before else .changed before after
  | _, _ => .notEstablished

def reasonOf (id reason : Option String) : String :=
  match id with
  | some text =>
      if !isCanonical text then Text.debug text ++ " is not a topic ID" else reason.getD "absent"
  | none => reason.getD "absent"

def byCapture (previous : Option TopicIdentity) (current : TopicIdentity) : Generation :=
  match withinCapture current with
  | .changed before after => .changedDuringCapture before after
  | within =>
      match previous with
      | none => .notEstablished .previousNotRecorded
      | some previous =>
          match real previous.topicId, real current.topicId with
          | none, _ =>
              .notEstablished (.previousUnread (reasonOf previous.topicId previous.topicIdReason))
          | some _, none =>
              .notEstablished (.currentUnread (reasonOf current.topicId current.topicIdReason))
          | some a, some _ =>
              match within with
              | .unchanged _ => .same a
              | _ => .notEstablished
                  (.currentAfterUnread (reasonOf current.topicIdAfter current.topicIdAfterReason))

def byTopicId (previous : Option TopicIdentity) (current : TopicIdentity) : Generation :=
  match previous.bind fun p => real p.topicId, real current.topicId with
  | some a, some b => if a ≠ b then .new a b else byCapture previous current
  | _, _ => byCapture previous current

def entryOf (receipt : BackupReceipt) (topic : String) : Option TopicIdentity :=
  receipt.generations.bind fun entries => entries[topic]?

def between (previous : Option BackupReceipt) (current : BackupReceipt) (topic : String) :
    Generation :=
  match entryOf current topic with
  | none => .notEstablished .currentNotRecorded
  | some entry =>
      match previous with
      | none =>
          match withinCapture entry with
          | .changed before after => .changedDuringCapture before after
          | _ => .notEstablished .noPredecessor
      | some previous =>
          if previous.source.clusterId ≠ current.source.clusterId then
            .notEstablished .otherCluster
          else byTopicId (entryOf previous topic) entry

theorem foldl_bigEndian (w n start : Nat) :
    (bigEndian w n).foldl (fun n b => n * 256 + b.toNat) start = start * 256 ^ w + n % 256 ^ w := by
  induction w generalizing n with
  | zero =>
      rw [bigEndian, List.foldl_nil]
      omega
  | succ w ih =>
      have byte : (UInt8.ofNat n).toNat = n % 256 := by simp
      have split : n % 256 ^ (w + 1) = n / 256 % 256 ^ w * 256 + n % 256 := by
        rw [Nat.pow_succ', Nat.mod_mul]
        omega
      rw [bigEndian, List.foldl_append, ih, List.foldl_cons, List.foldl_nil, byte, split,
        Nat.pow_succ]
      rw [Nat.add_mul, Nat.mul_assoc, Nat.add_assoc]

theorem i64FromBeBytes_toBeBytes {i : Int} (range : InI64 i) :
    i64FromBeBytes (i64ToBeBytes i) = i := by
  unfold InI64 at range
  unfold i64FromBeBytes i64ToBeBytes
  rw [foldl_bigEndian]
  have small : (i % 2 ^ 64).toNat % 256 ^ 8 = (i % 2 ^ 64).toNat := by omega
  rw [small]
  dsimp only
  split
  · omega
  · omega

theorem foldl_lt (bytes : List UInt8) (start : Nat) :
    bytes.foldl (fun n b => n * 256 + b.toNat) start < (start + 1) * 256 ^ bytes.length := by
  induction bytes generalizing start with
  | nil => simp
  | cons b bytes ih =>
      have := b.toNat_lt
      have step := ih (start * 256 + b.toNat)
      rw [List.foldl_cons, List.length_cons, Nat.pow_succ']
      refine Nat.lt_of_lt_of_le step ?_
      rw [← Nat.mul_assoc]
      exact Nat.mul_le_mul_right _ (by omega)

theorem i64FromBeBytes_range {bytes : List UInt8} (eight : bytes.length = 8) :
    InI64 (i64FromBeBytes bytes) := by
  have below := foldl_lt bytes 0
  rw [eight] at below
  unfold i64FromBeBytes InI64
  dsimp only
  split
  · omega
  · omega

theorem topicIdText_shape {most least : Int} {text : String}
    (made : topicIdText most least = some text) :
    isReserved most least = false ∧ text = Base64.encode (i64ToBeBytes most ++ i64ToBeBytes least) := by
  unfold topicIdText at made
  split at made
  · cases made
  · rename_i other
    exact ⟨Bool.not_eq_true _ ▸ other, (Option.some.inj made).symm⟩

theorem symbol_allowed : ∀ n, n < 64 → ((Base64.symbol n).isAlphanum || Base64.symbol n == '-' ||
    Base64.symbol n == '_') = true := by decide

theorem topicIdHalves_text {most least : Int} {text : String} (range : InI64 most)
    (range' : InI64 least) (made : topicIdText most least = some text) :
    topicIdHalves text = some (most, least) := by
  obtain ⟨_, rfl⟩ := topicIdText_shape made
  have eight : (i64ToBeBytes most).length = 8 := Fingerprint.length_bigEndian 8 _
  have eight' : (i64ToBeBytes least).length = 8 := Fingerprint.length_bigEndian 8 _
  have size : (Base64.encode (i64ToBeBytes most ++ i64ToBeBytes least)).utf8ByteSize =
      topicIdTextLen := by
    rw [Base64.utf8ByteSize_encode, List.length_append, eight, eight']
    rfl
  have allowed : ((Base64.encode (i64ToBeBytes most ++ i64ToBeBytes least)).toList.all fun c =>
      c.isAlphanum || c == '-' || c == '_') = true := by
    rw [List.all_eq_true, Base64.encode, String.toList_ofList]
    intro c member
    obtain ⟨n, small, rfl⟩ := Base64.mem_encodeChars _ c member
    exact symbol_allowed n small
  unfold topicIdHalves
  rw [if_neg (by simp [size, allowed]), Base64.decode_encode]
  dsimp only
  rw [if_neg (by simp [eight, eight']), List.take_left' eight, List.drop_left' eight,
    i64FromBeBytes_toBeBytes range, i64FromBeBytes_toBeBytes range', made, if_pos rfl]

theorem topicIdText_halves {most least : Int} {text : String}
    (read : topicIdHalves text = some (most, least)) :
    topicIdText most least = some text ∧ InI64 most ∧ InI64 least := by
  unfold topicIdHalves at read
  split at read
  · cases read
  · split at read
    · cases read
    · rename_i bytes decoded
      split at read
      · cases read
      · rename_i sixteen
        dsimp only at read
        split at read
        · rename_i again
          obtain ⟨rfl, rfl⟩ := Prod.mk.inj (Option.some.inj read)
          rw [ne_eq, not_not] at sixteen
          exact ⟨again, i64FromBeBytes_range (by simp [sixteen]),
            i64FromBeBytes_range (by simp [sixteen])⟩
        · cases read

theorem isCanonical_iff {text : String} :
    isCanonical text = true ↔ ∃ most least, topicIdHalves text = some (most, least) := by
  rw [isCanonical, Option.isSome_iff_exists, Prod.exists]

def Identifies (id : Option String) (a : String) : Prop := id = some a ∧ isCanonical a = true

theorem real_eq_some {id : Option String} {a : String} : real id = some a ↔ Identifies id a :=
  Option.filter_eq_some_iff

theorem withinCapture_changed {entry : TopicIdentity} {a b : String} :
    withinCapture entry = .changed a b ↔
      Identifies entry.topicId a ∧ Identifies entry.topicIdAfter b ∧ a ≠ b := by
  rw [← real_eq_some, ← real_eq_some]
  unfold withinCapture
  split
  · rename_i before after first second
    rw [first, second, Option.some.injEq, Option.some.injEq]
    split
    · rename_i same
      simp only [reduceCtorEq, false_iff]
      rintro ⟨rfl, rfl, differ⟩
      exact differ same
    · rename_i differ
      rw [WithinCapture.changed.injEq]
      constructor
      · rintro ⟨rfl, rfl⟩
        exact ⟨rfl, rfl, differ⟩
      · exact fun ⟨one, two, _⟩ => ⟨one, two⟩
  · rename_i other
    simp only [reduceCtorEq, false_iff]
    exact fun ⟨first, second, _⟩ => other a b first second

/-- The IDs of two entries before their captures differ. -/
def Recreated (previous : Option TopicIdentity) (current : TopicIdentity) (a b : String) : Prop :=
  (∃ p, previous = some p ∧ Identifies p.topicId a) ∧ Identifies current.topicId b ∧ a ≠ b

/-- What a verdict on two entries stands for; there is no fourth one besides `notEstablished`. -/
structure Stands (previous : Option TopicIdentity) (current : TopicIdentity) (g : Generation) :
    Prop where
  same : ∀ a, g = .same a ↔ (∃ p, previous = some p ∧ Identifies p.topicId a) ∧
    Identifies current.topicId a ∧ Identifies current.topicIdAfter a
  new : ∀ a b, g = .new a b ↔ Recreated previous current a b
  changed : ∀ a b, g = .changedDuringCapture a b ↔ Identifies current.topicId a ∧
    Identifies current.topicIdAfter b ∧ a ≠ b ∧ ∀ c d, ¬ Recreated previous current c d

theorem exists_identifies {previous : Option TopicIdentity} {a : String} :
    (∃ p, previous = some p ∧ Identifies p.topicId a) ↔
      (previous.bind fun p => real p.topicId) = some a := by
  rw [Option.bind_eq_some_iff]
  simp only [real_eq_some]

theorem byTopicId_stands (previous : Option TopicIdentity) (current : TopicIdentity) :
    Stands previous current (byTopicId previous current) := by
  unfold byTopicId byCapture withinCapture
  constructor
  · intro a
    rw [exists_identifies, ← real_eq_some, ← real_eq_some]
    grind
  · intro a b
    rw [Recreated, exists_identifies, ← real_eq_some]
    grind
  · intro a b
    simp only [Recreated, exists_identifies, ← real_eq_some]
    grind

/-- What a verdict on a topic of two points stands for. -/
structure StandsBetween (previous : Option BackupReceipt) (current : BackupReceipt) (topic : String)
    (g : Generation) : Prop where
  same : ∀ a, g = .same a ↔ ∃ p e, previous = some p ∧
    p.source.clusterId = current.source.clusterId ∧ entryOf current topic = some e ∧
      (∃ e', entryOf p topic = some e' ∧ Identifies e'.topicId a) ∧
        Identifies e.topicId a ∧ Identifies e.topicIdAfter a
  new : ∀ a b, g = .new a b ↔ ∃ p e, previous = some p ∧
    p.source.clusterId = current.source.clusterId ∧ entryOf current topic = some e ∧
      Recreated (entryOf p topic) e a b
  changed : ∀ a b, g = .changedDuringCapture a b ↔ ∃ e, entryOf current topic = some e ∧
    Identifies e.topicId a ∧ Identifies e.topicIdAfter b ∧ a ≠ b ∧
      ∀ p, previous = some p → p.source.clusterId = current.source.clusterId ∧
        ∀ c d, ¬ Recreated (entryOf p topic) e c d

theorem between_stands (previous : Option BackupReceipt) (current : BackupReceipt)
    (topic : String) : StandsBetween previous current topic (between previous current topic) := by
  unfold between
  cases named : entryOf current topic with
  | none => constructor <;> simp [named]
  | some e =>
      cases previous with
      | none =>
          have verdict : ∀ a b, withinCapture e = .changed a b ↔ _ := fun a b =>
            withinCapture_changed
          dsimp only
          cases within : withinCapture e with
          | changed before after =>
              have only : ∀ a b, Identifies e.topicId a ∧ Identifies e.topicIdAfter b ∧ a ≠ b ↔
                  before = a ∧ after = b := by
                intro a b
                rw [← verdict a b, within, WithinCapture.changed.injEq]
              constructor <;> simp [named, ← only, and_assoc]
          | unchanged id =>
              have none_ : ∀ a b, ¬ (Identifies e.topicId a ∧ Identifies e.topicIdAfter b ∧ a ≠ b) :=
                fun a b is => by simp [(verdict a b).mpr is] at within
              constructor <;> simp [named] <;> grind
          | notEstablished =>
              have none_ : ∀ a b, ¬ (Identifies e.topicId a ∧ Identifies e.topicIdAfter b ∧ a ≠ b) :=
                fun a b is => by simp [(verdict a b).mpr is] at within
              constructor <;> simp [named] <;> grind
      | some p =>
          dsimp only
          split
          · rename_i other
            constructor <;> simp [other]
          · rename_i together
            rw [ne_eq, not_not] at together
            have entries := byTopicId_stands (entryOf p topic) e
            constructor
            · intro a
              simp [entries.same, named, together]
            · intro a b
              simp [entries.new, named, together]
            · intro a b
              simp [entries.changed, named, together]

/-- The pairs of halves that no topic is denied and the canonical texts stand for each other, and a
verdict on two points names the IDs that it rests on. -/
theorem generations_never_merged :
    (∀ most least, InI64 most → InI64 least → isReserved most least = false →
      ∃ text, topicIdText most least = some text ∧ isCanonical text = true ∧
        topicIdHalves text = some (most, least)) ∧
    (∀ text, isCanonical text = true → ∃ most least, InI64 most ∧ InI64 least ∧
      isReserved most least = false ∧ topicIdHalves text = some (most, least) ∧
        topicIdText most least = some text) ∧
    (∀ previous current, Stands previous current (byTopicId previous current)) ∧
    ∀ previous current topic,
      StandsBetween previous current topic (between previous current topic) := by
  refine ⟨fun most least range range' free => ?_, fun text canonical => ?_, byTopicId_stands,
    between_stands⟩
  · have made : topicIdText most least =
        some (Base64.encode (i64ToBeBytes most ++ i64ToBeBytes least)) := by
      rw [topicIdText, free]
      rfl
    have read := topicIdHalves_text range range' made
    exact ⟨_, made, isCanonical_iff.mpr ⟨most, least, read⟩, read⟩
  · obtain ⟨most, least, read⟩ := isCanonical_iff.mp canonical
    obtain ⟨made, range, range'⟩ := topicIdText_halves read
    exact ⟨most, least, range, range', (topicIdText_shape made).1, read, made⟩

/-- A receipt of one cluster that records one ID of the topic `orders`. -/
def ordersReceipt (clusterId topicId : String) : BackupReceipt where
  formatVersion := "1.6.0"
  runId := "run"
  backupId := "backup"
  requestedAt := 0
  startedAt := 0
  finishedAt := 0
  exitCode := 0
  triggeredBy := "schedule"
  source :=
    { clusterId
      bootstrapServers := []
      auth := { mode := "none", username := none }
      topics := ["orders"] }
  engine := { id := "kbak", version := "1", digest := "" }
  archive := { manifestKey := "", manifestSha256 := "", manifestVersionId := none, pathPrefix := "" }
  records := ∅
  covered := { fromMs := 0, toMs := 0 }
  configCoverage := none
  topicConfiguration := none
  ownerDetection := none
  schemaDependency := none
  generations := some (Std.ExtTreeMap.insert ∅ "orders"
    { topicId := some topicId
      topicIdAfter := some topicId
      topicIdSource := some "describeTopics"
      topicIdReason := none
      topicIdAfterReason := none })
  consumerPositions := none
  sourceWatermarks := none
  schemaRegistry := none

/-- Two points of different clusters are no generations of one topic. -/
theorem between_other_cluster :
    ¬ ∀ (previous current : BackupReceipt) (topic : String) (e e' : TopicIdentity) (a b : String),
      entryOf previous topic = some e → entryOf current topic = some e' →
        (between (some previous) current topic = .new a b ↔
          Identifies e.topicId a ∧ Identifies e'.topicId b ∧ a ≠ b) := by
  intro new
  have entry : ∀ clusterId id, entryOf (ordersReceipt clusterId id) "orders" = some
      { topicId := some id
        topicIdAfter := some id
        topicIdSource := some "describeTopics"
        topicIdReason := none
        topicIdAfterReason := none } := by
    intro clusterId id
    simp [entryOf, ordersReceipt]
  have made := (new (ordersReceipt "one" "gtOq2VXiTCK1QM2UtERijA")
    (ordersReceipt "two" "tpWwuKExQo2lN9NziDMpYg") "orders" _ _ _ _ (entry _ _) (entry _ _)).mpr
      ⟨⟨rfl, by decide +kernel⟩, ⟨rfl, by decide +kernel⟩, by decide⟩
  rw [between, entry] at made
  simp [ordersReceipt] at made

end Logweir.TopicIdentities
