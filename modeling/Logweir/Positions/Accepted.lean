import Logweir.Positions.Document
import Logweir.Positions.Mapped

/-!
# What the writer writes, the readers accept

Over a receipt in the shape its arms guarantee and the scans of a passing
complete verification, the document `build` makes and the block it is bound by
pass `check_block` and `validate_document`.
-/

set_option autoImplicit false

namespace Logweir.PositionsMapping

open Std (ExtTreeMap ExtTreeSet)
open Logweir.Json Logweir.Text Logweir.Fingerprint Logweir.TreeMaps Logweir.Results
open Logweir.Complete Logweir.ReplaySelection Logweir.Kbak

/-- A position entry as arms CP-12 and CP-13 leave it. -/
structure EntryShape (e : PositionEntry) : Prop where
  captured : e.status = "captured" → e.position.isSome = true ∧ ∃ word, e.coverage = some word ∧
    word ≠ ""
  excluded : e.status = "excluded" → e.reason = some positionBeyondEnd
  others : e.status ≠ "captured" → e.status ≠ "excluded" → ∃ why, e.reason = some why ∧ why ≠ ""

/-- A receipt's block and its positions document as arms 31, 33 and CP-8 leave them. -/
structure ReceiptShape (receipt : ConsumerPositions) (document : PositionsDocument) : Prop where
  selects : receipt.groups.size ≠ 0
  present : ∀ (id : String) (snap : GroupSnapshot), receipt.groups[id]? = some snap → snap.outcome = "captured" →
    ∃ g : GroupPositions, document.groups[id]? = some g
  named : ∀ (id : String) (snap : GroupSnapshot), receipt.groups[id]? = some snap → snap.outcome ≠ "captured" →
    snap.reason.getD snap.outcome ≠ ""
  entries : ∀ (id : String) (g : GroupPositions), document.groups[id]? = some g →
    ∀ e ∈ g.positions, EntryShape e

/-- Some group's position was captured at `p` of a partition. -/
def CapturedAt (document : PositionsDocument) (key : String × Int) (p : Int) : Prop :=
  ∃ (id : String) (g : GroupPositions), document.groups[id]? = some g ∧ ∃ e ∈ g.positions,
    e.status = "captured" ∧ e.position = some p ∧ (e.topic, (e.partition : Int)) = key

/-- The scans of a passing complete verification: each on a verified partition in
its mapped topic, with an answer for every captured position; a verified
partition without one has no captured position. -/
structure PassingScans (mapping : ExtTreeMap String String) (document : PositionsDocument)
    (scans : Scans) (verified : VerifiedPartitions) : Prop where
  lands : ∀ (key : String × Int) (scan : PartitionScan), scans[key]? = some scan →
    ∃ t : String, mapping[key.1]? = some t ∧ verified[key]? = some t
  answers : ∀ (key : String × Int) (scan : PartitionScan), scans[key]? = some scan →
    ∀ p, CapturedAt document key p → ∃ found : Found, scan.found[p]? = some found ∧
      0 ≤ found.target scan.highWatermark
  unprobed : ∀ (key : String × Int) (t : String), verified[key]? = some t → scans[key]? = none →
    ∀ p, ¬ CapturedAt document key p

theorem isUnavailableReason_notCaptured (why : String) (named : why ≠ "") :
    isUnavailableReason s!"{notCaptured}: {why}" = true := by
  have text : s!"{notCaptured}: {why}" = notCaptured ++ ": " ++ why := rfl
  rw [isUnavailableReason, text, Bool.or_eq_true]
  right
  have longer : 0 < why.length := Nat.pos_of_ne_zero fun none =>
    named (String.length_eq_zero_iff.mp none)
  have starts : (notCaptured ++ ": ").toList <+: (notCaptured ++ ": " ++ why).toList := by
    rw [String.toList_append (s := notCaptured ++ ": ")]
    exact List.prefix_append _ _
  rw [Bool.and_eq_true, List.isPrefixOf_iff_prefix, decide_eq_true_eq,
    String.length_append (notCaptured ++ ": ")]
  exact ⟨starts, by omega⟩

theorem notCaptured_prefix (why : String) :
    notCaptured.toList.isPrefixOf s!"{notCaptured}: {why}".toList = true := by
  have text : s!"{notCaptured}: {why}" = notCaptured ++ (": " ++ why) := String.append_assoc ..
  rw [text, String.toList_append, List.isPrefixOf_iff_prefix]
  exact List.prefix_append _ _

theorem notCaptured_ne_notRestored (why : String) :
    s!"{notCaptured}: {why}" ≠ partitionNotRestored := by
  intro same
  have starts := notCaptured_prefix why
  rw [same] at starts
  exact absurd starts (by decide)

theorem coverageReason_spec (word : String) (named : word ≠ "") :
    isUnavailableReason (coverageReason word) = true ∧
      coverageReason word ≠ partitionNotRestored := by
  unfold coverageReason
  split
  · decide
  · split
    · decide
    · split
      · decide
      · split
        · decide
        · exact ⟨isUnavailableReason_notCaptured word named, notCaptured_ne_notRestored word⟩

/-- What the two readers ask of an entry, and where it came from. -/
structure EntryAccepted (verified : VerifiedPartitions) (e : PositionEntry) (m : MappingEntry) :
    Prop where
  topic : m.topic = e.topic
  partition : m.partition = e.partition
  position : m.position = e.position
  fits : entryFits m = true
  lands : entryLands verified m = true

variable (verified : VerifiedPartitions)

theorem refused_accepted (e : PositionEntry) (targetTopic : Option String) (why : String)
    (reason : isUnavailableReason why = true)
    (restored : why = partitionNotRestored → verified[(e.topic, (e.partition : Int))]? = none) :
    EntryAccepted verified e ((baseEntry e targetTopic).refused why) := by
  refine ⟨rfl, rfl, rfl, ?_, ?_⟩
  · simp [entryFits, MappingEntry.refused, unavailable_ne_exact, unavailable_ne_approximate, reason]
  · by_cases same : why = partitionNotRestored
    · simp [entryLands, MappingEntry.refused, baseEntry, restored same]
    · simp [entryLands, MappingEntry.refused, same]

theorem mapped_accepted (e : PositionEntry) (target : String) (m : MappingEntry)
    (topic : m.topic = e.topic) (partition : m.partition = e.partition)
    (position : m.position = e.position) (into : m.targetTopic = some target)
    (landed : verified[(e.topic, (e.partition : Int))]? = some target)
    (class' : m.class_ = exact ∨ m.class_ = approximate) (fits : entryFits m = true) :
    EntryAccepted verified e m := by
  have mapped : m.class_ ≠ unavailable := by
    rcases class' with is | is
    · rw [is]
      exact unavailable_ne_exact.symm
    · rw [is]
      exact unavailable_ne_approximate.symm
  refine ⟨topic, partition, position, fits, ?_⟩
  simp [entryLands, mapped, topic, partition, landed, into]

theorem mapFound_accepted (e : PositionEntry) (target : String) (scan : PartitionScan) (p : Int)
    (found : Found) (landed : verified[(e.topic, (e.partition : Int))]? = some target)
    (above : 0 ≤ found.target scan.highWatermark) :
    EntryAccepted verified e (mapFound (baseEntry e (some target)) scan p found) := by
  rw [mapFound_eq]
  split
  · exact refused_accepted verified e _ archiveGap (by decide) (fun h => absurd h (by decide))
  · by_cases none : countIn scan.excluded p found.upper = 0
    · simp only [if_pos none]
      refine mapped_accepted verified e target _ rfl rfl rfl rfl landed (.inl rfl) ?_
      simp [entryFits, baseEntry, above]
    · simp only [if_neg none]
      refine mapped_accepted verified e target _ rfl rfl rfl rfl landed (.inr rfl) ?_
      have some' : 1 ≤ countIn scan.excluded p found.upper := Nat.pos_of_ne_zero none
      simp [entryFits, exact_ne_approximate.symm, above, some']

theorem classifyEntry_accepted (document : PositionsDocument) (mapping : ExtTreeMap String String)
    (scans : Scans) (passing : PassingScans mapping document scans verified) (e : PositionEntry)
    (shape : EntryShape e)
    (held : ∀ p, e.status = "captured" → e.position = some p →
      CapturedAt document (e.topic, (e.partition : Int)) p)
    (capture : Option PartitionFacts) (transactional : Bool) :
    EntryAccepted verified e (classifyEntry e capture (mapping[e.topic]?)
      (scans[(e.topic, (e.partition : Int))]?) transactional) := by
  unfold classifyEntry
  cases transactional with
  | true =>
      exact refused_accepted verified e _ transactionalArchive (by decide)
        (fun h => absurd h (by decide))
  | false =>
      simp only [Bool.false_eq_true, if_false]
      by_cases out : e.status = "excluded"
      · rw [if_pos out, shape.excluded out]
        exact refused_accepted verified e _ positionBeyondEnd (by decide)
          (fun h => absurd h (by decide))
      · rw [if_neg out]
        by_cases kept : e.status = "captured"
        · rw [if_neg (not_not_intro kept)]
          obtain ⟨present, word, covered, named⟩ := shape.captured kept
          obtain ⟨p, at'⟩ := Option.isSome_iff_exists.mp present
          have here := held p kept at'
          cases scanned : scans[(e.topic, (e.partition : Int))]? with
          | none =>
              have apart : verified[(e.topic, (e.partition : Int))]? = none := by
                cases landed : verified[(e.topic, (e.partition : Int))]? with
                | none => rfl
                | some t => exact absurd here (passing.unprobed _ t landed scanned p)
              have refused : EntryAccepted verified e
                  ((baseEntry e (mapping[e.topic]?)).refused partitionNotRestored) :=
                refused_accepted verified e _ partitionNotRestored (by decide) fun _ => apart
              simp only [at']
              cases mapped : mapping[e.topic]? <;> rwa [mapped] at refused
          | some scan =>
              obtain ⟨t, mapped, landed⟩ := passing.lands _ scan scanned
              obtain ⟨found, answered, above⟩ := passing.answers _ scan scanned p here
              simp only [at', mapped, covered, Option.getD_some, answered]
              split
              · exact mapFound_accepted verified e t scan p found landed above
              · split
                · exact mapped_accepted verified e t _ rfl rfl rfl rfl landed (.inl rfl)
                    (by simp [entryFits, baseEntry])
                · obtain ⟨legal, other⟩ := coverageReason_spec word named
                  exact refused_accepted verified e _ _ legal fun h => absurd h other
        · rw [if_pos kept]
          obtain ⟨why, reason, named⟩ := shape.others kept out
          simp only [reason, Option.getD_some]
          exact refused_accepted verified e _ _ (isUnavailableReason_notCaptured why named)
            (fun h => absurd h (notCaptured_ne_notRestored why))

theorem build_groups (i : MapInputs) (id : String) :
    (build i).groups[id]? = (i.receipt.groups[id]?).map (i.group id) :=
  getElem?_rebuilt i.group i.receipt.groups id

theorem counts_total (l : List MappingEntry) : ∀ c : MappingCounts,
    (l.foldl MappingCounts.count c).exact + (l.foldl MappingCounts.count c).approximate +
      (l.foldl MappingCounts.count c).unavailable =
        c.exact + c.approximate + c.unavailable + l.length := by
  induction l with
  | nil => exact fun c => rfl
  | cons e l ih =>
      intro c
      rw [List.foldl_cons, ih, List.length_cons]
      unfold MappingCounts.count
      split
      · simp only
        omega
      · split <;> simp only <;> omega

theorem groups_le_toBytes (doc : MappingDocument) : doc.groups.size ≤ doc.toBytes.length := by
  have groups : ("groups", Json.obj (doc.groups.toList.map fun p => (p.1, p.2.toJson))) ∈
      doc.members := by simp [MappingDocument.members]
  calc doc.groups.size
      = (doc.groups.toList.map fun p => (p.1, p.2.toJson)).length := by
        rw [List.length_map, ExtTreeMap.length_toList]
    _ ≤ (pretty 1 (.obj (doc.groups.toList.map fun p => (p.1, p.2.toJson)))).length :=
        length_le_pretty 1 _
    _ ≤ (prettyMembers 1 doc.members).length := length_member_le 1 "groups" _ _ groups
    _ ≤ (pretty 0 (.obj doc.members)).length := length_prettyMembers_le 0 _
    _ ≤ doc.toBytes.length := Nat.le_of_lt (length_lt_toDeterministicJson _)

theorem sha256Prefixed_wellFormed (sha256 : List UInt8 → Digest) (bytes : List UInt8) :
    isSha256Prefixed (sha256Prefixed sha256 bytes) = true := by
  have text : (sha256Prefixed sha256 bytes).toList =
      "sha256:".toList ++ (hexEncode (sha256 bytes).toList).toList := String.toList_append
  have size : (hexEncode (sha256 bytes).toList).toList.length = 64 := by
    rw [String.length_toList, length_hexEncode, Vector.length_toList]
  have digits : (hexEncode (sha256 bytes).toList).toList.all (fun c =>
      c.isDigit || (decide ('a' ≤ c) && decide (c ≤ 'f'))) = true :=
    List.all_eq_true.mpr (hexEncode_lower _)
  rw [isSha256Prefixed, text, List.drop_left' (by decide), Bool.and_eq_true,
    List.isPrefixOf_iff_prefix, Bool.and_eq_true, beq_iff_eq]
  exact ⟨List.prefix_append _ _, size, digits⟩

theorem entries_accepted (i : MapInputs) (shape : ReceiptShape i.receipt i.document)
    (passing : PassingScans i.topicMapping i.document i.scans verified) (id : String)
    (g : GroupPositions) (listed : i.document.groups[id]? = some g) :
    ∀ e ∈ g.positions, EntryAccepted verified e (i.entry e) := fun e he =>
  classifyEntry_accepted verified i.document i.topicMapping i.scans passing e
    (shape.entries id g listed e he)
    (fun _ kept position => ⟨id, g, listed, e, he, kept, position, rfl⟩) _ _

theorem group_accepted (i : MapInputs) (shape : ReceiptShape i.receipt i.document)
    (passing : PassingScans i.topicMapping i.document i.scans verified) (id : String)
    (snap : GroupSnapshot) (recorded : i.receipt.groups[id]? = some snap) :
    checkGroup verified id (i.group id snap) = .ok () := by
  unfold MapInputs.group checkGroup
  by_cases kept : snap.outcome = "captured"
  · obtain ⟨g, listed⟩ := shape.present id snap recorded kept
    simp only [if_pos kept, listed, Option.any_none, Bool.false_eq_true, if_false]
    refine forM_ok _ fun m hm => ?_
    obtain ⟨e, he, rfl⟩ := List.mem_map.mp hm
    have accepted := entries_accepted verified i shape passing id g listed e he
    simp [checkEntry, accepted.fits, accepted.lands]
  · have named := shape.named id snap recorded kept
    simp [if_neg kept, isUnavailableReason_notCaptured _ named]
    rfl

theorem build_size (i : MapInputs) : (build i).groups.size = i.receipt.groups.size :=
  (congrArg ExtTreeMap.size (rebuilt_eq_map i.group i.receipt.groups)).trans ExtTreeMap.size_map

theorem block_accepted (sha256 : List UInt8 → Digest) (doc : MappingDocument)
    (selects : doc.groups.size ≠ 0) :
    checkBlock (doc.block sha256).1 ⟨doc.runId, true, true, true, true⟩ = .ok () := by
  have counted : (if doc.groups.size ≤ u32Max then doc.groups.size else u32Max) ≠ 0 := by
    split
    · exact selects
    · decide
  unfold MappingDocument.block checkBlock
  by_cases above : maxDocumentBytes < doc.toBytes.length
  · simp [if_pos above, omittedReasons, counted]
  · have bytes := groups_le_toBytes doc
    have fits : doc.toBytes.length ≠ 0 := by omega
    have some' : doc.toBytes ≠ [] := fun none => fits (congrArg List.length none)
    simp [if_neg above, sha256Prefixed_wellFormed, counted, some']

theorem block_writes (sha256 : List UInt8 → Digest) (doc : MappingDocument)
    (under : doc.toBytes.length ≤ maxDocumentBytes) :
    (doc.block sha256).2 = some doc.toBytes := by
  simp only [MappingDocument.block, if_neg (Nat.not_lt.mpr under)]

theorem document_accepted (sha256 : List UInt8 → Digest) (doc : MappingDocument)
    (format : doc.formatVersion = documentFormatVersion) (ruled : doc.rule = rule)
    (groups : ∀ (id : String) (g : GroupMapping), doc.groups[id]? = some g →
      checkGroup verified id g = .ok ())
    (bytes : List UInt8) (written : (doc.block sha256).2 = some bytes) :
    validateDocument sha256 (doc.block sha256).1 doc.runId verified bytes doc = .ok () := by
  unfold MappingDocument.block at written ⊢
  by_cases above : maxDocumentBytes < doc.toBytes.length
  · rw [if_pos above] at written
    cases written
  · rw [if_neg above] at written
    cases written
    have major : doc.formatVersion.toList.takeWhile (fun c => c != '.') = ['1'] := by
      rw [format]
      decide
    -- A document under the cap has too few groups to reach the counter's end.
    have few : doc.groups.size ≤ u32Max := by
      have := groups_le_toBytes doc
      have : maxDocumentBytes ≤ u32Max := by decide
      omega
    simp only [if_neg above, validateDocument, major, ruled, if_pos few, ne_eq, not_true_eq_false,
      or_self, if_false]
    refine forM_ok _ fun e he => ?_
    exact groups e.1 e.2 (ExtTreeMap.mem_toList_iff_getElem?_eq_some.mp he)

/-- For every receipt and positions document in the shape the arms guarantee and
every set of scans of a passing complete verification, the block is accepted
and, when a document is written, so is the document: a group for every selected
group, an entry for every position entry in order, and counts that add up. -/
theorem mapping_accepted (sha256 : List UInt8 → Digest) (i : MapInputs)
    (shape : ReceiptShape i.receipt i.document)
    (passing : PassingScans i.topicMapping i.document i.scans verified) :
    checkBlock ((build i).block sha256).1 ⟨i.runId, true, true, true, true⟩ = .ok () ∧
    (∀ bytes, ((build i).block sha256).2 = some bytes →
      validateDocument sha256 ((build i).block sha256).1 i.runId verified bytes (build i) =
        .ok ()) ∧
    (∀ id : String, ((build i).groups[id]?).isSome = (i.receipt.groups[id]?).isSome) ∧
    (∀ (id : String) (snap : GroupSnapshot), i.receipt.groups[id]? = some snap →
      snap.outcome = "captured" →
      ∃ (g : GroupPositions) (m : GroupMapping), i.document.groups[id]? = some g ∧
        (build i).groups[id]? = some m ∧
        m.entries.map (fun e => (e.topic, e.partition, e.position)) =
          g.positions.map fun e => (e.topic, e.partition, e.position)) ∧
    ((build i).block sha256).1.counts = (build i).counts ∧
    (build i).counts.exact + (build i).counts.approximate + (build i).counts.unavailable =
      (build i).entries.length := by
  have selects : (build i).groups.size ≠ 0 := by
    rw [build_size]
    exact shape.selects
  refine ⟨block_accepted sha256 (build i) selects, fun bytes written => ?_, fun id => ?_,
    fun id snap recorded kept => ?_, ?_, ?_⟩
  · refine document_accepted verified sha256 (build i) rfl rfl (fun id g mapped => ?_) bytes written
    rw [build_groups] at mapped
    obtain ⟨snap, recorded, rfl⟩ := Option.map_eq_some_iff.mp mapped
    exact group_accepted verified i shape passing id snap recorded
  · rw [build_groups, Option.isSome_map]
  · obtain ⟨g, listed⟩ := shape.present id snap recorded kept
    refine ⟨g, i.group id snap, listed, ?_, ?_⟩
    · rw [build_groups, recorded]
      rfl
    · simp only [MapInputs.group, if_pos kept, listed, List.map_map]
      refine List.map_congr_left fun e he => ?_
      have accepted := entries_accepted verified i shape passing id g listed e he
      simp only [Function.comp_apply, accepted.topic, accepted.partition, accepted.position]
  · unfold MappingDocument.block
    simp only
    split <;> rfl
  · have total := counts_total (build i).entries {}
    simpa [MappingDocument.counts] using total

def verifiedOf (block : CompleteVerification) : VerifiedPartitions :=
  block.partitions.foldl (fun m p => m.insert (p.topic, p.partition) p.targetTopic) ∅

theorem probeEntry_probes (out : Probes) (e : PositionEntry) (key : String × Int) (p : Int)
    (probed : (∃ ps, out[key]? = some ps ∧ p ∈ ps) ∨
      (e.status = "captured" ∧ e.position = some p ∧ (e.topic, (e.partition : Int)) = key)) :
    ∃ ps, (probeEntry out e)[key]? = some ps ∧ p ∈ ps := by
  unfold probeEntry
  cases kept : (if e.status = "captured" then e.position else none) with
  | none =>
      rcases probed with old | ⟨status, position, _⟩
      · exact old
      · rw [if_pos status, position] at kept
        cases kept
  | some q =>
      by_cases here : (e.topic, (e.partition : Int)) = key
      · refine ⟨_, by rw [ExtTreeMap.getElem?_insert, here, if_pos Std.ReflCmp.compare_self], ?_⟩
        rw [ExtTreeSet.mem_insert]
        rcases probed with ⟨ps, held, mem⟩ | ⟨status, position, _⟩
        · right
          rw [held]
          exact mem
        · left
          rw [if_pos status, position] at kept
          cases kept
          exact Std.ReflCmp.compare_self
      · rcases probed with ⟨ps, held, mem⟩ | ⟨_, _, same⟩
        · have apart : Complete.partCmp (e.topic, (e.partition : Int)) key ≠ .eq :=
            fun h => here (Std.LawfulEqCmp.eq_of_compare h)
          exact ⟨ps, by rw [ExtTreeMap.getElem?_insert, if_neg apart, held], mem⟩
        · exact absurd same here

theorem probes_spec (document : PositionsDocument) (key : String × Int) (p : Int)
    (captured : CapturedAt document key p) :
    ∃ ps, (probes document)[key]? = some ps ∧ p ∈ ps := by
  have fold : ∀ (l : List PositionEntry) (out : Probes),
      ((∃ ps, out[key]? = some ps ∧ p ∈ ps) ∨ ∃ e ∈ l, e.status = "captured" ∧
        e.position = some p ∧ (e.topic, (e.partition : Int)) = key) →
      ∃ ps, (l.foldl probeEntry out)[key]? = some ps ∧ p ∈ ps := by
    intro l
    induction l with
    | nil =>
        rintro out (held | ⟨e, none, _⟩)
        · exact held
        · cases none
    | cons e l ih =>
        rintro out held
        rw [List.foldl_cons]
        apply ih
        rcases held with old | ⟨e', mem, here⟩
        · exact .inl (probeEntry_probes out e key p (.inl old))
        · rcases List.mem_cons.mp mem with rfl | later
          · exact .inl (probeEntry_probes out e' key p (.inr here))
          · exact .inr ⟨e', later, here⟩
  obtain ⟨id, g, listed, e, he, here⟩ := captured
  apply fold _ ∅ (.inr ⟨e, ?_, here⟩)
  exact List.mem_flatMap.mpr
    ⟨(id, g), ExtTreeMap.mem_toList_iff_getElem?_eq_some.mpr listed, he⟩

section Lane
variable {ζ : Type} (sha256 : List UInt8 → Digest) (zstd : ZstdStream ζ)

/-- A reader of targets that are only read: no high watermark is negative, and
every partition is handed out whole below it. -/
def Answers (reader : ClusterReader) : Prop :=
  ∀ (target : String) (pid : Int) (ends : ExtTreeMap Int Int), endsOf reader target = .ok ends →
    (0 : Int) ≤ (ends[pid]?).getD 0 ∧ ∃ log, Reads reader target pid ((ends[pid]?).getD 0) 0 log

theorem target_nonneg (log : List ConsumedRecord) (p hi : Int) (start : ∀ c ∈ log, 0 ≤ c.offset)
    (high : 0 ≤ hi) : 0 ≤ (answerFor log p).target hi := by
  unfold answerFor firstAtOrAbove
  split
  · rename_i o found
    obtain ⟨c, hc, eq⟩ := List.mem_filterMap.mp (List.mem_of_find?_eq_some found)
    obtain ⟨lineage, _, rfl⟩ := Option.map_eq_some_iff.mp eq
    exact start c hc
  · exact high

theorem reads_some {reader : ClusterReader} {target : String} {pid hi : Int}
    {log : List ConsumedRecord} (reads : Reads reader target pid hi 0 log) (holds : 0 < hi) :
    log ≠ [] := by
  cases reads with
  | done ended => omega
  | @more _ chunk rest last _ _ final _ _ _ =>
      intro none
      rw [(List.append_eq_nil_iff.mp none).1] at final
      cases final

theorem verifiedOf_parts (block : CompleteVerification) (parts : Parts)
    (same : block.partitions.map (fun p => ((p.topic, p.partition), p.targetTopic)) =
      parts.toList.map fun part => (part.1, part.2.1)) (key : String × Int) (t : String) :
    (verifiedOf block)[key]? = some t ↔ ∃ part ∈ parts.toList, part.1 = key ∧ part.2.1 = t := by
  have table : verifiedOf block = (parts.toList.map fun part => (part.1, part.2.1)).foldl
      (fun m e => m.insert e.1 ((fun _ t => t) e.1 e.2)) ∅ := by
    rw [verifiedOf, ← same, List.foldl_map]
  have sorted : (parts.toList.map fun part => (part.1, part.2.1)).Pairwise
      fun a b => partCmp a.1 b.1 = .lt :=
    List.pairwise_map.mpr ExtTreeMap.ordered_keys_toList
  obtain ⟨inside, outside⟩ := getElem?_foldl_entries (fun (_ : String × Int) (t : String) => t) key _
    (∅ : VerifiedPartitions) sorted
  rw [table]
  constructor
  · intro found
    by_cases listed : ∃ b, (key, b) ∈ parts.toList.map fun part => (part.1, part.2.1)
    · obtain ⟨b, hb⟩ := listed
      rw [inside b hb] at found
      cases found
      obtain ⟨part, hpart, eq⟩ := List.mem_map.mp hb
      exact ⟨part, hpart, congrArg Prod.fst eq, congrArg Prod.snd eq⟩
    · rw [outside fun b hb => listed ⟨b, hb⟩] at found
      simp at found
  · rintro ⟨part, hpart, rfl, rfl⟩
    exact inside part.2.1 (List.mem_map.mpr ⟨part, hpart, rfl⟩)

theorem run_passing_scans (reader : ClusterReader) (store : Store)
    (facts : Engine.BackupSetFacts) (listed : List (String × Int))
    (mapping : ExtTreeMap String String) (plan : RestorePlan) (maxRecords : Option Nat)
    (document : PositionsDocument) (outcome : CompleteOutcome)
    (ok : run sha256 zstd reader store facts listed mapping plan maxRecords
      (some (probes document)) = .ok outcome)
    (passed : ∀ row : Row, row ∈ outcome.verdicts.zip outcome.block.partitions → row.passes)
    (answers : Answers reader) :
    PassingScans mapping document outcome.scans (verifiedOf outcome.block) := by
  obtain ⟨parts, st, rows, named, _, lane, verdicts, partitions, _, scans⟩ := run_ok sha256 zstd
    reader store facts listed mapping plan maxRecords _ outcome ok
  rw [verdicts, partitions, List.zip_map', List.map_id'] at passed
  have source := allParts_source reader facts (fromPlan plan) mapping parts named
  have table := verifiedOf_parts outcome.block parts (by
    rw [partitions, List.map_map]
    exact forall₂_map (fun part : (String × Int) × (String × Int) => (part.1, part.2.1))
      (fun row : Row => ((row.2.topic, row.2.partition), row.2.targetTopic))
      (fun part row told => by rw [told.1.topic, told.1.partition, told.1.target]) lane.all)
  have scanned : ∀ key scan, outcome.scans[key]? = some scan → ∃ part ∈ parts.toList,
      part.1 = key ∧ Scanned sha256 zstd reader store facts (fromPlan plan) (windowOf plan)
        (some (probes document)) part scan := by
    intro key scan found
    rw [scans] at found
    rcases lane.scanned key scan found with none | there
    · simp at none
    · exact there
  refine ⟨fun key scan found => ?_, fun key scan found p captured => ?_,
    fun key t landed missing p captured => ?_⟩
  · obtain ⟨part, hpart, rfl, is⟩ := scanned key scan found
    exact ⟨part.2.1, (source part hpart).1, (table part.1 part.2.1).mpr ⟨part, hpart, rfl, rfl⟩⟩
  · obtain ⟨part, hpart, rfl, is⟩ := scanned key scan found
    obtain ⟨_, _, ends, answered, hi⟩ := source part hpart
    obtain ⟨high, log, reads⟩ := answers part.2.1 part.1.2 ends answered
    rw [← hi] at high reads
    obtain ⟨positions, probed, told⟩ := is.probed
    obtain ⟨positions', held, mem⟩ := probes_spec document part.1 p captured
    have same : positions = positions' := by
      simp only [probesFor, Option.bind_some] at probed
      split at probed
      · cases probed
      · exact Option.some.inj (probed.symm.trans held)
    refine ⟨answerFor log p, ?_, ?_⟩
    · rw [told log reads, probeLog_observations, same]
      exact prober_finds _ _ p (ExtTreeSet.mem_toList.mpr mem)
    · rw [is.high]
      exact target_nonneg log p _ (reads_from reads).1 high
  · obtain ⟨part, hpart, rfl, rfl⟩ := (table key t).mp landed
    obtain ⟨_, there, ends, answered, hi⟩ := source part hpart
    obtain ⟨_, log, reads⟩ := answers part.2.1 part.1.2 ends answered
    rw [← hi] at reads
    obtain ⟨row, hrow, of, made⟩ := forall₂_fst_mem lane.all hpart
    have passes := passed row hrow
    -- An unselected partition is read for its records, so it cannot pass empty.
    have picked : (fromPlan plan).selectsPartition part.1.1 part.1.2 = true := by
      cases pick : (fromPlan plan).selectsPartition part.1.1 part.1.2 with
      | true => rfl
      | false =>
          rcases there with into | holds
          · exact pick.symm.trans into
          · exact absurd (of.unselected passes pick log reads) (reads_some reads holds)
    obtain ⟨positions, held, _⟩ := probes_spec document part.1 p captured
    have probed : (probesFor (some (probes document)) part.1).isSome = true := by
      obtain ⟨_, _, _, e, _, _, _, at'⟩ := captured
      have natural : ¬ part.1.2 < 0 := by
        rw [← at']
        exact Int.not_lt.mpr (Int.natCast_nonneg _)
      rw [probesFor, Option.bind_some, if_neg natural, held]
      rfl
    have contains := made passes picked probed
    rw [scans] at missing
    rw [ExtTreeMap.contains_eq_isSome_getElem?, missing] at contains
    cases contains

theorem verifiedOf_row (block : CompleteVerification) (key : String × Int) (t : String)
    (landed : (verifiedOf block)[key]? = some t) :
    ∃ row ∈ block.partitions, (row.topic, row.partition) = key ∧ row.targetTopic = t := by
  have fold : ∀ (rows : List PartitionVerification) (m : VerifiedPartitions),
      (rows.foldl (fun m p => m.insert (p.topic, p.partition) p.targetTopic) m)[key]? = some t →
      m[key]? = some t ∨ ∃ row ∈ rows, (row.topic, row.partition) = key ∧ row.targetTopic = t := by
    intro rows
    induction rows with
    | nil => exact fun m held => .inl held
    | cons row rows ih =>
        intro m held
        rcases ih _ held with old | ⟨later, member, is⟩
        · by_cases here : Complete.partCmp (row.topic, row.partition) key = .eq
          · rw [ExtTreeMap.getElem?_insert, if_pos here] at old
            exact .inr ⟨row, List.mem_cons_self, Std.LawfulEqCmp.eq_of_compare here,
              Option.some.inj old⟩
          · rw [ExtTreeMap.getElem?_insert, if_neg here] at old
            exact .inl old
        · exact .inr ⟨later, List.mem_cons_of_mem _ member, is⟩
  exact (fold block.partitions ∅ landed).resolve_left (by simp)

theorem run_compared (reader : ClusterReader) (store : Store) (facts : Engine.BackupSetFacts)
    (listed : List (String × Int)) (mapping : ExtTreeMap String String) (plan : RestorePlan)
    (maxRecords : Option Nat) (probes : Option Probes) (outcome : CompleteOutcome)
    (ok : run sha256 zstd reader store facts listed mapping plan maxRecords probes = .ok outcome)
    (passed : ∀ row : Row, row ∈ outcome.verdicts.zip outcome.block.partitions → row.passes) :
    outcome.block.covered = true ∧ ∀ row ∈ outcome.block.partitions, row.compared = true := by
  obtain ⟨parts, st, rows, _, _, lane, verdicts, partitions, covered, _⟩ := run_ok sha256 zstd
    reader store facts listed mapping plan maxRecords probes outcome ok
  rw [verdicts, partitions, List.zip_map', List.map_id'] at passed
  have compared : ∀ row ∈ rows, row.2.compared = true := by
    intro row member
    obtain ⟨_, _, of, _⟩ := forall₂_mem lane.all member
    exact of.compared (passed row member)
  refine ⟨?_, ?_⟩
  · rw [covered, beq_iff_eq, List.countP_eq_zero]
    intro row member
    rw [compared row member]
    exact Bool.false_ne_true
  · rw [partitions, List.forall_mem_map]
    exact compared

/-- What a passing complete restore writes, both of its readers accept: the block under the run's
own coverage, and the document, if it fits, over the run's own partitions.  Every position it maps
is in a partition whose records were compared. -/
theorem run_mapping_accepted (reader : ClusterReader) (store : Store)
    (facts : Engine.BackupSetFacts) (listed : List (String × Int)) (plan : RestorePlan)
    (maxRecords : Option Nat) (i : MapInputs) (outcome : CompleteOutcome)
    (ok : run sha256 zstd reader store facts listed i.topicMapping plan maxRecords
      (some (probes i.document)) = .ok outcome)
    (passed : ∀ row : Row, row ∈ outcome.verdicts.zip outcome.block.partitions → row.passes)
    (answers : Answers reader) (scanned : i.scans = outcome.scans)
    (shape : ReceiptShape i.receipt i.document) :
    checkBlock ((build i).block sha256).1 ⟨i.runId, true, true, true, outcome.block.covered⟩ =
        .ok () ∧
      (∀ bytes, ((build i).block sha256).2 = some bytes →
        validateDocument sha256 ((build i).block sha256).1 i.runId (verifiedOf outcome.block) bytes
          (build i) = .ok ()) ∧
      ∀ (id : String) (g : GroupMapping), (build i).groups[id]? = some g → ∀ e ∈ g.entries,
        e.class_ ≠ unavailable → ∃ row ∈ outcome.block.partitions, row.topic = e.topic ∧
          row.partition = e.partition ∧ e.targetTopic = some row.targetTopic ∧
          row.compared = true := by
  have passing := run_passing_scans sha256 zstd reader store facts listed i.topicMapping plan
    maxRecords i.document outcome ok passed answers
  rw [← scanned] at passing
  obtain ⟨covered, compared⟩ := run_compared sha256 zstd reader store facts listed i.topicMapping
    plan maxRecords _ outcome ok passed
  refine ⟨?_, fun bytes written => ?_, fun id g mapped e member here => ?_⟩
  · rw [covered]
    refine block_accepted sha256 (build i) ?_
    rw [build_size]
    exact shape.selects
  · refine document_accepted _ sha256 (build i) rfl rfl (fun id g mapped => ?_) bytes written
    rw [build_groups] at mapped
    obtain ⟨snap, recorded, rfl⟩ := Option.map_eq_some_iff.mp mapped
    exact group_accepted _ i shape passing id snap recorded
  · rw [build_groups] at mapped
    obtain ⟨snap, recorded, rfl⟩ := Option.map_eq_some_iff.mp mapped
    unfold MapInputs.group at member
    split at member
    · cases member
    · rename_i doc held
      obtain ⟨entry, own, rfl⟩ := List.mem_map.mp member
      have kept : i.document.groups[id]? = some doc := by
        split at held
        · exact held
        · cases held
      have lands := (entries_accepted _ i shape passing id doc kept entry own).lands
      unfold entryLands at lands
      rw [if_neg here] at lands
      split at lands
      · rename_i t landed
        obtain ⟨row, listed, is, target⟩ := verifiedOf_row outcome.block _ t landed
        obtain ⟨topic, partition⟩ := Prod.mk.inj is
        exact ⟨row, listed, topic, partition, target ▸ beq_iff_eq.mp lands, compared row listed⟩
      · cases lands

end Lane

def readersDocument : PositionsDocument where
  topics := ∅
  groups := {("readers", ⟨[capturedAt 7], 0⟩)}

def capturedGroup : GroupSnapshot := ⟨"captured", none, some "classic", some false⟩

def unreachableGroup : GroupSnapshot := ⟨"failed", some "Unreachable", none, none⟩

def readersInputs : MapInputs where
  runId := "run-1"
  pointId := "point-1"
  positionsSha256 := "sha256:79dc2d50ac377f1a0822bd59e4a684563bbf2f3e02618ea0509ab9ebb1252ce4"
  receipt := ⟨({("readers", capturedGroup)} : ExtTreeMap String GroupSnapshot).insert "writers"
    unreachableGroup⟩
  document := readersDocument
  topicMapping := wholePlan.topicMapping
  scans := {(("orders", 0), ⟨"orders-restored", 1, {(7, .end)}, [7], []⟩)}
  transactional := false

def readersVerified : VerifiedPartitions := {(("orders", 0), "orders-restored")}

theorem readers_entry (id : String) (g : GroupPositions)
    (listed : readersDocument.groups[id]? = some g) : g = ⟨[capturedAt 7], 0⟩ := by
  have all : readersDocument.groups.toList = [("readers", ⟨[capturedAt 7], 0⟩)] := by
    decide +kernel
  have mem := ExtTreeMap.mem_toList_iff_getElem?_eq_some.mpr listed
  rw [all, List.mem_singleton] at mem
  exact congrArg Prod.snd mem

theorem readers_shape : ReceiptShape readersInputs.receipt readersInputs.document := by
  have groups : ∀ (id : String) (snap : GroupSnapshot),
      readersInputs.receipt.groups[id]? = some snap →
        (id, snap) = ("readers", capturedGroup) ∨ (id, snap) = ("writers", unreachableGroup) := by
    intro id snap held
    have all : readersInputs.receipt.groups.toList =
        [("readers", capturedGroup), ("writers", unreachableGroup)] := by
      decide +kernel
    have mem := ExtTreeMap.mem_toList_iff_getElem?_eq_some.mpr held
    rw [all, List.mem_cons, List.mem_singleton] at mem
    exact mem
  refine ⟨by decide +kernel, fun id snap held kept => ?_, fun id snap held lost => ?_,
    fun id g listed e he => ?_⟩
  · rcases groups id snap held with same | same
    · cases same
      exact ⟨⟨[capturedAt 7], 0⟩, by decide +kernel⟩
    · cases same
      exact absurd kept (by decide)
  · rcases groups id snap held with same | same
    · cases same
      exact absurd rfl lost
    · cases same
      decide
  · rw [readers_entry id g listed, List.mem_singleton] at he
    subst he
    exact ⟨fun _ => ⟨rfl, "withinArchive", rfl, by decide⟩, fun h => absurd h (by decide),
      fun h => absurd rfl h⟩

theorem readers_scans : PassingScans readersInputs.topicMapping readersInputs.document
    readersInputs.scans readersVerified := by
  have key : ∀ (k : String × Int), readersInputs.scans[k]? ≠ none → k = ("orders", 0) := by
    intro k held
    have all : readersInputs.scans.keys = [("orders", 0)] := by decide +kernel
    have mem : k ∈ readersInputs.scans.keys := by
      rw [ExtTreeMap.mem_keys, ← ExtTreeMap.isSome_getElem?_iff_mem]
      exact Option.isSome_iff_ne_none.mpr held
    rwa [all, List.mem_singleton] at mem
  have one : (readersInputs.scans[(("orders", 0) : String × Int)]?).map
      (fun scan => (scan.highWatermark, scan.found[(7 : Int)]?)) = some (1, some .end) := by
    decide +kernel
  refine ⟨fun k scan held => ?_, fun k scan held p captured => ?_, fun k t landed missing p captured => ?_⟩
  · rw [key k (by rw [held]; exact Option.some_ne_none _)]
    exact ⟨"orders-restored", by decide +kernel, by decide +kernel⟩
  · obtain ⟨id, g, listed, e, he, _, position, _⟩ := captured
    rw [readers_entry id g listed, List.mem_singleton] at he
    subst he
    cases position
    rw [key k (by rw [held]; exact Option.some_ne_none _)] at held
    rw [held] at one
    obtain ⟨high, found⟩ := Prod.ext_iff.mp (Option.some.inj one)
    refine ⟨.end, found, ?_⟩
    rw [Found.target, show scan.highWatermark = 1 from high]
    decide
  · obtain ⟨id, g, listed, e, he, _, _, same⟩ := captured
    rw [readers_entry id g listed, List.mem_singleton] at he
    subst he
    rw [← same] at missing
    rw [show readersInputs.scans[((capturedAt 7).topic, ((capturedAt 7).partition : Int))]? =
      readersInputs.scans[(("orders", 0) : String × Int)]? from rfl] at missing
    rw [missing] at one
    cases one

theorem mapping_accepted_readers :
    ∃ bytes, ((build readersInputs).block oneRecordHash).2 = some bytes ∧
      checkBlock ((build readersInputs).block oneRecordHash).1 ⟨"run-1", true, true, true, true⟩ =
        .ok () ∧
      validateDocument oneRecordHash ((build readersInputs).block oneRecordHash).1 "run-1"
        readersVerified bytes (build readersInputs) = .ok () ∧
      (build readersInputs).counts = ⟨0, 1, 0⟩ := by
  obtain ⟨block, document, _⟩ := mapping_accepted readersVerified oneRecordHash readersInputs
    readers_shape readers_scans
  have written : ((build readersInputs).block oneRecordHash).2 = some (build readersInputs).toBytes :=
    block_writes oneRecordHash (build readersInputs) (by decide +kernel)
  exact ⟨_, written, block, document _ written, by decide +kernel⟩

theorem answers_restored : Answers (Complete.targetOf [restoredRecord]) := by
  intro target pid ends answered
  have ends_ : ends = ExtTreeMap.ofList [((0 : Int), (1 : Int))] := by
    cases answered
    rfl
  subst ends_
  by_cases first : pid = 0
  · subst first
    have high : ((ExtTreeMap.ofList [((0 : Int), (1 : Int))])[(0 : Int)]?).getD 0 = (1 : Int) := by
      decide +kernel
    rw [high]
    refine ⟨by decide, [restoredRecord], ?_⟩
    rw [← List.append_nil [restoredRecord]]
    refine @Reads.more _ _ _ _ _ [restoredRecord] [] restoredRecord (by decide) ?_ rfl
      (List.pairwise_singleton _ _) ?_ (.done ?_)
    · simp [Complete.targetOf, restoredRecord]
    · simp [restoredRecord]
    · decide
  · have high : ((ExtTreeMap.ofList [((0 : Int), (1 : Int))])[pid]?).getD 0 = (0 : Int) := by
      simp [first, ExtTreeMap.ofList_singleton, ExtTreeMap.getElem?_insert, Ne.symm first]
    rw [high]
    exact ⟨by decide, [], .done (Int.le_refl 0)⟩

theorem run_mapping_accepted_readers :
    ∃ outcome, run twoRecordHash rawBlockStream (Complete.targetOf [restoredRecord])
        (storeOf twoRecordFacts.key twoRecordSegment) (ordersFacts [⟨0, [twoRecordFacts], [], []⟩])
        [("orders", 0)] wholePlan.topicMapping wholePlan none (some (probes readersDocument)) =
          .ok outcome ∧
      checkBlock ((build { readersInputs with scans := outcome.scans }).block twoRecordHash).1
        ⟨"run-1", true, true, true, outcome.block.covered⟩ = .ok () := by
  obtain ⟨outcome, ran, _, rows⟩ := rowsOf_eq_some (run twoRecordHash rawBlockStream
    (Complete.targetOf [restoredRecord]) (storeOf twoRecordFacts.key twoRecordSegment)
    (ordersFacts [⟨0, [twoRecordFacts], [], []⟩]) [("orders", 0)] wholePlan.topicMapping wholePlan
    none (some (probes readersDocument))) true [twoRecordRow] (by decide +kernel)
  refine ⟨outcome, ran, (run_mapping_accepted twoRecordHash rawBlockStream _ _ _ _ wholePlan none
    { readersInputs with scans := outcome.scans } outcome ran (fun row member => ?_)
    answers_restored rfl readers_shape).1⟩
  rw [rows, List.mem_singleton] at member
  subst member
  exact ⟨rfl, rfl⟩

end Logweir.PositionsMapping
