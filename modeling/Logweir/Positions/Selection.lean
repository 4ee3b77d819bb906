import Logweir.Library.PrettyJson
import Logweir.Positions.Capture

/-!
# The selection, and the block it could produce

`logweir_core::consumer_positions`: a selection is refused before anything runs when the largest block it
could produce is over the cap.  No group's outcome takes more than the one that block is measured with.
-/

set_option autoImplicit false

namespace Logweir.ConsumerPositions

open Std (ExtTreeMap)
open Logweir.Json Logweir.Text Logweir.Fingerprint
open Logweir.PositionsMapping (DocumentRef sha256Prefixed u32Max)

def MAX_SELECTED_GROUPS : Nat := 100
def MAX_GROUP_ID_BYTES : Nat := 255
def MAX_BLOCK_BYTES : Nat := 80 * 1024
def WORST_CASE_DOCUMENT_KEY_BYTES : Nat := 1024
def u64Max : Nat := 18446744073709551615

def longestInstant : Int := 2147483647999999999

def SELECTION_TOO_LARGE : String := "ConsumerGroupSelectionTooLarge"
def SELECTION_ID_INVALID : String := "ConsumerGroupIdInvalid"
def SELECTION_REPEATED : String := "ConsumerGroupSelectedTwice"

def worstCounts : PositionCounts :=
  { related := u32Max, notRelated := u32Max, neverCommitted := u32Max, beyondEnd := u32Max
    failed := u32Max, notObserved := u32Max }

def worstCaseSnapshot : GroupSnapshot where
  outcome := "captured"
  reason := none
  groupType := some "consumer"
  state := some "stateUnknownToClient"
  listedState := some "stateUnknownToClient"
  members := some u32Max
  active := some true
  counts := some worstCounts

def worstCaseDocument : DocumentRef where
  key := String.ofList (List.replicate WORST_CASE_DOCUMENT_KEY_BYTES 'x')
  sha256 := "sha256:" ++ String.ofList (List.replicate 64 'f')
  bytes := u64Max

def worstCaseBlock (selected : List String) : ConsumerPositions where
  observedFrom := longestInstant
  observedTo := longestInstant
  listing := "notComplete"
  document := worstCaseDocument
  groups := TreeMaps.ofEntries (selected.map fun id => (id, worstCaseSnapshot))

def refuseIds : List String → List String → Option String
  | _, [] => none
  | seen, id :: rest =>
    if trim id = "" then some (SELECTION_ID_INVALID ++ ": a selected consumer group id is blank")
    else if id.toList.any isControl ∨ MAX_GROUP_ID_BYTES < id.utf8ByteSize then
      some (SELECTION_ID_INVALID ++ ": the selected consumer group id " ++
        debug (String.ofList (id.toList.take 64)) ++ " carries a control character or is longer than " ++
        toString MAX_GROUP_ID_BYTES ++ " bytes")
    else if id ∈ seen then
      some (SELECTION_REPEATED ++ ": the consumer group " ++ debug id ++
        " is selected twice; each group is selected once")
    else refuseIds (id :: seen) rest

section

variable (instantText : Int → String)

def worstCaseBlockBytes (selected : List String) : Nat :=
  ((worstCaseBlock selected).encoded instantText).length

/-- Why a selection is refused before anything runs. -/
def refuseSelection (selected : List String) : Option String :=
  if MAX_SELECTED_GROUPS < selected.length then
    some (SELECTION_TOO_LARGE ++ ": the backup selects " ++ toString selected.length ++
      " consumer groups and at most " ++ toString MAX_SELECTED_GROUPS ++ " may be selected")
  else
    match refuseIds [] selected with
    | some why => some why
    | none =>
      let encoded := worstCaseBlockBytes instantText selected
      if MAX_BLOCK_BYTES < encoded then
        some (SELECTION_TOO_LARGE ++ ": the receipt's summary of these " ++ toString selected.length ++
          " consumer groups could be " ++ toString encoded ++
          " bytes as JSON writes it (each id with its escapes, every group captured), over the " ++
          toString MAX_BLOCK_BYTES ++ "-byte cap; select fewer groups or shorter ids")
      else none

theorem worstCase_of_accepted {selected : List String}
    (accepted : refuseSelection instantText selected = none) :
    worstCaseBlockBytes instantText selected ≤ MAX_BLOCK_BYTES := by
  unfold refuseSelection at accepted
  split at accepted
  · cases accepted
  · split at accepted
    · cases accepted
    · dsimp only at accepted
      split_ifs at accepted with short
      exact Nat.le_of_not_lt short

end

def FAILED_REASONS : List String :=
  ["NotVisibleToPrincipal", "NotVisibleOrUnreachable", "NotAuthorized", "PositionsUnstable",
    "ListingInconsistent", "AbsenceUnproven", "TypeUnproven", "Unreachable", "DescribeFailed",
    "PositionsFailed", "GenerationChangedDuringCapture", "CaptureUnavailable",
    "GroupVanishedDuringCapture", "PartitionsNotRead"]

def EXCLUDED_REASONS : List String := ["GroupTypeNotCaptured", "GroupNotFound"]

def GROUP_STATES : List String :=
  ["PreparingRebalance", "CompletingRebalance", "Stable", "Dead", "Empty", "stateUnknownToClient"]

/-- The outcome of a group that is not captured, with its reason. -/
def Uncaptured (outcome reason : String) : Prop :=
  (outcome = "failed" ∧ reason ∈ FAILED_REASONS) ∨ (outcome = "excluded" ∧ reason ∈ EXCLUDED_REASONS)

theorem GroupState.wireName_mem (s : GroupState) : s.wireName ∈ GROUP_STATES := by
  cases s <;> simp [wireName, GROUP_STATES]

theorem classificationFailure_mem (f : GroupFailure) : classificationFailure f ∈ FAILED_REASONS := by
  cases f <;> decide

theorem descriptionFailure_mem (f : DescribeFailure) : descriptionFailure f ∈ FAILED_REASONS := by
  cases f <;> decide

theorem positionsFailure_mem (e : PositionsError) : positionsFailure e ∈ FAILED_REASONS := by
  cases e <;> decide

def capturedAs (groupType : GroupType) (state listed : GroupState) (members : Nat)
    (positions : GroupPositions) : GroupSnapshot where
  outcome := "captured"
  reason := none
  groupType := some groupType.wireName
  state := some state.wireName
  listedState := some listed.wireName
  members := some members
  active := some (active state.wireName listed.wireName)
  counts := some (.of positions)

theorem groupOutcome_cases (observed : Option ObservedGroup) (topics : ExtTreeMap String TopicPartitions)
    (observation : GroupsObservation) :
    (∃ outcome reason, Uncaptured outcome reason ∧
      groupOutcome observed topics observation = (notCaptured outcome reason, none)) ∨
    ∃ groupType state listed members answered, members ≤ u32Max ∧
      groupOutcome observed topics observation =
        (capturedAs groupType state listed members (positionEntries topics observation answered),
          some (positionEntries topics observation answered)) := by
  have fails {reason : String} (known : reason ∈ FAILED_REASONS) : ∃ outcome reason',
      Uncaptured outcome reason' ∧ failed reason = (notCaptured outcome reason', none) :=
    ⟨"failed", reason, .inl ⟨rfl, known⟩, rfl⟩
  unfold groupOutcome
  cases observed with
  | none => exact .inl (fails (by decide))
  | some g =>
      dsimp only
      cases g.verdict with
      | excluded why =>
          cases why with
          | groupTypeNotCaptured => exact .inl ⟨_, _, .inr ⟨rfl, by decide⟩, rfl⟩
          | groupNotFound => exact .inl ⟨_, _, .inr ⟨rfl, by decide⟩, rfl⟩
      | failed f => exact .inl (fails (classificationFailure_mem f))
      | capture groupType listed =>
          rcases g.description with - | f | d
          · exact .inl (fails (by decide))
          · exact .inl (fails (descriptionFailure_mem f))
          · have small : (if d.members ≤ u32Max then d.members else u32Max) ≤ u32Max := by
              split
              · assumption
              · exact Nat.le_refl _
            dsimp only
            generalize (if d.members ≤ u32Max then d.members else u32Max) = members at small ⊢
            by_cases gone : vanished d.state.wireName members = true
            · rw [if_pos gone]
              exact .inl (fails (by decide))
            rw [if_neg gone]
            rcases g.positions with - | e | answered
            · exact .inl (fails (by decide))
            · exact .inl (fails (positionsFailure_mem e))
            · dsimp only
              split_ifs with unread changed
              · exact .inl (fails (by decide))
              · exact .inl (fails (by decide))
              · exact .inr ⟨groupType, d.state, listed, members, answered, small, rfl⟩

theorem prettySize_u32_le {n : Nat} (depth : Nat) (small : n ≤ u32Max) :
    prettySize depth (.num n) ≤ prettySize depth (.num u32Max) := by
  have most : prettySize depth (.num u32Max) = 10 := by
    rw [prettySize, pretty]
    decide
  have short : n < 10 ^ 10 := Nat.lt_of_le_of_lt small (by decide)
  rw [most]
  exact prettySize_num_le (by decide) short

theorem tally_le (slot : Slot) (entries : List PositionEntry) : tally slot entries ≤ u32Max :=
  Nat.min_le_right _ _

theorem prettySize_counts_le {positions : GroupPositions}
    (never : positions.noCommittedPosition ≤ u32Max) :
    prettySize 3 (PositionCounts.of positions).toJson ≤ prettySize 3 worstCounts.toJson := by
  have field (key : String) {n : Nat} (small : n ≤ u32Max) :
      memberSize 4 (key, .num n) ≤ memberSize 4 (key, .num u32Max) :=
    memberSize_le (prettySize_u32_le 4 small)
  have related := field "related" (tally_le .related positions.positions)
  have notRelated := field "not_related" (tally_le .notRelated positions.positions)
  have neverCommitted := field "never_committed" never
  have beyondEnd := field "beyond_end" (tally_le .beyondEnd positions.positions)
  have failed := field "failed" (tally_le .failed positions.positions)
  have notObserved := field "not_observed" (tally_le .notObserved positions.positions)
  rw [PositionCounts.of_eq]
  refine prettySize_obj_le ?_ (List.cons_ne_nil _ _)
  simp only [membersSize_cons, worstCounts, Nat.reduceAdd]
  omega

theorem GroupType.prettySize_le (g : GroupType) :
    prettySize 3 (.str g.wireName) ≤ prettySize 3 (.str "consumer") := by
  cases g <;> rw [prettySize_str, prettySize_str] <;> decide

theorem GroupState.prettySize_le (s : GroupState) : prettySize 3 (.str s.wireName) ≤ 22 := by
  have lengths : GROUP_STATES.all fun w => (utf8 (quote w)).length ≤ 22 := by decide
  rw [prettySize_str]
  exact of_decide_eq_true (List.all_eq_true.mp lengths _ s.wireName_mem)

theorem GroupState.prettySize_le_of_inactive (s : GroupState)
    (inactive : INACTIVE_STATES.contains s.wireName = true) :
    prettySize 3 (.str s.wireName) ≤ 7 := by
  have lengths : INACTIVE_STATES.all fun w => (utf8 (quote w)).length ≤ 7 := by decide
  rw [prettySize_str]
  exact of_decide_eq_true (List.all_eq_true.mp lengths _ (List.contains_iff_mem.mp inactive))

theorem prettySize_states_le (state listed : GroupState) :
    prettySize 3 (.str state.wireName) + prettySize 3 (.str listed.wireName) +
        prettySize 3 (.bool (active state.wireName listed.wireName)) ≤ 48 := by
  have stateSize := state.prettySize_le
  have listedSize := listed.prettySize_le
  have yes : prettySize 3 (.bool true) = 4 := by rw [prettySize, pretty]; decide
  have no : prettySize 3 (.bool false) = 5 := by rw [prettySize, pretty]; decide
  cases here : active state.wireName listed.wireName with
  | true => omega
  | false =>
      rw [active, Bool.or_eq_false_iff, Bool.not_eq_false', Bool.not_eq_false'] at here
      have stateShort := state.prettySize_le_of_inactive here.1
      omega

def capturedMembers (groupType state listed : String) (members : Nat) (active : Bool)
    (counts : PositionCounts) : List (String × Json) :=
  [("outcome", .str "captured"), ("group_type", .str groupType), ("state", .str state),
    ("listed_state", .str listed), ("members", .num members), ("active", .bool active),
    ("counts", counts.toJson)]

theorem toJson_capturedAs (groupType : GroupType) (state listed : GroupState) (members : Nat)
    (positions : GroupPositions) :
    (capturedAs groupType state listed members positions).toJson =
      .obj (capturedMembers groupType.wireName state.wireName listed.wireName members
        (active state.wireName listed.wireName) (.of positions)) := rfl

theorem toJson_worstCaseSnapshot : worstCaseSnapshot.toJson =
    .obj (capturedMembers "consumer" "stateUnknownToClient" "stateUnknownToClient" u32Max true
      worstCounts) := rfl

theorem prettySize_capturedAs_le {groupType : GroupType} {state listed : GroupState} {members : Nat}
    {positions : GroupPositions} (small : members ≤ u32Max)
    (never : positions.noCommittedPosition ≤ u32Max) :
    prettySize 2 (capturedAs groupType state listed members positions).toJson ≤
      prettySize 2 worstCaseSnapshot.toJson := by
  have typed := groupType.prettySize_le
  have states := prettySize_states_le state listed
  have unknown : prettySize 3 (.str "stateUnknownToClient") = 22 := by
    rw [prettySize_str]
    decide
  have yes : prettySize 3 (.bool true) = 4 := by rw [prettySize, pretty]; decide
  have counted := prettySize_u32_le 3 small
  have counts := prettySize_counts_le never
  rw [toJson_capturedAs, toJson_worstCaseSnapshot]
  refine prettySize_obj_le ?_ (List.cons_ne_nil _ _)
  simp only [capturedMembers, membersSize_cons, memberSize, Nat.reduceAdd]
  omega

theorem prettySize_notCaptured_le {outcome reason : String} (known : Uncaptured outcome reason) :
    prettySize 2 (notCaptured outcome reason).toJson ≤ prettySize 2 worstCaseSnapshot.toJson := by
  have failed : FAILED_REASONS.all (fun r => decide
      (prettySize 2 (notCaptured "failed" r).toJson ≤ prettySize 2 worstCaseSnapshot.toJson)) = true := by
    decide +kernel
  have excluded : EXCLUDED_REASONS.all (fun r => decide
      (prettySize 2 (notCaptured "excluded" r).toJson ≤
        prettySize 2 worstCaseSnapshot.toJson)) = true := by
    decide +kernel
  rw [List.all_eq_true] at failed excluded
  rcases known with ⟨rfl, member⟩ | ⟨rfl, member⟩
  · exact of_decide_eq_true (failed reason member)
  · exact of_decide_eq_true (excluded reason member)

theorem prettySize_groupOutcome_le (observed : Option ObservedGroup)
    (topics : ExtTreeMap String TopicPartitions) (observation : GroupsObservation) :
    prettySize 2 (groupOutcome observed topics observation).1.toJson ≤
      prettySize 2 worstCaseSnapshot.toJson := by
  obtain ⟨outcome, reason, known, same⟩ | ⟨groupType, state, listed, members, answered, small, same⟩ :=
    groupOutcome_cases observed topics observation
  · rw [same]
    exact prettySize_notCaptured_le known
  · rw [same]
    exact prettySize_capturedAs_le small (noCommittedPosition_le topics observation answered)

theorem prettySize_groups_le {selected : List String} (distinct : selected.Nodup)
    {f g : String → GroupSnapshot}
    (less : ∀ id ∈ selected, prettySize 2 (f id).toJson ≤ prettySize 2 (g id).toJson) :
    prettySize 1 (.obj ((TreeMaps.ofEntries (selected.map fun id => (id, f id)) :
        ExtTreeMap String GroupSnapshot).toList.map fun e => (e.1, e.2.toJson))) ≤
      prettySize 1 (.obj ((TreeMaps.ofEntries (selected.map fun id => (id, g id)) :
        ExtTreeMap String GroupSnapshot).toList.map fun e => (e.1, e.2.toJson))) := by
  have entries (h : String → GroupSnapshot) :
      ((TreeMaps.ofEntries (selected.map fun id => (id, h id)) :
          ExtTreeMap String GroupSnapshot).toList.map fun e => (e.1, e.2.toJson)).Perm
        (selected.map fun id => (id, (h id).toJson)) := by
    have keys : (selected.map fun id => (id, h id)).map Prod.fst = selected := by
      rw [List.map_map]
      exact List.map_id _
    have perm : (TreeMaps.ofEntries (selected.map fun id => (id, h id)) :
        ExtTreeMap String GroupSnapshot).toList.Perm (selected.map fun id => (id, h id)) :=
      TreeMaps.toList_ofEntries_perm (by rw [keys]; exact distinct)
    have written := perm.map fun e => (e.1, e.2.toJson)
    rw [List.map_map] at written
    exact written
  by_cases none_ : selected = []
  · subst none_
    exact Nat.le_refl _
  have some_ : ((TreeMaps.ofEntries (selected.map fun id => (id, g id)) :
      ExtTreeMap String GroupSnapshot).toList.map fun e => (e.1, e.2.toJson)) ≠ [] := by
    intro empty
    have length := (entries g).length_eq
    rw [empty, List.length_map] at length
    exact none_ (List.length_eq_zero_iff.mp length.symm)
  refine prettySize_obj_le ?_ some_
  rw [membersSize_perm (entries f), membersSize_perm (entries g)]
  exact membersSize_map_le less

theorem nodup_of_refuseIds : ∀ {selected seen : List String}, refuseIds seen selected = none →
    selected.Nodup ∧ ∀ id ∈ selected, id ∉ seen := by
  intro selected
  induction selected with
  | nil => exact fun _ => ⟨List.nodup_nil, fun id member => absurd member List.not_mem_nil⟩
  | cons id rest ih =>
      intro seen accepted
      unfold refuseIds at accepted
      split_ifs at accepted with blank invalid again
      obtain ⟨distinct, fresh⟩ := ih accepted
      refine ⟨List.nodup_cons.mpr ⟨fun member => fresh id member List.mem_cons_self, distinct⟩, ?_⟩
      intro other member
      rcases List.mem_cons.mp member with rfl | later
      · exact again
      · exact fun earlier => fresh other later (List.mem_cons_of_mem id earlier)

theorem nodup_of_accepted {instantText : Int → String} {selected : List String}
    (accepted : refuseSelection instantText selected = none) : selected.Nodup := by
  unfold refuseSelection at accepted
  split at accepted
  · cases accepted
  · split at accepted
    · cases accepted
    next named => exact (nodup_of_refuseIds named).1

theorem length_quote_sha256 (sha256 : List UInt8 → Digest) (bytes : List UInt8) :
    (utf8 (quote (sha256Prefixed sha256 bytes))).length = 73 := by
  have digit : ∀ n, n < 16 → escapeChar (hexDigit n) = [hexDigit n] ∧ (hexDigit n).val ≤ 127 := by
    decide
  have marked : "sha256:".toList.all fun c => escapeChar c = [c] ∧ c.val ≤ 127 := by decide
  have plain : ∀ c ∈ (sha256Prefixed sha256 bytes).toList, escapeChar c = [c] ∧ c.val ≤ 127 := by
    intro c member
    rw [sha256Prefixed, String.toList_append, List.mem_append] at member
    rcases member with here | here
    · exact of_decide_eq_true (List.all_eq_true.mp marked c here)
    · rw [hexEncode, String.toList_ofList, List.mem_flatMap] at here
      obtain ⟨b, -, here⟩ := here
      have small := b.toNat_lt
      rcases List.mem_pair.mp here with rfl | rfl
      · exact digit _ (by omega)
      · exact digit _ (by omega)
  have mark : "sha256:".length = 7 := by decide
  rw [length_quote_plain plain, sha256Prefixed, String.length_append, length_hexEncode,
    Vector.length_toList, mark]

theorem length_quote_replicate {c : Char} (plain : escapeChar c = [c] ∧ c.val ≤ 127) (n : Nat) :
    (utf8 (quote (String.ofList (List.replicate n c)))).length = n + 2 := by
  rw [length_quote_plain, String.length_ofList, List.length_replicate]
  intro d member
  rw [String.toList_ofList] at member
  rw [List.eq_of_mem_replicate member]
  exact plain

theorem prettySize_documentJson (d : DocumentRef) : prettySize 1 (documentJson d) =
    (utf8 (quote d.key)).length + (utf8 (quote d.sha256)).length + prettySize 2 (.num d.bytes) +
      48 := by
  have outer : (utf8 (newline 1)).length = 3 := by decide
  have line : (utf8 (newline 2)).length = 5 := by decide
  have key : (utf8 (quote "key")).length = 5 := by decide
  have sha256 : (utf8 (quote "sha256")).length = 8 := by decide
  have bytes : (utf8 (quote "bytes")).length = 7 := by decide
  have none_ : membersSize 2 [] = 0 := rfl
  rw [documentJson, prettySize_obj 1 (List.cons_ne_nil _ _)]
  simp only [membersSize_cons, memberSize, prettySize_str, Nat.reduceAdd, outer, line, key, sha256,
    bytes, none_]
  omega

theorem length_worstCaseKey :
    (utf8 (quote worstCaseDocument.key)).length = WORST_CASE_DOCUMENT_KEY_BYTES + 2 :=
  length_quote_replicate (by decide) _

theorem length_worstCaseSha256 : (utf8 (quote worstCaseDocument.sha256)).length = 73 := by
  decide +kernel

theorem prettySize_worstCaseBytes : prettySize 2 (.num worstCaseDocument.bytes) = 20 := by
  rw [prettySize, pretty]
  decide +kernel

theorem prettySize_document_le {d : DocumentRef}
    (key : (utf8 (quote d.key)).length ≤ WORST_CASE_DOCUMENT_KEY_BYTES + 2)
    (digest : (utf8 (quote d.sha256)).length = 73) (bytes : d.bytes ≤ u64Max) :
    prettySize 1 (documentJson d) ≤ prettySize 1 (documentJson worstCaseDocument) := by
  have small : prettySize 2 (.num d.bytes) ≤ 20 :=
    prettySize_num_le (by decide) (Nat.lt_of_le_of_lt bytes (by decide))
  rw [prettySize_documentJson, prettySize_documentJson, length_worstCaseKey, length_worstCaseSha256,
    prettySize_worstCaseBytes, digest]
  omega

theorem mod_le_u64Max (n : Nat) : n % 2 ^ 64 ≤ u64Max := by
  have below := Nat.mod_lt n (show 0 < 2 ^ 64 by decide)
  have most : 2 ^ 64 = u64Max + 1 := by decide
  omega

def yearTenThousand : Int := 253402300800000000000

section

variable {instantText : Int → String}

theorem length_encoded (instantText : Int → String) (b : ConsumerPositions) :
    (b.encoded instantText).length =
    (utf8 (quote (instantText b.observedFrom))).length +
      (utf8 (quote (instantText b.observedTo))).length + (utf8 (quote b.listing)).length +
      prettySize 1 (documentJson b.document) +
      prettySize 1 (.obj (b.groups.toList.map fun g => (g.1, g.2.toJson))) + 88 := by
  have outer : (utf8 (newline 0)).length = 1 := by decide
  have line : (utf8 (newline 1)).length = 3 := by decide
  have observedFrom : (utf8 (quote "observed_from")).length = 15 := by decide
  have observedTo : (utf8 (quote "observed_to")).length = 13 := by decide
  have listing : (utf8 (quote "listing")).length = 9 := by decide
  have document : (utf8 (quote "document")).length = 10 := by decide
  have groups : (utf8 (quote "groups")).length = 8 := by decide
  have none_ : membersSize 1 [] = 0 := rfl
  rw [ConsumerPositions.encoded, length_toDeterministicJson, ConsumerPositions.toJson,
    prettySize_obj 0 (List.cons_ne_nil _ _)]
  simp only [membersSize_cons, memberSize, prettySize_str, Nat.reduceAdd, outer, line, observedFrom,
    observedTo, listing, document, groups, none_]
  omega

theorem length_encoded_le (sha256 : List UInt8 → Digest)
    (written : ∀ t, 0 ≤ t → t < yearTenThousand →
      (utf8 (quote (instantText t))).length ≤ (utf8 (quote (instantText longestInstant))).length)
    {c : Capture} (distinct : c.selected.Nodup)
    (started : 0 ≤ c.observedFrom ∧ c.observedFrom < yearTenThousand)
    (ended : 0 ≤ c.observedTo ∧ c.observedTo < yearTenThousand)
    (key : (utf8 (quote (documentKey c.backupId c.runId))).length ≤
      WORST_CASE_DOCUMENT_KEY_BYTES + 2) :
    ((build sha256 c).block.encoded instantText).length ≤
      worstCaseBlockBytes instantText c.selected := by
  have observedTo := written (max c.observedTo c.observedFrom) (by omega) (by omega)
  have listing : (utf8 (quote (build sha256 c).block.listing)).length ≤
      (utf8 (quote "notComplete")).length := by
    change (utf8 (quote (if c.observation.completeness = some .complete then "complete"
      else "notComplete"))).length ≤ _
    split
    · decide
    · exact Nat.le_refl _
  have document : prettySize 1 (documentJson (build sha256 c).block.document) ≤
      prettySize 1 (documentJson worstCaseDocument) :=
    prettySize_document_le key (length_quote_sha256 sha256 (build sha256 c).documentBytes)
      (mod_le_u64Max (build sha256 c).documentBytes.length)
  have groups := prettySize_groups_le distinct (f := fun id => (outcomeOf c id).1)
    (g := fun _ => worstCaseSnapshot) fun id _ => prettySize_groupOutcome_le _ _ _
  have observedFrom := written c.observedFrom started.1 started.2
  rw [worstCaseBlockBytes, length_encoded, length_encoded]
  have whole := Nat.add_le_add (Nat.add_le_add (Nat.add_le_add (Nat.add_le_add observedFrom
    observedTo) listing) document) groups
  exact Nat.add_le_add_right whole 88

end

theorem counts_of_build (sha256 : List UInt8 → Digest) {c : Capture} {id : String}
    {s : GroupSnapshot} (recorded : (build sha256 c).block.groups[id]? = some s) :
    s.counts = ((build sha256 c).document.groups[id]?).map PositionCounts.of := by
  have snapshots : (id, s) ∈ c.selected.map fun id => (id, (outcomeOf c id).1) := by
    refine (TreeMaps.getElem?_ofEntries _ ?_ _ _).mp recorded
    intro e here e' here' same
    obtain ⟨a, -, rfl⟩ := List.mem_map.mp here
    obtain ⟨b, -, rfl⟩ := List.mem_map.mp here'
    rw [show a = b from same]
  obtain ⟨id', selected, same⟩ := List.mem_map.mp snapshots
  cases same
  have positions : (build sha256 c).document.groups[id]? = (outcomeOf c id).2 := by
    have held (p : GroupPositions) : (build sha256 c).document.groups[id]? = some p ↔
        (id, p) ∈ c.selected.filterMap fun id =>
          (outcomeOf c id).2.map fun positions => (id, positions) := by
      refine TreeMaps.getElem?_ofEntries _ ?_ _ _
      intro e here e' here' same
      obtain ⟨a, -, entry⟩ := List.mem_filterMap.mp here
      obtain ⟨b, -, entry'⟩ := List.mem_filterMap.mp here'
      obtain ⟨q, has, rfl⟩ := Option.map_eq_some_iff.mp entry
      obtain ⟨q', has', rfl⟩ := Option.map_eq_some_iff.mp entry'
      cases same
      exact Option.some.inj (has.symm.trans has')
    refine Option.ext fun p => (held p).trans ?_
    constructor
    · intro member
      obtain ⟨a, -, entry⟩ := List.mem_filterMap.mp member
      obtain ⟨q, has, same⟩ := Option.map_eq_some_iff.mp entry
      cases same
      exact has
    · intro has
      exact List.mem_filterMap.mpr ⟨id, selected, by rw [has]; rfl⟩
  rw [positions]
  obtain ⟨outcome, reason, -, same⟩ | ⟨groupType, state, listed, members, answered, -, same⟩ :=
    groupOutcome_cases (byId c)[id]? (topicFacts c) c.observation
  · rw [outcomeOf, same]
    rfl
  · rw [outcomeOf, same]
    rfl

/-- The block of an accepted selection fits, its groups carry the counts of the document's entries,
and a position related to archived data lies inside it. -/
theorem captured_positions_fit_and_add_up (instantText : Int → String) (sha256 : List UInt8 → Digest)
    (written : ∀ t, 0 ≤ t → t < yearTenThousand →
      (utf8 (quote (instantText t))).length ≤ (utf8 (quote (instantText longestInstant))).length)
    (c : Capture) (accepted : refuseSelection instantText c.selected = none)
    (started : 0 ≤ c.observedFrom ∧ c.observedFrom < yearTenThousand)
    (ended : 0 ≤ c.observedTo ∧ c.observedTo < yearTenThousand)
    (key : (utf8 (quote (documentKey c.backupId c.runId))).length ≤
      WORST_CASE_DOCUMENT_KEY_BYTES + 2) :
    ((build sha256 c).block.encoded instantText).length ≤ MAX_BLOCK_BYTES ∧
    (∀ (id : String) (s : GroupSnapshot), (build sha256 c).block.groups[id]? = some s →
      s.counts = ((build sha256 c).document.groups[id]?).map PositionCounts.of) ∧
    (∀ group : GroupPositions, PositionCounts.of group =
        { related := tally .related group.positions
          notRelated := tally .notRelated group.positions
          neverCommitted := group.noCommittedPosition
          beyondEnd := tally .beyondEnd group.positions
          failed := tally .failed group.positions
          notObserved := tally .notObserved group.positions } ∧
      (group.positions.length ≤ u32Max → (PositionCounts.of group).total =
        group.positions.length + group.noCommittedPosition)) ∧
    ∀ (position : Int) (facts : PartitionFacts) (word : String),
      relation position facts = .coverage word → word ∈ RELATED →
      ∃ logStart high first last, facts.logStart = some logStart ∧
        facts.highWatermark = some high ∧ facts.archivedFirst = some first ∧
        facts.archivedLast = some last ∧ logStart ≤ position ∧ position ≤ high ∧
        first ≤ position ∧ position ≤ last + 1 := by
  have distinct := nodup_of_accepted accepted
  refine ⟨?_, fun id s recorded => counts_of_build sha256 recorded,
    fun group => ⟨PositionCounts.of_eq group, PositionCounts.total_of⟩,
    fun position facts word said related => bounds_of_relation said related⟩
  calc ((build sha256 c).block.encoded instantText).length
      ≤ worstCaseBlockBytes instantText c.selected :=
        length_encoded_le sha256 written distinct started ended key
    _ ≤ MAX_BLOCK_BYTES := worstCase_of_accepted instantText accepted

def stamp (_ : Int) : String := "2038-01-19T03:14:07.999999999Z"

theorem one_group_accepted : refuseSelection stamp ["g"] = none := by
  have document : prettySize 1 (documentJson (worstCaseBlock ["g"]).document) = 1167 := by
    rw [show (worstCaseBlock ["g"]).document = worstCaseDocument from rfl, prettySize_documentJson,
      length_worstCaseKey, length_worstCaseSha256, prettySize_worstCaseBytes]
    rfl
  have groups : prettySize 1 (.obj ((worstCaseBlock ["g"]).groups.toList.map fun g =>
      (g.1, g.2.toJson))) ≤ 500 := by
    have held : (worstCaseBlock ["g"]).groups.toList = [("g", worstCaseSnapshot)] :=
      TreeMaps.toList_single "g" worstCaseSnapshot
    rw [held]
    decide +kernel
  have shown : (utf8 (quote (stamp longestInstant))).length = 32 := by decide
  have observedFrom : (utf8 (quote (stamp (worstCaseBlock ["g"]).observedFrom))).length = 32 := shown
  have observedTo : (utf8 (quote (stamp (worstCaseBlock ["g"]).observedTo))).length = 32 := shown
  have word : (utf8 (quote "notComplete")).length = 13 := by decide
  have listing : (utf8 (quote (worstCaseBlock ["g"]).listing)).length = 13 := word
  have size := length_encoded stamp (worstCaseBlock ["g"])
  rw [observedFrom, observedTo, listing, document] at size
  have named : refuseIds [] ["g"] = none := by decide +kernel
  have one : ¬MAX_SELECTED_GROUPS < ["g"].length := by decide
  have most : MAX_BLOCK_BYTES = 81920 := rfl
  unfold refuseSelection
  rw [if_neg one, named]
  dsimp only
  rw [worstCaseBlockBytes, if_neg (by omega)]

def bare (backupId : String) : Capture where
  backupId := backupId
  runId := "run"
  selected := ["g"]
  topics := []
  observedFrom := longestInstant
  observedTo := longestInstant
  observation := { completeness := some .complete, groups := [], topics := ∅ }
  after := ∅
  archived := ∅

def noDigest (_ : List UInt8) : Digest := Vector.replicate 32 0

theorem a_short_key_fits :
    ((build noDigest (bare "backup")).block.encoded stamp).length ≤ MAX_BLOCK_BYTES :=
  (captured_positions_fit_and_add_up stamp noDigest (fun _ _ _ => Nat.le_refl _) (bare "backup")
    one_group_accepted (by decide) (by decide) (by decide)).1

theorem lt_length_encoded (instantText : Int → String) (sha256 : List UInt8 → Digest) (c : Capture) :
    c.backupId.length < ((build sha256 c).block.encoded instantText).length := by
  have inside (p id s r e : String) : id.length ≤ (p ++ id ++ s ++ r ++ e).length := by
    simp only [String.length_append]
    omega
  calc c.backupId.length ≤ (documentKey c.backupId c.runId).length := inside _ _ _ _ _
    _ ≤ (utf8 (quote (build sha256 c).block.document.key)).length := length_le_quote _
    _ ≤ prettySize 1 (documentJson (build sha256 c).block.document) := by
        rw [prettySize_documentJson, Nat.add_assoc, Nat.add_assoc]
        exact Nat.le_add_right _ _
    _ < ((build sha256 c).block.encoded instantText).length := by
        rw [length_encoded]
        generalize prettySize 1 (documentJson (build sha256 c).block.document) = document
        generalize prettySize 1 (.obj _) = groups
        omega

theorem bare_overruns (id : String) (long : MAX_BLOCK_BYTES ≤ id.length) :
    refuseSelection stamp (bare id).selected = none ∧
      MAX_BLOCK_BYTES < ((build noDigest (bare id)).block.encoded stamp).length :=
  ⟨one_group_accepted, Nat.lt_of_le_of_lt long (lt_length_encoded stamp noDigest (bare id))⟩

/-- A backup id as long as the cap overruns it, and a group's counts are more than its entries where
it never committed a position. -/
theorem a_long_backup_id_overruns_the_cap :
    (refuseSelection stamp
        (bare (String.ofList (List.replicate MAX_BLOCK_BYTES 'b'))).selected = none ∧
      MAX_BLOCK_BYTES < ((build noDigest
        (bare (String.ofList (List.replicate MAX_BLOCK_BYTES 'b')))).block.encoded stamp).length) ∧
    (PositionCounts.of { positions := [], noCommittedPosition := 1 }).total ≠
      ([] : List PositionEntry).length := by
  have length (n : Nat) : n ≤ (String.ofList (List.replicate n 'b')).length := by
    rw [String.length_ofList, List.length_replicate]
  exact ⟨bare_overruns _ (length MAX_BLOCK_BYTES), by decide⟩

end Logweir.ConsumerPositions
