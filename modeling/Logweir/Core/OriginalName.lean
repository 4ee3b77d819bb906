import Logweir.Topics.Transition
import Logweir.Library.Fields
import Logweir.Library.Ordered
import Mathlib.Data.Prod.Lex

/-!
# Restores under the original topic names

`logweir_core::original_name`, conditions 3 and 4: which cluster the target is, whether its brokers
create topics by themselves, and whether something else manages a restored name; and the place in
`drill::phase0_admit` that asks for them.
-/

set_option autoImplicit false

namespace Logweir.OriginalName

open Std (ExtTreeMap)
open Logweir.Text Logweir.Topics Logweir.Ordered

def ORIGINAL_NAME_AUTO_CREATE_ENABLED : String := "OriginalNameAutoCreateEnabled"
def ORIGINAL_NAME_AUTO_CREATE_UNKNOWN : String := "OriginalNameAutoCreateUnknown"
def ORIGINAL_NAME_OWNER_NOT_CHECKED : String := "OriginalNameOwnerNotChecked"
def ORIGINAL_NAME_OWNER_PRESENT : String := "OriginalNameOwnerPresent"
def ORIGINAL_NAME_OWNERS_INVALID : String := "OriginalNameOwnersInvalid"

def AUTO_CREATE_TOPICS_KEY : String := "auto.create.topics.enable"

inductive SourceRelation where
  | targetIsNotSource (source : String)
  | sameCluster (source : String)
  | sourceUnknown
  deriving DecidableEq

def SourceRelation.isOther : SourceRelation → Bool
  | .targetIsNotSource _ => true
  | _ => false

def sourceRelation (known : List String) (target : String) : SourceRelation :=
  let known := known.filter fun id => !(trim id).isEmpty
  match known.find? fun id => id = target with
  | some same => .sameCluster same
  | none =>
      match known.head? with
      | some source => .targetIsNotSource source
      | none => .sourceUnknown

def reports (word : String) (value : Option String) : Bool :=
  value.any fun v => toAsciiLowercase (trim v) = toAsciiLowercase word

/-- Every broker's answer is `false`, and there is one. -/
def disabledOnEvery (why : String) (answers : List (Int × Option String)) : Except String Unit :=
  let enabled := (answers.filter fun answer => reports "true" answer.2).map fun answer =>
    toString answer.1
  if !enabled.isEmpty then
    .error (ORIGINAL_NAME_AUTO_CREATE_ENABLED ++ ": " ++ why ++ ", and broker(s) " ++
      ", ".intercalate enabled ++ " report " ++ AUTO_CREATE_TOPICS_KEY ++
      "=true. A producer still pointed at a restored name would create it the moment it sends, " ++
      "so the name cannot be held absent until the restore creates it. Restore into a " ++
      "different cluster, or set " ++ AUTO_CREATE_TOPICS_KEY ++
      "=false on every broker of the target first; nothing was written")
  else
    let unread := (answers.filter fun answer => !reports "false" answer.2).map fun answer =>
      match answer.2 with
      | some v => toString answer.1 ++ " (" ++ debug v ++ ")"
      | none => toString answer.1 ++ " (not reported)"
    if answers.isEmpty || !unread.isEmpty then
      .error (ORIGINAL_NAME_AUTO_CREATE_UNKNOWN ++ ": " ++ why ++ ", and " ++
        (if answers.isEmpty then "no broker" else "broker(s) " ++ ", ".intercalate unread) ++
        " did not report " ++ AUTO_CREATE_TOPICS_KEY ++
        "=false. A restore under the original names into the source cluster needs " ++
        "auto-creation PROVEN disabled on every broker; refusing when unsure. Grant " ++
        "DescribeConfigs on the cluster to this principal, or restore into a different " ++
        "cluster; nothing was written")
    else .ok ()

def requireAutoCreateDisabled (relation : SourceRelation) (target : String)
    (answers : List (Int × Option String)) : Except String Unit :=
  match relation with
  | .sameCluster source =>
      disabledOnEvery ("the target cluster " ++ target ++
        " is the cluster the archive was taken from (" ++ source ++ ")") answers
  | .sourceUnknown =>
      disabledOnEvery ("no source cluster id is known for this archive (the plan is bound to no " ++
        "recovery point, whose verified receipt is the only source id that counts), so the " ++
        "target cluster " ++ target ++ " may be the cluster it was taken from") answers
  | .targetIsNotSource _ => .ok ()

def OWNER_FOUND_IN_PLAN : String := "plan"
def OWNER_FOUND_IN_KAFKA_TOPIC_RESOURCES : String := "kafkaTopicResources"
def OWNER_FOUND_IN_POINT_RECEIPT : String := "pointReceipt"

structure ReceiptOwners where
  ownerDetection : List String
  owners : ExtTreeMap String TopicOwner compare

@[ext]
structure FoundOwner where
  topic : String
  kind : String
  reference : String
  foundIn : String
  deriving DecidableEq

def FoundOwner.key (o : FoundOwner) : String ×ₗ String ×ₗ String ×ₗ String :=
  toLex (o.topic, toLex (o.kind, toLex (o.reference, o.foundIn)))

theorem FoundOwner.key_injective : Function.Injective FoundOwner.key := by
  intro o o' same
  obtain ⟨topic, rest⟩ := Prod.mk.inj (toLex.injective same)
  obtain ⟨kind, rest⟩ := Prod.mk.inj (toLex.injective rest)
  obtain ⟨reference, foundIn⟩ := Prod.mk.inj (toLex.injective rest)
  exact FoundOwner.ext topic kind reference foundIn

instance : LinearOrder FoundOwner := LinearOrder.lift' FoundOwner.key FoundOwner.key_injective

structure OwnerInputs where
  declared : Option (List DeclaredOwner)
  kafkaTopicResources : Option (ExtTreeMap String TopicOwner compare)
  receipt : Option ReceiptOwners

structure OwnerVerdict where
  ownerDetection : List String
  owners : List FoundOwner
  ownerPath : Bool

inductive OwnerRefusal where
  | ownersInvalid (why : String)
  | ownerNotChecked (detection : List String)
  | ownerPresent (owners : List FoundOwner)

def OwnerRefusal.text : OwnerRefusal → String
  | .ownersInvalid why =>
      ORIGINAL_NAME_OWNERS_INVALID ++ ": target.topic_naming.original_name.owners: " ++
        replace (replace why "source.topic_owners" "original_name.owners") "source.topics"
          "the restored topics"
  | .ownerNotChecked detection =>
      ORIGINAL_NAME_OWNER_NOT_CHECKED ++ ": nothing was checked for a declarative owner of the " ++
        "restored names (a Strimzi KafkaTopic, a GitOps or Terraform definition)" ++
        (if detection.isEmpty then ""
          else "; the bound point's receipt alone is not a look, because a backup records an " ++
            "owner it cannot record as none") ++
        ". Such an owner recreates a deleted name on its own and reverts the restored topic's " ++
        "settings, and this runner cannot read Kubernetes or a repository, so it never assumes " ++
        "there is none. State it in the plan — target.topic_naming.original_name.owners: [] " ++
        "when no owner manages any restored name, or each owner as \x7btopic, kind, " ++
        "reference\x7d — or give the runner the target's KafkaTopic resources " ++
        "(--kafka-topic-resources, \x60kubectl get kafkatopics -A -o yaml\x60); nothing was written"
  | .ownerPresent owners =>
      ORIGINAL_NAME_OWNER_PRESENT ++ ": a declarative owner manages restored name(s): " ++
        ", ".intercalate (owners.map fun o =>
          "\x60" ++ o.topic ++ "\x60 (" ++ o.kind ++ " " ++ o.reference ++ ", from " ++ o.foundIn ++
            ")") ++
        ". An owner recreates a deleted name on its own and reverts a restored topic's settings " ++
        "to its desired state, which can delete the restored records. Pause the owner's " ++
        "reconciliation for the restore and choose the owner path explicitly " ++
        "(target.topic_naming.original_name.owner_path: true), or restore under a new name; " ++
        "nothing was written"

def declaredOwners (declared : List DeclaredOwner) : List FoundOwner :=
  declared.map fun owner => ⟨owner.topic, owner.kind, owner.reference, OWNER_FOUND_IN_PLAN⟩

def ownersOf (names : List String) (owners : ExtTreeMap String TopicOwner compare)
    (foundIn : String) : List FoundOwner :=
  (owners.toList.filter fun entry => names.contains entry.1).map fun entry =>
    ⟨entry.1, entry.2.kind, entry.2.reference, foundIn⟩

def OwnerInputs.applies (inputs : OwnerInputs) (relation : SourceRelation) : Option ReceiptOwners :=
  inputs.receipt.filter fun receipt => !relation.isOther && !receipt.ownerDetection.isEmpty

def ownerDetection (inputs : OwnerInputs) (relation : SourceRelation) : List String :=
  (inputs.declared.map fun _ => OWNER_FOUND_IN_PLAN).toList ++
    (inputs.kafkaTopicResources.map fun _ => OWNER_FOUND_IN_KAFKA_TOPIC_RESOURCES).toList ++
    ((inputs.applies relation).map fun _ => OWNER_FOUND_IN_POINT_RECEIPT).toList

def ownersFound (names : List String) (inputs : OwnerInputs) (relation : SourceRelation) :
    List FoundOwner :=
  sortDedup
    ((inputs.declared.map declaredOwners).getD [] ++
      (inputs.kafkaTopicResources.map fun found =>
        ownersOf names found OWNER_FOUND_IN_KAFKA_TOPIC_RESOURCES).getD [] ++
      ((inputs.applies relation).map fun receipt =>
        ownersOf names receipt.owners OWNER_FOUND_IN_POINT_RECEIPT).getD [])

def ownerVerdict (names : List String) (inputs : OwnerInputs) (ownerPath : Bool)
    (relation : SourceRelation) : Except OwnerRefusal OwnerVerdict :=
  match inputs.declared.bind fun declared => refuseDeclarations declared names with
  | some why => .error (.ownersInvalid why)
  | none =>
      let detection := ownerDetection inputs relation
      let owners := ownersFound names inputs relation
      let looked := detection.any fun place => place ≠ OWNER_FOUND_IN_POINT_RECEIPT
      -- the receipt adds owners; it never stands in for looking
      if !looked && (owners.isEmpty || ownerPath) then .error (.ownerNotChecked detection)
      else if !owners.isEmpty && !ownerPath then .error (.ownerPresent owners)
      else .ok { ownerDetection := detection, owners, ownerPath }

structure OriginalNameInputs where
  receiptSourceClusterId : Option String
  receiptOwners : Option ReceiptOwners
  kafkaTopicOwners : Option (ExtTreeMap String TopicOwner compare)
  kafkaTopicResourcesSha256 : Option String

structure OriginalNameAdmission where
  relation : SourceRelation
  owners : OwnerVerdict
  kafkaTopicResourcesSha256 : Option String

inductive DrillError where
  | kafka (message : String)
  | guardRefusal (message : String)

structure OriginalNameBlock where
  owners : Option (List DeclaredOwner) := none
  ownerPath : Bool := false

abbrev ClusterReader := String → Except DrillError (List (Int × Option String))

def clusterCondition (relation : SourceRelation) (reader : ClusterReader) (target : String) :
    Bool × Except DrillError Unit :=
  if !relation.isOther then
    (true, do
      let answers ← reader AUTO_CREATE_TOPICS_KEY
      (requireAutoCreateDisabled relation target answers).mapError .guardRefusal)
  else (false, .ok ())

def originalNameConditions (topics : List String) (block : OriginalNameBlock)
    (reader : ClusterReader) (target : String) (original : OriginalNameInputs) :
    Except DrillError OriginalNameAdmission := do
  -- only the verified receipt's measured id
  let known := original.receiptSourceClusterId.toList
  let relation := sourceRelation known target
  (clusterCondition relation reader target).2
  let owners ← (ownerVerdict topics
    { declared := block.owners
      kafkaTopicResources := original.kafkaTopicOwners
      receipt := original.receiptOwners } block.ownerPath relation).mapError fun refusal =>
        .guardRefusal refusal.text
  return { relation, owners, kafkaTopicResourcesSha256 := original.kafkaTopicResourcesSha256 }

/-- At least one source id is known, and every known one is another cluster's. -/
def KnownElsewhere (known : List String) (target : String) : Prop :=
  (∃ id ∈ known, trim id ≠ "") ∧ ∀ id ∈ known, trim id ≠ "" → id ≠ target

theorem sourceRelation_isOther_iff (known : List String) (target : String) :
    (sourceRelation known target).isOther = true ↔ KnownElsewhere known target := by
  have blank (id : String) : (!(trim id).isEmpty) = true ↔ trim id ≠ "" := by
    rw [Bool.not_eq_true', ← Bool.not_eq_true, String.isEmpty_iff]
  unfold sourceRelation
  simp only
  split
  · rename_i same found
    have member := List.mem_of_find?_eq_some found
    have equal : same = target := by simpa using List.find?_some found
    obtain ⟨here, filled⟩ := List.mem_filter.mp member
    constructor
    · intro other
      cases other
    · rintro ⟨_, apart⟩
      exact absurd equal (apart same here ((blank same).mp filled))
  · rename_i none_
    have apart : ∀ id ∈ known, trim id ≠ "" → id ≠ target := by
      intro id member filled
      have here := List.find?_eq_none.mp none_ id
        (List.mem_filter.mpr ⟨member, (blank id).mpr filled⟩)
      exact fun equal => here (decide_eq_true equal)
    split
    · rename_i source first
      obtain ⟨here, filled⟩ := List.mem_filter.mp (List.mem_of_mem_head? first)
      exact ⟨fun _ => ⟨⟨source, here, (blank source).mp filled⟩, apart⟩, fun _ => rfl⟩
    · rename_i nothing
      have empty := List.filter_eq_nil_iff.mp (List.head?_eq_none_iff.mp nothing)
      constructor
      · intro other
        cases other
      · rintro ⟨⟨id, member, filled⟩, _⟩
        exact absurd ((blank id).mpr filled) (empty id member)

/-- At least one broker answered, and every one reported `false`. -/
def AllDisabled (answers : List (Int × Option String)) : Prop :=
  answers ≠ [] ∧ ∀ answer ∈ answers, reports "false" answer.2 = true

theorem disabledOnEvery_ok {why : String} {answers : List (Int × Option String)}
    (passes : disabledOnEvery why answers = .ok ()) : AllDisabled answers := by
  unfold disabledOnEvery at passes
  simp only at passes
  split at passes
  · cases passes
  · split at passes
    · cases passes
    · rename_i answered
      rw [Bool.or_eq_true, not_or, Bool.not_eq_true', Bool.not_eq_true, Bool.not_eq_false,
        List.isEmpty_iff, List.map_eq_nil_iff, List.filter_eq_nil_iff] at answered
      refine ⟨fun empty => ?_, fun answer member => ?_⟩
      · rw [empty] at answered
        exact absurd answered.1 (by decide)
      · have disabled := answered.2 answer member
        rwa [Bool.not_eq_true', Bool.not_eq_false] at disabled

theorem requireAutoCreateDisabled_ok {relation : SourceRelation} {target : String}
    {answers : List (Int × Option String)} (near : relation.isOther = false)
    (passes : requireAutoCreateDisabled relation target answers = .ok ()) : AllDisabled answers := by
  cases relation with
  | targetIsNotSource source => cases near
  | sameCluster source => exact disabledOnEvery_ok passes
  | sourceUnknown => exact disabledOnEvery_ok passes

theorem clusterCondition_spec (known : List String) (reader : ClusterReader) (target : String) :
    ((clusterCondition (sourceRelation known target) reader target).1 = false ↔
      KnownElsewhere known target) ∧
    ((clusterCondition (sourceRelation known target) reader target).2 = .ok () →
      KnownElsewhere known target ∨
        ∃ answers, reader AUTO_CREATE_TOPICS_KEY = .ok answers ∧ AllDisabled answers) := by
  rw [← sourceRelation_isOther_iff]
  unfold clusterCondition
  cases other : (sourceRelation known target).isOther with
  | true => exact ⟨⟨fun _ => rfl, fun _ => rfl⟩, fun _ => .inl rfl⟩
  | false =>
      refine ⟨⟨fun read => ?_, fun read => ?_⟩, fun passes => .inr ?_⟩
      · cases read
      · cases read
      · simp only [Bool.not_false, if_true] at passes
        cases answered : reader AUTO_CREATE_TOPICS_KEY with
        | error e =>
            rw [answered] at passes
            cases passes
        | ok answers =>
            rw [answered] at passes
            refine ⟨answers, rfl, ?_⟩
            cases disabled : requireAutoCreateDisabled (sourceRelation known target) target
                answers with
            | error why =>
                have refused : (requireAutoCreateDisabled (sourceRelation known target) target
                    answers).mapError DrillError.guardRefusal = .ok () := passes
                rw [disabled] at refused
                cases refused
            | ok passed => exact requireAutoCreateDisabled_ok other disabled

/-- The owners the inputs name for restored topics. -/
inductive Names (names : List String) (inputs : OwnerInputs) (relation : SourceRelation)
    (o : FoundOwner) : Prop where
  | plan {declared : List DeclaredOwner} (given : inputs.declared = some declared)
      (stated : ⟨o.topic, o.kind, o.reference⟩ ∈ declared)
      (found : o.foundIn = OWNER_FOUND_IN_PLAN)
  | resources {found : ExtTreeMap String TopicOwner compare}
      (given : inputs.kafkaTopicResources = some found) {owner : TopicOwner}
      (recorded : found[o.topic]? = some owner) (restored : o.topic ∈ names)
      (kind : o.kind = owner.kind) (reference : o.reference = owner.reference)
      (foundIn : o.foundIn = OWNER_FOUND_IN_KAFKA_TOPIC_RESOURCES)
  | receipt {receipt : ReceiptOwners} (given : inputs.receipt = some receipt)
      (near : relation.isOther = false) (looked : receipt.ownerDetection ≠ []) {owner : TopicOwner}
      (recorded : receipt.owners[o.topic]? = some owner) (restored : o.topic ∈ names)
      (kind : o.kind = owner.kind) (reference : o.reference = owner.reference)
      (foundIn : o.foundIn = OWNER_FOUND_IN_POINT_RECEIPT)

theorem mem_ownersOf {names : List String} {owners : ExtTreeMap String TopicOwner compare}
    {foundIn : String} {o : FoundOwner} :
    o ∈ ownersOf names owners foundIn ↔
      ∃ owner, owners[o.topic]? = some owner ∧ o.topic ∈ names ∧ o.kind = owner.kind ∧
        o.reference = owner.reference ∧ o.foundIn = foundIn := by
  unfold ownersOf
  rw [List.mem_map]
  constructor
  · rintro ⟨⟨topic, owner⟩, member, rfl⟩
    obtain ⟨entry, restored⟩ := List.mem_filter.mp member
    exact ⟨owner, ExtTreeMap.mem_toList_iff_getElem?_eq_some.mp entry,
      List.contains_iff_mem.mp restored, rfl, rfl, rfl⟩
  · rintro ⟨owner, recorded, restored, kind, reference, found⟩
    refine ⟨(o.topic, owner), List.mem_filter.mpr
      ⟨ExtTreeMap.mem_toList_iff_getElem?_eq_some.mpr recorded,
        List.contains_iff_mem.mpr restored⟩, ?_⟩
    exact FoundOwner.ext rfl kind.symm reference.symm found.symm

theorem mem_declaredOwners {declared : List DeclaredOwner} {o : FoundOwner} :
    o ∈ declaredOwners declared ↔
      ⟨o.topic, o.kind, o.reference⟩ ∈ declared ∧ o.foundIn = OWNER_FOUND_IN_PLAN := by
  unfold declaredOwners
  rw [List.mem_map]
  constructor
  · rintro ⟨owner, member, rfl⟩
    exact ⟨member, rfl⟩
  · rintro ⟨member, found⟩
    exact ⟨_, member, FoundOwner.ext rfl rfl rfl found.symm⟩

theorem applies_eq_some {inputs : OwnerInputs} {relation : SourceRelation}
    {receipt : ReceiptOwners} :
    inputs.applies relation = some receipt ↔
      inputs.receipt = some receipt ∧ relation.isOther = false ∧ receipt.ownerDetection ≠ [] := by
  rw [OwnerInputs.applies, Option.filter_eq_some_iff, Bool.and_eq_true, Bool.not_eq_true',
    Bool.not_eq_true', List.isEmpty_eq_false_iff]

theorem mem_getD_map {α β : Type} {o : Option α} {f : α → List β} {b : β} :
    b ∈ (o.map f).getD [] ↔ ∃ a, o = some a ∧ b ∈ f a := by
  cases o with
  | none => simp
  | some a => simp

theorem mem_ownersFound {names : List String} {inputs : OwnerInputs} {relation : SourceRelation}
    {o : FoundOwner} : o ∈ ownersFound names inputs relation ↔ Names names inputs relation o := by
  unfold ownersFound
  rw [mem_sortDedup, List.mem_append, List.mem_append, mem_getD_map, mem_getD_map, mem_getD_map]
  constructor
  · rintro ((⟨declared, given, member⟩ | ⟨found, given, member⟩) | ⟨receipt, given, member⟩)
    · obtain ⟨stated, found⟩ := mem_declaredOwners.mp member
      exact .plan given stated found
    · obtain ⟨owner, recorded, restored, kind, reference, foundIn⟩ := mem_ownersOf.mp member
      exact .resources given recorded restored kind reference foundIn
    · obtain ⟨here, near, looked⟩ := applies_eq_some.mp given
      obtain ⟨owner, recorded, restored, kind, reference, foundIn⟩ := mem_ownersOf.mp member
      exact .receipt here near looked recorded restored kind reference foundIn
  · rintro (⟨given, stated, found⟩ | ⟨given, recorded, restored, kind, reference, foundIn⟩ |
      ⟨given, near, looked, recorded, restored, kind, reference, foundIn⟩)
    · exact .inl (.inl ⟨_, given, mem_declaredOwners.mpr ⟨stated, found⟩⟩)
    · exact .inl (.inr ⟨_, given,
        mem_ownersOf.mpr ⟨_, recorded, restored, kind, reference, foundIn⟩⟩)
    · exact .inr ⟨_, applies_eq_some.mpr ⟨given, near, looked⟩,
        mem_ownersOf.mpr ⟨_, recorded, restored, kind, reference, foundIn⟩⟩

/-- The plan's statement or the KafkaTopic resources were consulted. -/
def OwnerInputs.Looked (inputs : OwnerInputs) : Prop :=
  inputs.declared ≠ none ∨ inputs.kafkaTopicResources ≠ none

theorem looked_iff {inputs : OwnerInputs} {relation : SourceRelation} :
    ((ownerDetection inputs relation).any fun place => place ≠ OWNER_FOUND_IN_POINT_RECEIPT) = true ↔
      inputs.Looked := by
  have plan : OWNER_FOUND_IN_PLAN ≠ OWNER_FOUND_IN_POINT_RECEIPT := by decide
  have resources : OWNER_FOUND_IN_KAFKA_TOPIC_RESOURCES ≠ OWNER_FOUND_IN_POINT_RECEIPT := by decide
  unfold ownerDetection OwnerInputs.Looked
  cases inputs.declared <;> cases inputs.kafkaTopicResources <;> cases inputs.applies relation <;>
    simp [plan, resources]

theorem ownerVerdict_ok {names : List String} {inputs : OwnerInputs} {ownerPath : Bool}
    {relation : SourceRelation} {v : OwnerVerdict}
    (passes : ownerVerdict names inputs ownerPath relation = .ok v) :
    inputs.Looked ∧ v.owners = ownersFound names inputs relation ∧ v.ownerPath = ownerPath ∧
      (ownerPath = false → v.owners = []) := by
  unfold ownerVerdict at passes
  split at passes
  · cases passes
  · simp only at passes
    split at passes
    · cases passes
    · rename_i checked
      split at passes
      · cases passes
      · rename_i free
        obtain rfl := Except.ok.inj passes
        rw [Bool.and_eq_true, not_and_or, Bool.not_eq_true', Bool.not_eq_false,
          Bool.or_eq_true, not_or, List.isEmpty_iff] at checked
        rw [Bool.and_eq_true, not_and_or, Bool.not_eq_true', Bool.not_eq_false, List.isEmpty_iff,
          Bool.not_eq_true', Bool.not_eq_false] at free
        refine ⟨?_, rfl, rfl, fun direct => ?_⟩
        · rcases checked with looked | ⟨some_, direct⟩
          · exact looked_iff.mp looked
          · rcases free with none_ | path
            · exact absurd none_ some_
            · exact absurd path direct
        · rcases free with none_ | path
          · exact none_
          · cases direct.symm.trans path

theorem ownerVerdict_present {names : List String} {inputs : OwnerInputs} {ownerPath : Bool}
    {relation : SourceRelation} {owners : List FoundOwner}
    (refused : ownerVerdict names inputs ownerPath relation = .error (.ownerPresent owners)) :
    ownersFound names inputs relation ≠ [] ∧ ownerPath = false := by
  unfold ownerVerdict at refused
  split at refused
  · cases refused
  · simp only at refused
    split at refused
    · cases refused
    · split at refused
      · rename_i present
        rw [Bool.and_eq_true, Bool.not_eq_true', List.isEmpty_eq_false_iff,
          Bool.not_eq_true'] at present
        exact present
      · cases refused

/-- Every source that is given stays as it is, and others may be given too. -/
structure Adds (inputs inputs' : OwnerInputs) : Prop where
  declared : inputs.declared = none ∨ inputs'.declared = inputs.declared
  resources : inputs.kafkaTopicResources = none ∨
    inputs'.kafkaTopicResources = inputs.kafkaTopicResources
  receipt : inputs.receipt = none ∨ inputs'.receipt = inputs.receipt

theorem Names.adds {names : List String} {inputs inputs' : OwnerInputs}
    {relation : SourceRelation} {o : FoundOwner} (adds : Adds inputs inputs')
    (named : Names names inputs relation o) : Names names inputs' relation o := by
  have kept {α : Type} {source source' : Option α} {a : α} (given : source = some a)
      (adds : source = none ∨ source' = source) : source' = some a := by
    rcases adds with none_ | same
    · cases none_.symm.trans given
    · rw [same, given]
  cases named with
  | plan given stated found => exact .plan (kept given adds.declared) stated found
  | resources given recorded restored kind reference foundIn =>
      exact .resources (kept given adds.resources) recorded restored kind reference foundIn
  | receipt given near looked recorded restored kind reference foundIn =>
      exact .receipt (kept given adds.receipt) near looked recorded restored kind reference foundIn

theorem ownersFound_adds {names : List String} {inputs inputs' : OwnerInputs}
    {relation : SourceRelation} (adds : Adds inputs inputs') {o : FoundOwner}
    (found : o ∈ ownersFound names inputs relation) : o ∈ ownersFound names inputs' relation :=
  mem_ownersFound.mpr ((mem_ownersFound.mp found).adds adds)

theorem originalNameConditions_ok {topics : List String} {block : OriginalNameBlock}
    {reader : ClusterReader} {target : String} {original : OriginalNameInputs}
    {admission : OriginalNameAdmission}
    (passes : originalNameConditions topics block reader target original = .ok admission) :
    let relation := sourceRelation original.receiptSourceClusterId.toList target
    (clusterCondition relation reader target).2 = .ok () ∧
      ownerVerdict topics
        { declared := block.owners
          kafkaTopicResources := original.kafkaTopicOwners
          receipt := original.receiptOwners } block.ownerPath relation = .ok admission.owners := by
  unfold originalNameConditions at passes
  simp only at passes ⊢
  cases cluster : (clusterCondition (sourceRelation original.receiptSourceClusterId.toList target)
      reader target).2 with
  | error e =>
      rw [cluster] at passes
      cases passes
  | ok _ =>
      rw [cluster] at passes
      refine ⟨rfl, ?_⟩
      cases verdict : ownerVerdict topics
        { declared := block.owners
          kafkaTopicResources := original.kafkaTopicOwners
          receipt := original.receiptOwners } block.ownerPath
          (sourceRelation original.receiptSourceClusterId.toList target) with
      | error refusal =>
          rw [verdict] at passes
          cases passes
      | ok owners =>
          rw [verdict] at passes
          obtain rfl := Except.ok.inj passes
          rfl

/-- Admission under the original names loses no owner: a verdict needs a look, and lists exactly
the owners the sources name; one source more takes none away and lifts no refusal; and the brokers
stay unread only for a target that is proven another cluster. -/
theorem admission_loses_no_owner :
    (∀ (names : List String) (inputs : OwnerInputs) (ownerPath : Bool) (relation : SourceRelation)
      (v : OwnerVerdict), ownerVerdict names inputs ownerPath relation = .ok v →
      inputs.Looked ∧ v.owners.Pairwise (· < ·) ∧
        (∀ o, o ∈ v.owners ↔ Names names inputs relation o) ∧ v.ownerPath = ownerPath ∧
        (ownerPath = false → v.owners = [])) ∧
    (∀ (names : List String) (inputs inputs' : OwnerInputs) (ownerPath : Bool)
      (relation : SourceRelation), Adds inputs inputs' →
      (∀ v v', ownerVerdict names inputs ownerPath relation = .ok v →
        ownerVerdict names inputs' ownerPath relation = .ok v' → v.owners ⊆ v'.owners) ∧
      ∀ owners v', ownerVerdict names inputs ownerPath relation = .error (.ownerPresent owners) →
        ownerVerdict names inputs' ownerPath relation ≠ .ok v') ∧
    (∀ (known : List String) (reader : ClusterReader) (target : String),
      ((clusterCondition (sourceRelation known target) reader target).1 = false ↔
        KnownElsewhere known target) ∧
      ((clusterCondition (sourceRelation known target) reader target).2 = .ok () →
        KnownElsewhere known target ∨
          ∃ answers, reader AUTO_CREATE_TOPICS_KEY = .ok answers ∧ AllDisabled answers)) ∧
    ∀ (topics : List String) (block : OriginalNameBlock) (reader : ClusterReader)
      (target : String) (original : OriginalNameInputs) (admission : OriginalNameAdmission),
      originalNameConditions topics block reader target original = .ok admission →
      (clusterCondition (sourceRelation original.receiptSourceClusterId.toList target) reader
        target).2 = .ok () ∧
      ownerVerdict topics
        { declared := block.owners
          kafkaTopicResources := original.kafkaTopicOwners
          receipt := original.receiptOwners } block.ownerPath
        (sourceRelation original.receiptSourceClusterId.toList target) = .ok admission.owners := by
  refine ⟨?_, ?_, clusterCondition_spec, fun _ _ _ _ _ _ passes =>
    originalNameConditions_ok passes⟩
  · intro names inputs ownerPath relation v passes
    obtain ⟨looked, owners, path, direct⟩ := ownerVerdict_ok passes
    refine ⟨looked, ?_, fun o => ?_, path, direct⟩
    · rw [owners]
      exact ascending_sortDedup _
    · rw [owners, mem_ownersFound]
  · intro names inputs inputs' ownerPath relation adds
    refine ⟨fun v v' passes passes' o member => ?_, fun owners v' refused passes' => ?_⟩
    · rw [(ownerVerdict_ok passes).2.1] at member
      rw [(ownerVerdict_ok passes').2.1]
      exact ownersFound_adds adds member
    · obtain ⟨present, direct⟩ := ownerVerdict_present refused
      obtain ⟨_, owners', _, none_⟩ := ownerVerdict_ok passes'
      obtain ⟨o, found⟩ := List.exists_mem_of_ne_nil _ present
      have kept := ownersFound_adds adds found
      rw [← owners', none_ direct] at kept
      cases kept

end Logweir.OriginalName
