import Logweir.Library.Ordered
import Logweir.Library.PrettyJson
import Mathlib.Data.Prod.Lex

/-!
# What a check result is bound to

`check_contract`: the binding a stored check result was taken under, the digest of its
canonical document, and why a result no longer applies.  Reasons are found field by field,
each with its own sorting; the digest is over a separately normalised document.
-/

set_option autoImplicit false

namespace Logweir.CheckContract

open Logweir.Json Logweir.Ordered Logweir.Text

inductive CheckOperation where
  | backup
  | restore
  | destinationAccess
  | sourceConnection
  | switchover
deriving DecidableEq

def CheckOperation.wire : CheckOperation → String
  | .backup => "Backup"
  | .restore => "Restore"
  | .destinationAccess => "DestinationAccess"
  | .sourceConnection => "SourceConnection"
  | .switchover => "Switchover"

structure Referent where
  kind : String
  «namespace» : String
  name : String
  uid : String
  generation : Option Int
deriving DecidableEq

structure CaBundleRef where
  destinationUid : String
  sha256 : String
deriving DecidableEq

structure RosterRef where
  uid : String
  generation : Int
deriving DecidableEq

structure ApprovalRef where
  uid : String
  resourceVersion : String
deriving DecidableEq

structure BindingInputs where
  operation : CheckOperation
  planHash : Option String
  topics : Option (List String)
  referents : List Referent
  caBundles : List CaBundleRef
  roster : RosterRef
  approval : Option ApprovalRef
  policyDigest : String
deriving DecidableEq

abbrev ReferentKey := String ×ₗ (String ×ₗ String)

def Referent.key (r : Referent) : ReferentKey := toLex (r.kind, toLex (r.namespace, r.name))

def sortBy {α κ : Type} [LinearOrder κ] (key : α → κ) (l : List α) : List α :=
  l.mergeSort fun a b => decide (key a ≤ key b)

def optionalMember {α : Type} (name : String) (render : α → Json) (value : Option α) :
    List (String × Json) :=
  match value with
  | some a => [(name, render a)]
  | none => []

def Referent.json (r : Referent) : Json :=
  .obj ([("kind", .str r.kind), ("namespace", .str r.namespace), ("name", .str r.name),
    ("uid", .str r.uid)] ++ optionalMember "generation" .num r.generation)

def CaBundleRef.json (c : CaBundleRef) : Json :=
  .obj [("destinationUid", .str c.destinationUid), ("sha256", .str c.sha256)]

def RosterRef.json (r : RosterRef) : Json :=
  .obj [("uid", .str r.uid), ("generation", .num r.generation)]

def ApprovalRef.json (a : ApprovalRef) : Json :=
  .obj [("uid", .str a.uid), ("resourceVersion", .str a.resourceVersion)]

def topicsJson (topics : List String) : Json := .arr (topics.map .str)

def BindingInputs.canonical (b : BindingInputs) : Json :=
  .obj ([("version", .num 1), ("operation", .str b.operation.wire)] ++
    optionalMember "planHash" .str b.planHash ++
    optionalMember "topics" topicsJson (b.topics.map sortDedup) ++
    [("referents", .arr ((sortBy Referent.key b.referents).map Referent.json)),
      ("caBundles", .arr ((sortBy CaBundleRef.destinationUid b.caBundles).map CaBundleRef.json)),
      ("roster", b.roster.json)] ++
    optionalMember "approval" ApprovalRef.json b.approval ++
    [("policyDigest", .str b.policyDigest)])

def BindingInputs.bytes (b : BindingInputs) : List UInt8 := toDeterministicJson b.canonical

def inputsDigest (sha256Prefixed : List UInt8 → String) (b : BindingInputs) : String :=
  sha256Prefixed b.bytes

inductive StaleReason where
  | expired
  | planHashChanged
  | referentChanged (what : String)
  | caBundleChanged
  | policyChanged
  | inputsDigestChanged
deriving DecidableEq

def findReferent (referents : List Referent) (k : ReferentKey) : Option Referent :=
  referents.reverse.find? fun r => r.key = k

def referentDiffers (recorded current : List Referent) (k : ReferentKey) : Bool :=
  match findReferent recorded k, findReferent current k with
  | some a, some b => a.uid != b.uid || a.generation != b.generation
  | _, _ => true

def changedReferents (recorded current : List Referent) : List StaleReason :=
  ((sortDedup (recorded.map Referent.key ++ current.map Referent.key)).filter
    (referentDiffers recorded current)).map fun k =>
      .referentChanged ((ofLex k).1 ++ "/" ++ (ofLex (ofLex k).2).2)

def approvalReason (recorded current : Option ApprovalRef) : StaleReason :=
  let uid :=
    match current.orElse fun _ => recorded with
    | some a => a.uid
    | none => ""
  .referentChanged ("Approval/" ++ uid)

def reasonIf (holds : Bool) (reason : StaleReason) : List StaleReason :=
  if holds then [reason] else []

def namedReasons (recorded : BindingInputs) (expiresAt : Option Int) (current : BindingInputs)
    (now : Int) : List StaleReason :=
  reasonIf (expiresAt.all fun e => decide (e ≤ now)) .expired ++
    reasonIf (recorded.planHash != current.planHash) .planHashChanged ++
    changedReferents recorded.referents current.referents ++
    reasonIf (recorded.roster != current.roster)
      (.referentChanged ("TrustRoster/" ++ current.roster.uid)) ++
    reasonIf (recorded.approval != current.approval)
      (approvalReason recorded.approval current.approval) ++
    reasonIf (sortBy CaBundleRef.destinationUid recorded.caBundles !=
      sortBy CaBundleRef.destinationUid current.caBundles) .caBundleChanged ++
    reasonIf (recorded.policyDigest != current.policyDigest) .policyChanged

def staleReasons (sha256Prefixed : List UInt8 → String) (recorded : BindingInputs)
    (expiresAt : Option Int) (current : BindingInputs) (now : Int) : List StaleReason :=
  let out := namedReasons recorded expiresAt current now
  if inputsDigest sha256Prefixed recorded != inputsDigest sha256Prefixed current &&
      out.all (· == .expired) then
    out ++ [.inputsDigestChanged]
  else out

section

variable {α κ : Type} [LinearOrder κ] {key : α → κ} {l l' : List α}

theorem sortBy_perm (key : α → κ) (l : List α) : (sortBy key l).Perm l :=
  List.mergeSort_perm l _

theorem sorted_sortBy (key : α → κ) (l : List α) :
    (sortBy key l).Pairwise fun a b => key a ≤ key b := by
  refine (List.pairwise_mergeSort (fun a b c ab bc => ?_) (fun a b => ?_) l).imp of_decide_eq_true
  · exact decide_eq_true (le_trans (of_decide_eq_true ab) (of_decide_eq_true bc))
  · rw [Bool.or_eq_true, decide_eq_true_eq, decide_eq_true_eq]
    exact le_total (key a) (key b)

theorem sortBy_eq_iff (distinct : (l.map key).Nodup) : sortBy key l = sortBy key l' ↔ l.Perm l' := by
  constructor
  · intro same
    exact (sortBy_perm key l).symm.trans (same ▸ sortBy_perm key l')
  · intro perm
    have sorted : (sortBy key l).Perm (sortBy key l') :=
      ((sortBy_perm key l).trans perm).trans (sortBy_perm key l').symm
    refine sorted.eq_of_pairwise (fun a b member member' ab ba => ?_) (sorted_sortBy key l)
      (sorted_sortBy key l')
    have mine := (sortBy_perm key l).mem_iff.mp member
    have its := perm.mem_iff.mpr ((sortBy_perm key l').mem_iff.mp member')
    exact List.inj_on_of_nodup_map distinct mine its (le_antisymm ab ba)

end

section

variable {α : Type} {name : String} {render : α → Json} {value value' : Option α}
  {rest rest' : List (String × Json)}

theorem optionalMember_inj (injective : ∀ a b, render a = render b → a = b)
    (other : ∀ m ∈ rest.head?, m.1 ≠ name) (other' : ∀ m ∈ rest'.head?, m.1 ≠ name)
    (same : optionalMember name render value ++ rest = optionalMember name render value' ++ rest') :
    value = value' ∧ rest = rest' := by
  unfold optionalMember at same
  cases value with
  | none =>
      cases value' with
      | none => exact ⟨rfl, same⟩
      | some a =>
          have head : rest.head? = some (name, render a) := by
            rw [List.nil_append] at same
            rw [same]
            rfl
          exact absurd rfl (other _ head)
  | some a =>
      cases value' with
      | none =>
          have head : rest'.head? = some (name, render a) := by
            rw [List.nil_append] at same
            rw [← same]
            rfl
          exact absurd rfl (other' _ head)
      | some b =>
          obtain ⟨here, later⟩ := List.cons.inj same
          exact ⟨congrArg some (injective a b (Prod.mk.inj here).2), later⟩

end

theorem wire_injective {a b : CheckOperation} (same : a.wire = b.wire) : a = b := by
  revert same
  cases a <;> cases b <;> decide

theorem referent_json_injective (a b : Referent) (same : a.json = b.json) : a = b := by
  obtain ⟨kind, ns, name, uid, generation⟩ := a
  obtain ⟨kind', ns', name', uid', generation'⟩ := b
  simp only [Referent.json, Json.obj.injEq, List.cons_append, List.nil_append, List.cons.injEq,
    Prod.mk.injEq, Json.str.injEq, true_and] at same
  obtain ⟨rfl, rfl, rfl, rfl, last⟩ := same
  have read : generation = generation' ∧ ([] : List (String × Json)) = [] :=
    optionalMember_inj (fun a b => Json.num.inj) (by simp) (by simp) (by simpa using last)
  rw [read.1]

theorem caBundle_json_injective (a b : CaBundleRef) (same : a.json = b.json) : a = b := by
  obtain ⟨uid, sha⟩ := a
  obtain ⟨uid', sha'⟩ := b
  simpa [CaBundleRef.json] using same

theorem roster_json_injective (a b : RosterRef) (same : a.json = b.json) : a = b := by
  obtain ⟨uid, generation⟩ := a
  obtain ⟨uid', generation'⟩ := b
  simpa [RosterRef.json] using same

theorem approval_json_injective (a b : ApprovalRef) (same : a.json = b.json) : a = b := by
  obtain ⟨uid, version⟩ := a
  obtain ⟨uid', version'⟩ := b
  simpa [ApprovalRef.json] using same

theorem topicsJson_injective (a b : List String) (same : topicsJson a = topicsJson b) : a = b :=
  List.map_injective_iff.mpr (fun _ _ => Json.str.inj) (Json.arr.inj same)

theorem topics_follow (topics : Option (List String)) (others : List (String × Json))
    (named : ∀ m ∈ others.head?, m.1 ≠ "planHash" := by simp) :
    ∀ m ∈ (optionalMember "topics" topicsJson (topics.map sortDedup) ++ others).head?,
      m.1 ≠ "planHash" := by
  cases topics with
  | none => exact named
  | some t => simp [optionalMember]

theorem canonical_eq_iff {b c : BindingInputs} : b.canonical = c.canonical ↔
    b.operation = c.operation ∧ b.planHash = c.planHash ∧
      b.topics.map sortDedup = c.topics.map sortDedup ∧
      sortBy Referent.key b.referents = sortBy Referent.key c.referents ∧
      sortBy CaBundleRef.destinationUid b.caBundles = sortBy CaBundleRef.destinationUid c.caBundles ∧
      b.roster = c.roster ∧ b.approval = c.approval ∧ b.policyDigest = c.policyDigest := by
  constructor
  · intro same
    have members := Json.obj.inj same
    simp only [List.cons_append, List.nil_append, List.append_assoc] at members
    obtain ⟨operation, members⟩ := List.cons.inj (List.cons.inj members).2
    obtain ⟨planHash, members⟩ := optionalMember_inj (fun _ _ => Json.str.inj)
      (topics_follow b.topics _) (topics_follow c.topics _) members
    obtain ⟨topics, members⟩ := optionalMember_inj topicsJson_injective (by simp) (by simp) members
    obtain ⟨referents, members⟩ := List.cons.inj members
    obtain ⟨caBundles, members⟩ := List.cons.inj members
    obtain ⟨roster, members⟩ := List.cons.inj members
    obtain ⟨approval, members⟩ :=
      optionalMember_inj approval_json_injective (by simp) (by simp) members
    exact ⟨wire_injective (Json.str.inj (Prod.mk.inj operation).2), planHash, topics,
      List.map_injective_iff.mpr referent_json_injective (Json.arr.inj (Prod.mk.inj referents).2),
      List.map_injective_iff.mpr caBundle_json_injective (Json.arr.inj (Prod.mk.inj caBundles).2),
      roster_json_injective _ _ (Prod.mk.inj roster).2, approval,
      Json.str.inj (Prod.mk.inj (List.cons.inj members).1).2⟩
  · rintro ⟨operation, planHash, topics, referents, caBundles, roster, approval, policyDigest⟩
    unfold BindingInputs.canonical
    rw [operation, planHash, topics, referents, caBundles, roster, approval, policyDigest]

/-- The topics of two bindings, as sets. -/
def SameTopics : Option (List String) → Option (List String) → Prop
  | none, none => True
  | some a, some b => ∀ t, t ∈ a ↔ t ∈ b
  | _, _ => False

/-- The two bindings have one canonical form: each list up to its order. -/
structure BindingInputs.Agree (b c : BindingInputs) : Prop where
  operation : b.operation = c.operation
  planHash : b.planHash = c.planHash
  topics : SameTopics b.topics c.topics
  referents : b.referents.Perm c.referents
  caBundles : b.caBundles.Perm c.caBundles
  roster : b.roster = c.roster
  approval : b.approval = c.approval
  policyDigest : b.policyDigest = c.policyDigest

/-- Every object and every destination occurs once. -/
structure BindingInputs.Distinct (b : BindingInputs) : Prop where
  referents : (b.referents.map Referent.key).Nodup
  caBundles : (b.caBundles.map CaBundleRef.destinationUid).Nodup

variable {b c : BindingInputs}

theorem sortDedup_eq_iff {l l' : List String} : sortDedup l = sortDedup l' ↔ ∀ t, t ∈ l ↔ t ∈ l' := by
  constructor
  · intro same t
    rw [← mem_sortDedup, same, mem_sortDedup]
  · exact sortDedup_congr

theorem sameTopics_iff {t t' : Option (List String)} :
    t.map sortDedup = t'.map sortDedup ↔ SameTopics t t' := by
  cases t with
  | none => cases t' <;> simp [SameTopics]
  | some a =>
      cases t' with
      | none => simp [SameTopics]
      | some b =>
          rw [Option.map_some, Option.map_some, Option.some.injEq]
          exact sortDedup_eq_iff

theorem agree_iff_canonical (distinct : b.Distinct) : b.canonical = c.canonical ↔ b.Agree c := by
  rw [canonical_eq_iff, sameTopics_iff, sortBy_eq_iff distinct.referents,
    sortBy_eq_iff distinct.caBundles]
  exact ⟨fun ⟨operation, planHash, topics, referents, caBundles, roster, approval, policy⟩ =>
    ⟨operation, planHash, topics, referents, caBundles, roster, approval, policy⟩,
    fun agree => ⟨agree.operation, agree.planHash, agree.topics, agree.referents, agree.caBundles,
      agree.roster, agree.approval, agree.policyDigest⟩⟩

theorem bytes_eq_iff (distinct : b.Distinct) : b.bytes = c.bytes ↔ b.Agree c := by
  rw [← agree_iff_canonical distinct]
  exact ⟨toDeterministicJson_injective, congrArg toDeterministicJson⟩

theorem reasonIf_eq_nil {holds : Bool} {reason : StaleReason} :
    reasonIf holds reason = [] ↔ holds = false := by
  cases holds <;> simp [reasonIf]

theorem findReferent_eq_some {referents : List Referent} (distinct : (referents.map Referent.key).Nodup)
    {k : ReferentKey} {r : Referent} :
    findReferent referents k = some r ↔ r ∈ referents ∧ r.key = k := by
  constructor
  · intro found
    exact ⟨List.mem_reverse.mp (List.mem_of_find?_eq_some found),
      of_decide_eq_true (List.find?_some (p := fun r : Referent => decide (r.key = k)) found)⟩
  · rintro ⟨member, keyed⟩
    obtain ⟨r', found⟩ : ∃ r', findReferent referents k = some r' := by
      refine Option.isSome_iff_exists.mp (List.find?_isSome.mpr ⟨r, List.mem_reverse.mpr member, ?_⟩)
      exact decide_eq_true keyed
    have member' := List.mem_reverse.mp (List.mem_of_find?_eq_some found)
    have keyed' : r'.key = k :=
      of_decide_eq_true (List.find?_some (p := fun r : Referent => decide (r.key = k)) found)
    rw [found, List.inj_on_of_nodup_map distinct member' member (keyed'.trans keyed.symm)]

theorem changedReferents_of_perm {recorded current : List Referent}
    (distinct : (recorded.map Referent.key).Nodup) (perm : recorded.Perm current) :
    changedReferents recorded current = [] := by
  have distinct' : (current.map Referent.key).Nodup := (perm.map _).nodup_iff.mp distinct
  have both : ∀ r ∈ recorded, referentDiffers recorded current r.key = false := by
    intro r member
    unfold referentDiffers
    rw [(findReferent_eq_some distinct).mpr ⟨member, rfl⟩,
      (findReferent_eq_some distinct').mpr ⟨perm.mem_iff.mp member, rfl⟩]
    simp
  unfold changedReferents
  rw [List.map_eq_nil_iff, List.filter_eq_nil_iff]
  intro k member
  rw [mem_sortDedup, List.mem_append, List.mem_map, List.mem_map] at member
  rw [Bool.not_eq_true]
  rcases member with ⟨r, member, rfl⟩ | ⟨r, member, rfl⟩
  · exact both r member
  · exact both r (perm.mem_iff.mpr member)

theorem namedReasons_of_agree (distinct : b.Distinct) (agree : b.Agree c) (expiresAt : Option Int)
    (now : Int) : namedReasons b expiresAt c now =
      reasonIf (expiresAt.all fun e => decide (e ≤ now)) .expired := by
  unfold namedReasons
  rw [agree.planHash, changedReferents_of_perm distinct.referents agree.referents, agree.roster,
    agree.approval, (sortBy_eq_iff distinct.caBundles).mpr agree.caBundles, agree.policyDigest]
  simp [reasonIf]

theorem current_iff {expiresAt : Option Int} {now : Int} :
    (expiresAt.all fun e => decide (e ≤ now)) = false ↔ ∃ e, expiresAt = some e ∧ now < e := by
  cases expiresAt with
  | none => simp
  | some e => simp

section

variable {sha256Prefixed : List UInt8 → String} {expiresAt : Option Int} {now : Int}

theorem inputsDigest_eq_iff (injective : Function.Injective sha256Prefixed) (distinct : b.Distinct) :
    inputsDigest sha256Prefixed b = inputsDigest sha256Prefixed c ↔ b.Agree c :=
  injective.eq_iff.trans (bytes_eq_iff distinct)

theorem staleReasons_eq_nil : staleReasons sha256Prefixed b expiresAt c now = [] ↔
    namedReasons b expiresAt c now = [] ∧
      inputsDigest sha256Prefixed b = inputsDigest sha256Prefixed c := by
  unfold staleReasons
  dsimp only
  split
  · next differ =>
      rw [Bool.and_eq_true, bne_iff_ne] at differ
      simp [differ.1]
  · next same =>
      rw [Bool.and_eq_true, bne_iff_ne, not_and] at same
      constructor
      · intro none
        refine ⟨none, by_contra fun differ => ?_⟩
        have other := same differ
        rw [none] at other
        exact other rfl
      · exact fun both => both.1

/-- A result applies exactly while its expiry is ahead and its binding is the current one,
and the digest tells the same. -/
theorem stale_exactly (injective : Function.Injective sha256Prefixed) (recorded current : BindingInputs)
    (distinct : recorded.Distinct) :
    (staleReasons sha256Prefixed recorded expiresAt current now = [] ↔
      (∃ e, expiresAt = some e ∧ now < e) ∧ recorded.Agree current) ∧
    (recorded.bytes = current.bytes ↔ recorded.Agree current) := by
  refine ⟨?_, bytes_eq_iff distinct⟩
  rw [staleReasons_eq_nil, inputsDigest_eq_iff injective distinct]
  constructor
  · rintro ⟨named, agree⟩
    rw [namedReasons_of_agree distinct agree, reasonIf_eq_nil] at named
    exact ⟨current_iff.mp named, agree⟩
  · rintro ⟨ahead, agree⟩
    rw [namedReasons_of_agree distinct agree, reasonIf_eq_nil]
    exact ⟨current_iff.mpr ahead, agree⟩

/-- One destination listed twice in another order, and one object, taken again. -/
theorem stale_exactly_reordered :
    let taken : BindingInputs :=
      { operation := .backup, planHash := none, topics := some ["b", "a"]
        referents := [⟨"Backup", "ns", "one", "u1", none⟩, ⟨"KafkaCluster", "ns", "k", "u2", some 3⟩]
        caBundles := [⟨"d2", "s2"⟩, ⟨"d1", "s1"⟩], roster := ⟨"r", 1⟩, approval := none
        policyDigest := "p" }
    let current := { taken with topics := some ["a", "b", "a"], caBundles := taken.caBundles.reverse }
    taken.Distinct ∧ staleReasons byteText taken (some 10) current 9 = [] := by
  intro taken current
  have distinct : taken.Distinct := ⟨by decide, by decide⟩
  have injective : Function.Injective byteText := fun _ _ => byteText_injective
  have agree : taken.Agree current :=
    { operation := rfl
      planHash := rfl
      topics := by simp [taken, current, SameTopics, or_comm]
      referents := .refl _
      caBundles := (List.reverse_perm _).symm
      roster := rfl
      approval := rfl
      policyDigest := rfl }
  exact ⟨distinct, (stale_exactly injective taken current distinct).1.mpr ⟨⟨10, rfl, by decide⟩, agree⟩⟩

end

end Logweir.CheckContract
