import Mathlib.Data.List.Induction
import Logweir.Library.TreeMaps
import Logweir.Catalog.Merge

/-!
# What a merged row says

A row is its point's first entry with the others folded in.  The locations of one id
fold to their worst verdict and the row's availability is the best of these; of the
signatures the worst stays, with the signer of the first entry that had it.
-/

set_option autoImplicit false

namespace Logweir.Catalog

open Std (ExtTreeMap ExtTreeSet)
open Logweir.Grouping

def said (fallback : Availability) (id : String) (ls : List EntryLocation) : List Availability :=
  (ls.filter fun l => l.locationId = id).map fun l => l.availabilityOr fallback

def RunnerEntry.valuesAt (e : RunnerEntry) (id : String) : List Availability :=
  said e.availability id e.locations

/-- Every location has an availability of its own. -/
def Settled (ls : List EntryLocation) : Prop := ∀ l ∈ ls, l.availability.isSome = true

def absorb : List Availability → Availability → List Availability
  | [], b => [b]
  | a :: rest, b => (if worse b a then b else a) :: rest

theorem availabilityOr_settled {l : EntryLocation} (settled : l.availability.isSome = true)
    (a b : Availability) : l.availabilityOr a = l.availabilityOr b := by
  obtain ⟨v, value⟩ := Option.isSome_iff_exists.mp settled
  unfold EntryLocation.availabilityOr
  rw [value]
  rfl

theorem settled_resolved (e : RunnerEntry) : Settled e.resolved.locations := by
  intro l member
  obtain ⟨l', -, rfl⟩ := List.mem_map.mp member
  rfl

theorem said_resolved (e : RunnerEntry) (fallback : Availability) (id : String) :
    said fallback id e.resolved.locations = e.valuesAt id := by
  unfold said RunnerEntry.valuesAt said RunnerEntry.resolved
  rw [List.filter_map, List.map_map]
  rfl

theorem mem_said {fallback a : Availability} {id : String} {ls : List EntryLocation} :
    a ∈ said fallback id ls ↔ ∃ l ∈ ls, l.locationId = id ∧ l.availabilityOr fallback = a := by
  unfold said
  simp only [List.mem_map, List.mem_filter, decide_eq_true_eq, and_assoc]

theorem said_ne_nil {fallback : Availability} {id : String} {ls : List EntryLocation} :
    said fallback id ls ≠ [] ↔ ∃ l ∈ ls, l.locationId = id := by
  unfold said
  rw [Ne, List.map_eq_nil_iff, List.filter_eq_nil_iff]
  simp

theorem settled_mergeLocation {keptAt entryAt : Availability} {location : EntryLocation}
    (own : location.availability.isSome = true) : ∀ {ls : List EntryLocation}, Settled ls →
      Settled (mergeLocation keptAt entryAt ls location) := by
  intro ls
  induction ls with
  | nil =>
      intro _ l member
      rw [List.mem_singleton.mp member]
      exact own
  | cons existing rest ih =>
      intro settled
      have later : Settled rest := fun l member => settled l (List.mem_cons_of_mem _ member)
      have first := settled existing List.mem_cons_self
      rw [mergeLocation]
      split
      · intro l member
        rcases List.mem_cons.mp member with rfl | member
        · split
          · rfl
          · exact first
        · exact later l member
      · intro l member
        rcases List.mem_cons.mp member with rfl | member
        · exact first
        · exact ih later l member

theorem said_mergeLocation {keptAt entryAt fallback : Availability} {location : EntryLocation}
    (id : String) (own : location.availability.isSome = true) :
    ∀ {ls : List EntryLocation}, Settled ls →
      said fallback id (mergeLocation keptAt entryAt ls location) =
        if location.locationId = id then
          absorb (said fallback id ls) (location.availabilityOr fallback)
        else said fallback id ls := by
  intro ls
  induction ls with
  | nil =>
      intro _
      by_cases same : location.locationId = id <;> simp [mergeLocation, said, same, absorb]
  | cons existing rest ih =>
      intro settled
      have first := settled existing List.mem_cons_self
      have later : Settled rest := fun l member => settled l (List.mem_cons_of_mem _ member)
      have keptValue := availabilityOr_settled first keptAt fallback
      have value := availabilityOr_settled own entryAt fallback
      rw [mergeLocation]
      split
      · rename_i met
        by_cases same : location.locationId = id
        · have here : existing.locationId = id := met.trans same
          have kept : said fallback id (existing :: rest) =
              existing.availabilityOr fallback :: said fallback id rest := by
            simp [said, here]
          rw [if_pos same, keptValue, value, kept, absorb]
          dsimp only
          by_cases bad : worse (location.availabilityOr fallback)
            (existing.availabilityOr fallback) = true
          · rw [if_pos bad, if_pos bad]
            simp [said, here, EntryLocation.availabilityOr]
          · rw [if_neg bad, if_neg bad]
            exact kept
        · have apart : ¬ existing.locationId = id := fun h => same (met.symm.trans h)
          rw [if_neg same]
          unfold said
          by_cases bad : worse (location.availabilityOr entryAt)
            (existing.availabilityOr keptAt) = true
          · simp [bad, apart]
          · simp [bad]
      · rename_i other
        have step := ih later
        by_cases here : existing.locationId = id
        · have same : ¬ location.locationId = id := fun h => other (here.trans h.symm)
          rw [if_neg same] at step ⊢
          unfold said at step ⊢
          simp [here, step]
        · unfold said at step ⊢
          simp [here, step]

theorem said_foldl {keptAt entryAt fallback : Availability} (id : String) :
    ∀ (locations : List EntryLocation) {ls : List EntryLocation}, Settled locations → Settled ls →
      Settled (locations.foldl (mergeLocation keptAt entryAt) ls) ∧
        said fallback id (locations.foldl (mergeLocation keptAt entryAt) ls) =
          (said fallback id locations).foldl absorb (said fallback id ls) := by
  intro locations
  induction locations with
  | nil => exact fun _ settled => ⟨settled, rfl⟩
  | cons location locations ih =>
      intro ls own settled
      have first := own location List.mem_cons_self
      have later : Settled locations := fun l member => own l (List.mem_cons_of_mem _ member)
      obtain ⟨still, values⟩ := ih later (settled_mergeLocation first settled)
      refine ⟨still, ?_⟩
      rw [List.foldl_cons, values, said_mergeLocation id first settled]
      by_cases same : location.locationId = id
      · simp [said, same]
      · simp [said, same]

theorem settled_insertionSort {ls : List EntryLocation} (settled : Settled ls) :
    Settled (ls.insertionSort ByLocationId) := fun l member =>
  settled l ((List.mem_insertionSort _).mp member)

theorem said_insertionSort (fallback : Availability) (id : String) (ls : List EntryLocation) :
    said fallback id (ls.insertionSort ByLocationId) = said fallback id ls := by
  unfold said
  rw [filter_insertionSort ByLocationId _ _ ls]
  intro a b ha hb
  have same : a.locationId = b.locationId :=
    (of_decide_eq_true ha).trans (of_decide_eq_true hb).symm
  exact le_of_eq same

theorem reached_absorb {n : Nat} : ∀ (vs ws : List Availability),
    (∃ a ∈ vs.foldl absorb ws, n ≤ availabilityRank a) ↔
      (∃ a ∈ ws.drop 1, n ≤ availabilityRank a) ∨
        ((ws ≠ [] ∨ vs ≠ []) ∧ (∀ a ∈ ws.take 1, n ≤ availabilityRank a) ∧
          ∀ a ∈ vs, n ≤ availabilityRank a) := by
  intro vs
  induction vs with
  | nil =>
      intro ws
      cases ws with
      | nil => simp
      | cons w ws => simp [or_comm]
  | cons v vs ih =>
      intro ws
      rw [List.foldl_cons, ih]
      cases ws with
      | nil => simp [absorb]
      | cons w ws =>
          have least : n ≤ availabilityRank (if worse v w then v else w) ↔
              n ≤ availabilityRank w ∧ n ≤ availabilityRank v := by
            unfold worse
            by_cases bad : availabilityRank v < availabilityRank w
            · simp only [bad, decide_true, if_true]
              omega
            · simp only [bad, decide_false, Bool.false_eq_true, if_false]
              omega
          simp only [absorb, List.drop_succ_cons, List.drop_zero, List.take_succ_cons,
            List.take_zero, least, List.mem_cons, ne_eq, List.not_mem_nil, false_implies, implies_true,
            reduceCtorEq, not_false_eq_true, true_or, true_and, or_true, forall_eq_or_imp,
            and_assoc]

theorem absorb_ne_nil (b : Availability) (ws : List Availability) : absorb ws b ≠ [] := by
  cases ws <;> simp [absorb]

theorem foldl_absorb_eq_nil : ∀ {vs ws : List Availability},
    vs.foldl absorb ws = [] ↔ ws = [] ∧ vs = [] := by
  intro vs
  induction vs with
  | nil => simp
  | cons v vs ih =>
      intro ws
      rw [List.foldl_cons, ih]
      simp [absorb_ne_nil]

theorem said_eq_nil {fallback : Availability} {ls : List EntryLocation} :
    (∀ id, said fallback id ls = []) ↔ ls = [] := by
  constructor
  · intro none
    cases ls with
    | nil => rfl
    | cons l ls =>
        have listed : said fallback l.locationId (l :: ls) ≠ [] :=
          said_ne_nil.mpr ⟨l, List.mem_cons_self, rfl⟩
        exact absurd (none l.locationId) listed
  · rintro rfl id
    rfl

/-- What the entries `es` folded into `e` make of it. -/
structure Folded (e : RunnerEntry) (es : List RunnerEntry) (r : RunnerEntry) : Prop where
  pointId : r.pointId = e.pointId
  facts : r.facts = e.facts
  recordedAt : r.recordedAt = e.recordedAt
  availability : r.availability = e.availability
  settled : Settled r.locations
  values : ∀ fallback id, said fallback id r.locations =
    (es.flatMap fun g => g.valuesAt id).foldl absorb (e.valuesAt id)
  worst : ∀ g ∈ e :: es, signatureRank r.signature ≤ signatureRank g.signature
  signer : ∃ g ∈ e :: es, g.signature = r.signature ∧ g.signerKeyId = r.signerKeyId
  first : (∀ g ∈ e :: es, signatureRank e.signature ≤ signatureRank g.signature) →
    r.signature = e.signature ∧ r.signerKeyId = e.signerKeyId

theorem folded_first (e : RunnerEntry) : Folded e [] e.resolved where
  pointId := rfl
  facts := rfl
  recordedAt := rfl
  availability := rfl
  settled := settled_resolved e
  values := fun fallback id => said_resolved e fallback id
  worst := by
    intro g member
    rw [List.mem_singleton.mp member]
    exact Nat.le_refl _
  signer := ⟨e, List.mem_cons_self, rfl, rfl⟩
  first := fun _ => ⟨rfl, rfl⟩

theorem mergeTopics_fields (kept entry : RunnerEntry) :
    (mergeTopics kept entry).pointId = kept.pointId ∧
      (mergeTopics kept entry).facts = kept.facts ∧
      (mergeTopics kept entry).recordedAt = kept.recordedAt ∧
      (mergeTopics kept entry).availability = kept.availability ∧
      (mergeTopics kept entry).locations = kept.locations ∧
      (mergeTopics kept entry).signature = kept.signature ∧
      (mergeTopics kept entry).signerKeyId = kept.signerKeyId := by
  unfold mergeTopics
  split
  · exact ⟨rfl, rfl, rfl, rfl, rfl, rfl, rfl⟩
  · split
    · exact ⟨rfl, rfl, rfl, rfl, rfl, rfl, rfl⟩
    · exact ⟨rfl, rfl, rfl, rfl, rfl, rfl, rfl⟩

theorem mergeSignature_fields (kept entry : RunnerEntry) :
    (mergeSignature kept entry).pointId = kept.pointId ∧
      (mergeSignature kept entry).facts = kept.facts ∧
      (mergeSignature kept entry).recordedAt = kept.recordedAt ∧
      (mergeSignature kept entry).availability = kept.availability ∧
      (mergeSignature kept entry).locations = kept.locations ∧
      ((mergeSignature kept entry).signature, (mergeSignature kept entry).signerKeyId) =
        if worseSignature entry.signature kept.signature then
          (entry.signature, entry.signerKeyId)
        else (kept.signature, kept.signerKeyId) := by
  unfold mergeSignature
  by_cases bad : worseSignature entry.signature kept.signature = true
  · rw [if_pos bad, if_pos bad]
    exact ⟨rfl, rfl, rfl, rfl, rfl, rfl⟩
  · rw [if_neg bad, if_neg bad]
    exact ⟨rfl, rfl, rfl, rfl, rfl, rfl⟩

theorem merge_fields (kept entry : RunnerEntry) :
    (kept.merge entry).pointId = kept.pointId ∧ (kept.merge entry).facts = kept.facts ∧
      (kept.merge entry).recordedAt = kept.recordedAt ∧
      (kept.merge entry).availability = kept.availability ∧
      (kept.merge entry).locations = mergeLocations kept entry ∧
      ((kept.merge entry).signature, (kept.merge entry).signerKeyId) =
        if worseSignature entry.signature kept.signature then
          (entry.signature, entry.signerKeyId)
        else (kept.signature, kept.signerKeyId) := by
  let located := { kept with locations := mergeLocations kept entry }
  obtain ⟨pointId, facts, recordedAt, availability, locations, signed⟩ :=
    mergeSignature_fields located entry
  obtain ⟨pointId', facts', recordedAt', availability', locations', signature', key'⟩ :=
    mergeTopics_fields (mergeSignature located entry) entry
  exact ⟨pointId'.trans pointId, facts'.trans facts, recordedAt'.trans recordedAt,
    availability'.trans availability, locations'.trans locations,
    (Prod.ext signature' key').trans signed⟩

theorem folded_merge {e g r : RunnerEntry} {es : List RunnerEntry} (f : Folded e es r) :
    Folded e (es ++ [g]) (r.merge g.resolved) := by
  obtain ⟨pointId, facts, recordedAt, availability, locations, signed⟩ :=
    merge_fields r g.resolved
  have known : ∀ x, x ∈ e :: (es ++ [g]) ↔ x ∈ e :: es ∨ x = g := by
    intro x
    simp only [List.mem_cons, List.mem_append, List.not_mem_nil, or_false, or_assoc]
  have merged := fun fallback id => @said_foldl r.availability g.availability fallback id
    g.resolved.locations _ (settled_resolved g) f.settled
  refine ⟨pointId.trans f.pointId, facts.trans f.facts, recordedAt.trans f.recordedAt,
    availability.trans f.availability, ?_, ?_, ?_, ?_, ?_⟩
  · rw [locations]
    exact settled_insertionSort (merged .available "").1
  · intro fallback id
    rw [locations, mergeLocations, said_insertionSort]
    rw [show g.resolved.availability = g.availability from rfl, (merged fallback id).2]
    rw [said_resolved, f.values, List.flatMap_append, List.foldl_append, List.flatMap_singleton]
  · intro x member
    have least : signatureRank (r.merge g.resolved).signature ≤ signatureRank r.signature ∧
        signatureRank (r.merge g.resolved).signature ≤ signatureRank g.signature := by
      have signature := congrArg Prod.fst signed
      dsimp only at signature
      rw [signature, show g.resolved.signature = g.signature from rfl]
      unfold worseSignature
      by_cases bad : signatureRank g.signature < signatureRank r.signature
      · rw [if_pos (decide_eq_true bad)]
        exact ⟨Nat.le_of_lt bad, Nat.le_refl _⟩
      · rw [if_neg (by simpa using bad)]
        exact ⟨Nat.le_refl _, Nat.le_of_not_lt bad⟩
    rcases (known x).mp member with earlier | rfl
    · exact Nat.le_trans least.1 (f.worst x earlier)
    · exact least.2
  · obtain ⟨h, member, signature, key⟩ := f.signer
    have signature' := congrArg Prod.fst signed
    have key' := congrArg Prod.snd signed
    dsimp only at signature' key'
    by_cases bad : worseSignature g.resolved.signature r.signature = true
    · rw [if_pos bad] at signature' key'
      exact ⟨g, (known g).mpr (.inr rfl), signature'.symm, key'.symm⟩
    · rw [if_neg bad] at signature' key'
      exact ⟨h, (known h).mpr (.inl member), signature.trans signature'.symm,
        key.trans key'.symm⟩
  · intro least
    obtain ⟨signature, key⟩ := f.first fun x member => least x ((known x).mpr (.inl member))
    have stays : ¬ worseSignature g.resolved.signature r.signature = true := by
      rw [signature, worseSignature, decide_eq_true_eq]
      exact Nat.not_lt_of_le (least g ((known g).mpr (.inr rfl)))
    rw [if_neg stays, signature, key] at signed
    exact Prod.mk.inj signed

theorem folded (e : RunnerEntry) : ∀ (es done : List RunnerEntry) (r : RunnerEntry),
    Folded e done r →
      Folded e (done ++ es) (es.foldl (fun kept g => kept.merge g.resolved) r) := by
  intro es
  induction es with
  | nil =>
      intro done r f
      rw [List.append_nil]
      exact f
  | cons g es ih =>
      intro done r f
      have step := ih (done ++ [g]) (r.merge g.resolved) (folded_merge f)
      rw [List.append_assoc] at step
      exact step

/-- Put first, `e` has the point found at a rank of `n` or higher: at a place it lists
again, or at one where everybody who looked there found it so; with no place listed by
anybody, by its own word. -/
def Reaches (e : RunnerEntry) (rest : List RunnerEntry) (n : Nat) : Prop :=
  (∃ id, (∃ a ∈ (e.valuesAt id).drop 1, n ≤ availabilityRank a) ∨
    ((∃ g ∈ e :: rest, g.valuesAt id ≠ []) ∧
      (∀ a ∈ (e.valuesAt id).take 1, n ≤ availabilityRank a) ∧
      ∀ g ∈ rest, ∀ a ∈ g.valuesAt id, n ≤ availabilityRank a)) ∨
  ((∀ g ∈ e :: rest, g.locations = []) ∧ n ≤ availabilityRank e.availability)

theorem locations_eq_nil {e r : RunnerEntry} {es : List RunnerEntry} (f : Folded e es r) :
    r.locations = [] ↔ ∀ g ∈ e :: es, g.locations = [] := by
  rw [← @said_eq_nil r.availability]
  constructor
  · intro none g member
    apply (@said_eq_nil g.availability _).mp
    intro id
    obtain ⟨first, rest⟩ := foldl_absorb_eq_nil.mp ((f.values _ id).symm.trans (none id))
    rcases List.mem_cons.mp member with rfl | later
    · exact first
    · exact List.flatMap_eq_nil_iff.mp rest g later
  · intro none id
    rw [f.values, foldl_absorb_eq_nil, List.flatMap_eq_nil_iff]
    constructor
    · unfold RunnerEntry.valuesAt
      rw [none e List.mem_cons_self]
      rfl
    · intro g member
      unfold RunnerEntry.valuesAt
      rw [none g (List.mem_cons_of_mem e member)]
      rfl

theorem le_bestAvailability {e r : RunnerEntry} {es : List RunnerEntry} (f : Folded e es r)
    (n : Nat) : n ≤ availabilityRank (bestAvailability r) ↔ Reaches e es n := by
  have nowhere := locations_eq_nil f
  have place : (∃ l ∈ r.locations, n ≤ availabilityRank (l.availabilityOr r.availability)) ↔
      ∃ id, ∃ a ∈ said r.availability id r.locations, n ≤ availabilityRank a := by
    constructor
    · rintro ⟨l, member, high⟩
      exact ⟨l.locationId, _, mem_said.mpr ⟨l, member, rfl, rfl⟩, high⟩
    · rintro ⟨id, a, member, high⟩
      obtain ⟨l, listed, -, rfl⟩ := mem_said.mp member
      exact ⟨l, listed, high⟩
  have reached : ∀ id, (∃ a ∈ said r.availability id r.locations, n ≤ availabilityRank a) ↔
      (∃ a ∈ (e.valuesAt id).drop 1, n ≤ availabilityRank a) ∨
        ((∃ g ∈ e :: es, g.valuesAt id ≠ []) ∧
          (∀ a ∈ (e.valuesAt id).take 1, n ≤ availabilityRank a) ∧
          ∀ g ∈ es, ∀ a ∈ g.valuesAt id, n ≤ availabilityRank a) := by
    intro id
    rw [f.values, reached_absorb]
    simp only [List.mem_flatMap, ne_eq, List.flatMap_eq_nil_iff, List.mem_cons,
      exists_eq_or_imp, not_forall, exists_prop, forall_exists_index, and_imp]
    constructor
    · rintro (again | ⟨listed, first, rest⟩)
      · exact .inl again
      · exact .inr ⟨listed, first, fun g member a value => rest a g member value⟩
    · rintro (again | ⟨listed, first, rest⟩)
      · exact .inl again
      · exact .inr ⟨listed, first, fun a g member value => rest g member a value⟩
  unfold bestAvailability
  cases found : best availabilityRank
    (r.locations.map fun l => l.availabilityOr r.availability) with
  | none =>
      have empty := List.map_eq_nil_iff.mp (best_eq_none.mp found)
      have none := nowhere.mp empty
      have unsaid : ∀ id, ¬ ∃ a ∈ said r.availability id r.locations, n ≤ availabilityRank a := by
        intro id
        rw [empty]
        rintro ⟨a, member, -⟩
        cases member
      rw [Option.getD_none, f.availability]
      constructor
      · exact fun high => .inr ⟨none, high⟩
      · rintro (⟨id, reaches⟩ | ⟨-, high⟩)
        · exact absurd ((reached id).mpr reaches) (unsaid id)
        · exact high
  | some a =>
      rw [Option.getD_some, le_best found]
      simp only [List.mem_map, exists_exists_and_eq_and]
      rw [place]
      constructor
      · rintro ⟨id, high⟩
        exact .inl ⟨id, (reached id).mp high⟩
      · rintro (⟨id, reaches⟩ | ⟨none, -⟩)
        · exact ⟨id, (reached id).mpr reaches⟩
        · rw [nowhere.mpr none] at found
          cases found

def observations (l : List RunnerEntry) (id : String) : List RunnerEntry :=
  l.filter fun e => e.pointId = id

theorem mem_observations {l : List RunnerEntry} {id : String} {e : RunnerEntry} :
    e ∈ observations l id ↔ e ∈ l ∧ e.pointId = id := by
  rw [observations, List.mem_filter, decide_eq_true_eq]

def merging (l : List RunnerEntry) : Merging := l.foldl Merging.add { byId := ∅, conflicted := ∅ }

def foldEntries (e : RunnerEntry) (es : List RunnerEntry) : RunnerEntry :=
  es.foldl (fun kept g => kept.merge g.resolved) e.resolved

theorem folded_entries (e : RunnerEntry) (es : List RunnerEntry) :
    Folded e es (foldEntries e es) := folded e es [] e.resolved (folded_first e)

theorem add_byId (m : Merging) (e : RunnerEntry) :
    (m.add e).byId = upsert (fun e => e.pointId) RunnerEntry.resolved
      (fun kept g => kept.merge g.resolved) m.byId e := by
  unfold Merging.add upsert
  dsimp only
  rw [show e.resolved.pointId = e.pointId from rfl]
  cases m.byId[e.pointId]? with
  | none => rfl
  | some kept => rfl

theorem byId_foldl : ∀ (l : List RunnerEntry) (m : Merging),
    (l.foldl Merging.add m).byId = l.foldl (upsert (fun e => e.pointId) RunnerEntry.resolved
      fun kept g => kept.merge g.resolved) m.byId := by
  intro l
  induction l with
  | nil => exact fun _ => rfl
  | cons e l ih =>
      intro m
      rw [List.foldl_cons, List.foldl_cons, ih, add_byId]

theorem getElem?_merging (l : List RunnerEntry) (id : String) :
    (merging l).byId[id]? =
      match observations l id with
      | [] => none
      | e :: es => some (foldEntries e es) := by
  unfold merging
  rw [byId_foldl, getElem?_foldl_upsert, ← observations]
  cases observations l id with
  | nil => exact ExtTreeMap.getElem?_empty
  | cons e es =>
      have start : (∅ : ExtTreeMap String RunnerEntry)[id]? = none := ExtTreeMap.getElem?_empty
      dsimp only
      rw [List.foldl_cons, start]
      exact foldl_gather _ _ es e.resolved

theorem contains_conflicted (id : String) : ∀ l : List RunnerEntry,
    (merging l).conflicted.contains id = true ↔
      ∃ e es, observations l id = e :: es ∧ ∃ g ∈ es, g.facts ≠ e.facts := by
  intro l
  induction l using List.reverseRecOn with
  | nil =>
      simp [merging, observations]
  | append_singleton l g ih =>
      have last : merging (l ++ [g]) = (merging l).add g := by
        unfold merging
        rw [List.foldl_append]
        rfl
      have seen : observations (l ++ [g]) id =
          observations l id ++ if g.pointId = id then [g] else [] := by
        unfold observations
        by_cases same : g.pointId = id <;> simp [same]
      rw [last, seen]
      by_cases same : g.pointId = id
      · subst same
        have held := getElem?_merging l g.pointId
        rw [if_pos rfl]
        cases obs : observations l g.pointId with
        | nil =>
            rw [obs] at held ih
            have unmarked : (merging l).conflicted.contains g.pointId = false := by
              rw [← Bool.not_eq_true, ih]
              rintro ⟨e, es, none, -⟩
              cases none
            have same : ((merging l).add g).conflicted = (merging l).conflicted := by
              unfold Merging.add
              dsimp only
              rw [show g.resolved.pointId = g.pointId from rfl, held]
            rw [same, unmarked]
            constructor
            · intro h
              cases h
            · rintro ⟨e, es, first, x, member, -⟩
              rw [List.nil_append] at first
              cases first
              cases member
        | cons e es =>
            rw [obs] at held ih
            dsimp only at held
            have kept := (folded_entries e es).facts
            have step : ((merging l).add g).conflicted =
                if e.facts ≠ g.facts then (merging l).conflicted.insert g.pointId
                else (merging l).conflicted := by
              unfold Merging.add
              dsimp only
              rw [show g.resolved.pointId = g.pointId from rfl, held]
              dsimp only
              rw [kept, show g.resolved.facts = g.facts from rfl]
            rw [step, List.cons_append]
            have earlier : (merging l).conflicted.contains g.pointId = true ↔
                ∃ x ∈ es, x.facts ≠ e.facts := by
              rw [ih]
              constructor
              · rintro ⟨_, _, first, differ⟩
                cases first
                exact differ
              · exact fun differ => ⟨e, es, rfl, differ⟩
            constructor
            · intro marked
              refine ⟨e, es ++ [g], rfl, ?_⟩
              by_cases agree : e.facts = g.facts
              · rw [if_neg (not_not.mpr agree)] at marked
                obtain ⟨x, member, differ⟩ := earlier.mp marked
                exact ⟨x, List.mem_append_left _ member, differ⟩
              · exact ⟨g, List.mem_append_right _ List.mem_cons_self, fun h => agree h.symm⟩
            · rintro ⟨_, _, first, x, member, differ⟩
              cases first
              by_cases agree : e.facts = g.facts
              · rw [if_neg (not_not.mpr agree)]
                rcases List.mem_append.mp member with before | now
                · exact earlier.mpr ⟨x, before, differ⟩
                · rw [List.mem_singleton.mp now] at differ
                  exact absurd agree.symm differ
              · rw [if_pos agree]
                exact ExtTreeSet.contains_insert_self
      · rw [if_neg same, List.append_nil]
        have apart : ¬ compare g.pointId id = .eq := fun h =>
          same (Std.compare_eq_iff_eq.mp h)
        have kept : ((merging l).add g).conflicted.contains id =
            (merging l).conflicted.contains id := by
          unfold Merging.add
          dsimp only
          rw [show g.resolved.pointId = g.pointId from rfl]
          cases (merging l).byId[g.pointId]? with
          | none => rfl
          | some k =>
              dsimp only
              split
              · rw [ExtTreeSet.contains_insert]
                simp [same]
              · rfl
        rw [kept, ih]

def keptRows (l : List RunnerEntry) : List RunnerEntry :=
  (merging l).byId.toList.map fun e => finish ((merging l).conflicted.contains e.2.pointId) e.2

theorem mergeEntries_perm (l : List RunnerEntry) : (mergeEntries l).Perm (keptRows l) :=
  List.perm_insertionSort _ _

theorem finish_fields (c : Bool) (e : RunnerEntry) :
    (finish c e).pointId = e.pointId ∧ (finish c e).facts = e.facts ∧
      (finish c e).recordedAt = e.recordedAt ∧ (finish c e).signature = e.signature ∧
      (finish c e).signerKeyId = e.signerKeyId ∧
      (finish c e).availability = if c then .conflict else bestAvailability e := by
  cases c with
  | true => exact ⟨rfl, rfl, rfl, rfl, rfl, rfl⟩
  | false => exact ⟨rfl, rfl, rfl, rfl, rfl, rfl⟩

theorem mem_mergeEntries {l : List RunnerEntry} {r : RunnerEntry} :
    r ∈ mergeEntries l ↔ ∃ id e es, observations l id = e :: es ∧
      r = finish ((merging l).conflicted.contains id) (foldEntries e es) := by
  rw [(mergeEntries_perm l).mem_iff]
  unfold keptRows
  rw [List.mem_map]
  constructor
  · rintro ⟨⟨id, kept⟩, member, rfl⟩
    have held := ExtTreeMap.mem_toList_iff_getElem?_eq_some.mp member
    rw [getElem?_merging] at held
    cases obs : observations l id with
    | nil =>
        rw [obs] at held
        cases held
    | cons e es =>
        rw [obs] at held
        cases held
        have named : (foldEntries e es).pointId = id := by
          rw [(folded_entries e es).pointId]
          exact (mem_observations.mp (by rw [obs]; exact List.mem_cons_self)).2
        refine ⟨id, e, es, obs, ?_⟩
        dsimp only
        rw [named]
  · rintro ⟨id, e, es, obs, rfl⟩
    have named : (foldEntries e es).pointId = id := by
      rw [(folded_entries e es).pointId]
      exact (mem_observations.mp (by rw [obs]; exact List.mem_cons_self)).2
    refine ⟨(id, foldEntries e es), ?_, ?_⟩
    · rw [ExtTreeMap.mem_toList_iff_getElem?_eq_some, getElem?_merging, obs]
    · dsimp only
      rw [named]

/-- A row: its entries `e` and `es` in their order, and what it shows of them. -/
structure RowOf (e : RunnerEntry) (es : List RunnerEntry) (r : RunnerEntry) : Prop where
  pointId : r.pointId = e.pointId
  facts : r.facts = e.facts
  signedAt : r.signedAt = e.signedAt
  worst : ∀ g ∈ e :: es, signatureRank r.signature ≤ signatureRank g.signature
  signer : ∃ g ∈ e :: es, g.signature = r.signature ∧ g.signerKeyId = r.signerKeyId
  first : (∀ g ∈ e :: es, signatureRank e.signature ≤ signatureRank g.signature) →
    r.signature = e.signature ∧ r.signerKeyId = e.signerKeyId
  conflict : (∃ g ∈ es, g.facts ≠ e.facts) → r.availability = .conflict
  best : (∀ g ∈ es, g.facts = e.facts) →
    ∀ n, n ≤ availabilityRank r.availability ↔ Reaches e es n

theorem rowOf_mergeEntries {l : List RunnerEntry} {r : RunnerEntry} (row : r ∈ mergeEntries l) :
    ∃ e es, observations l r.pointId = e :: es ∧ RowOf e es r := by
  obtain ⟨id, e, es, obs, rfl⟩ := mem_mergeEntries.mp row
  obtain ⟨pointId, facts, recordedAt, signature, key, availability⟩ :=
    finish_fields ((merging l).conflicted.contains id) (foldEntries e es)
  have f := folded_entries e es
  have named : e.pointId = id :=
    (mem_observations.mp (by rw [obs]; exact List.mem_cons_self)).2
  refine ⟨e, es, ?_, pointId.trans f.pointId, facts.trans f.facts, ?_, ?_, ?_, ?_, ?_, ?_⟩
  · rw [pointId, f.pointId, named]
    exact obs
  · have point := congrArg Facts.recoveryPointAtMs (facts.trans f.facts)
    unfold RunnerEntry.signedAt
    rw [recordedAt, f.recordedAt]
    exact congrArg (fun ms => e.recordedAt.or (timestampMillis ms)) point
  · rw [signature]
    exact f.worst
  · rw [signature, key]
    exact f.signer
  · rw [signature, key]
    exact f.first
  · intro differ
    rw [availability, if_pos ((contains_conflicted id l).mpr ⟨e, es, obs, differ⟩)]
  · intro agree n
    have unmarked : ¬ (merging l).conflicted.contains id = true := by
      rw [contains_conflicted, obs]
      rintro ⟨_, _, first, g, member, differ⟩
      cases first
      exact differ (agree g member)
    rw [availability, if_neg unmarked]
    exact le_bestAvailability f n

theorem exists_row {l : List RunnerEntry} {e : RunnerEntry} (member : e ∈ l) :
    ∃ r ∈ mergeEntries l, r.pointId = e.pointId := by
  cases obs : observations l e.pointId with
  | nil =>
      have here : e ∈ observations l e.pointId := mem_observations.mpr ⟨member, rfl⟩
      rw [obs] at here
      cases here
  | cons f fs =>
      refine ⟨_, mem_mergeEntries.mpr ⟨e.pointId, f, fs, obs, rfl⟩, ?_⟩
      rw [(finish_fields _ _).1, (folded_entries f fs).pointId]
      exact (mem_observations.mp (by rw [obs]; exact List.mem_cons_self)).2

theorem nodup_rows (l : List RunnerEntry) :
    ((mergeEntries l).map fun r => r.pointId).Nodup := by
  have keys : (keptRows l).map (fun r => r.pointId) =
      (merging l).byId.toList.map Prod.fst := by
    unfold keptRows
    rw [List.map_map]
    apply List.map_congr_left
    rintro ⟨id, kept⟩ member
    have held := ExtTreeMap.mem_toList_iff_getElem?_eq_some.mp member
    rw [getElem?_merging] at held
    cases obs : observations l id with
    | nil =>
        rw [obs] at held
        cases held
    | cons e es =>
        rw [obs] at held
        cases held
        rw [Function.comp, (finish_fields _ _).1, (folded_entries e es).pointId]
        exact (mem_observations.mp (by rw [obs]; exact List.mem_cons_self)).2
  rw [((mergeEntries_perm l).map _).nodup_iff, keys, ExtTreeMap.map_fst_toList_eq_keys]
  exact TreeMaps.keys_nodup _

end Logweir.Catalog
