import Logweir.Protection.Recoveries

/-!
# The ledger over a run

A policy's ledger behind any passes and folds: one entry for each key, bounded, and for each kind
the entry that the passes so far account for.
-/

set_option autoImplicit false

namespace Logweir.Protection

open Logweir.SortedMaps

inductive Step where
  | pass (desiredOpen : List PolicyAlertKind) (health : Health) (now : Time)
  | fold (completions : List RecoveryCompletion) (now : Time)

def Step.now : Step → Time
  | .pass _ _ now => now
  | .fold _ now => now

def Step.wants (kind : PolicyAlertKind) : Step → Bool
  | .pass desiredOpen _ _ => desiredOpen.contains kind
  | .fold _ _ => false

def Step.clears (kind : PolicyAlertKind) : Step → Bool
  | .pass desiredOpen health _ => resolvesAlerts health && !desiredOpen.contains kind
  | .fold _ _ => false

def Step.isFold : Step → Bool
  | .pass _ _ _ => false
  | .fold _ _ => true

section
variable (uid : String)

def applyStep (entries : List AlertEntry) : Step → List AlertEntry
  | .pass desiredOpen health now => reconcileAlerts entries desiredOpen health uid now
  | .fold completions now => foldRecoveries entries completions now

def runFrom (entries : List AlertEntry) (steps : List Step) : List AlertEntry :=
  steps.foldl (applyStep uid) entries

def run (steps : List Step) : List AlertEntry := runFrom uid [] steps

def entryOf (entries : List AlertEntry) (kind : PolicyAlertKind) : Option AlertEntry :=
  entries.find? fun e => e.key == dedupKey uid kind

def openOf (entry : Option AlertEntry) : Bool := entry.any fun e => e.state == OPEN

def isOpen (entries : List AlertEntry) (kind : PolicyAlertKind) : Bool :=
  openOf (entryOf uid entries kind)

end

/-- An entry is of one of the policy's kinds or of a recovery, under its key. -/
structure Sound (uid : String) (entries : List AlertEntry) : Prop where
  nodup : (keysOf entries).Nodup
  shape : ∀ e ∈ entries, (∃ kind, e.key = dedupKey uid kind ∧ e.kind = kind.widen) ∨
    (∃ restoreUid, e.key = recoveryCompletedKey restoreUid ∧ e.kind = .recoveryCompleted)
  few : (standings entries).length ≤ MAX_RECOVERY_ALERTS

section
variable {uid : String} {entries : List AlertEntry}

theorem widen_ne (kind : PolicyAlertKind) : kind.widen ≠ .recoveryCompleted := by
  cases kind <;> exact AlertKind.noConfusion

theorem Sound.empty : Sound uid [] where
  nodup := List.nodup_nil
  shape := fun _ mem => absurd mem List.not_mem_nil
  few := Nat.zero_le _

theorem Sound.of_dedupKey (sound : Sound uid entries) {e : AlertEntry} (mem : e ∈ entries)
    {kind : PolicyAlertKind} (key : e.key = dedupKey uid kind) : e.kind = kind.widen := by
  rcases sound.shape e mem with ⟨kind', key', widened⟩ | ⟨restoreUid, key', _⟩
  · rw [dedupKey_inj (key.symm.trans key')]
    exact widened
  · exact absurd (key'.symm.trans key) (recoveryCompletedKey_ne _ _ _)

theorem Sound.isRecovery_iff (sound : Sound uid entries) {e : AlertEntry} (mem : e ∈ entries) :
    isRecovery e = true ↔ ∀ kind, e.key ≠ dedupKey uid kind := by
  rw [isRecovery, decide_eq_true_iff]
  constructor
  · intro recovery kind key
    exact widen_ne kind ((sound.of_dedupKey mem key).symm.trans recovery)
  · intro other
    rcases sound.shape e mem with ⟨kind, key, _⟩ | ⟨_, _, recovery⟩
    · exact absurd key (other kind)
    · exact recovery

theorem Sound.keyed (sound : Sound uid entries) : Keyed entries where
  nodup := sound.nodup
  recoveries := by
    intro e mem restoreUid key
    refine (sound.isRecovery_iff mem).mpr fun kind key' => ?_
    exact recoveryCompletedKey_ne _ _ _ (key.symm.trans key')

theorem mem_all (kind : PolicyAlertKind) : kind ∈ PolicyAlertKind.ALL := by
  cases kind <;> decide

theorem Sound.length_le (sound : Sound uid entries) : entries.length ≤ 4 + MAX_RECOVERY_ALERTS := by
  have parts := (List.filter_append_perm isRecovery entries).length_eq
  have recoveries : (entries.filter isRecovery).length ≤ MAX_RECOVERY_ALERTS := by
    have few := sound.few
    rwa [standings, List.length_map] at few
  have others : ((entries.filter fun e => !isRecovery e).map AlertEntry.key).length ≤
      (PolicyAlertKind.ALL.map (dedupKey uid)).length := by
    refine (List.Nodup.subperm ?_ fun k mem => ?_).length_le
    · exact sound.nodup.sublist (List.filter_sublist.map _)
    · obtain ⟨e, member, rfl⟩ := List.mem_map.mp mem
      obtain ⟨here, other⟩ := List.mem_filter.mp member
      rw [Bool.not_eq_true', ← Bool.not_eq_true, sound.isRecovery_iff here] at other
      push Not at other
      obtain ⟨kind, key⟩ := other
      exact List.mem_map.mpr ⟨kind, mem_all kind, key.symm⟩
  rw [List.length_map, List.length_map] at others
  rw [List.length_append] at parts
  have four : PolicyAlertKind.ALL.length = 4 := rfl
  omega

theorem entryOf_eq_some (nodup : (keysOf entries).Nodup) {kind : PolicyAlertKind}
    {e : AlertEntry} :
    entryOf uid entries kind = some e ↔ e ∈ entries ∧ e.key = dedupKey uid kind := by
  constructor
  · intro found
    have key := List.find?_some found
    exact ⟨List.mem_of_find?_eq_some found, beq_iff_eq.mp key⟩
  · rintro ⟨mem, key⟩
    have some_ : (entryOf uid entries kind).isSome = true := by
      rw [entryOf, List.find?_isSome]
      exact ⟨e, mem, beq_iff_eq.mpr key⟩
    obtain ⟨e', found⟩ := Option.isSome_iff_exists.mp some_
    have key' := List.find?_some found
    rw [beq_iff_eq] at key'
    rw [found, List.inj_on_of_nodup_map nodup (List.mem_of_find?_eq_some found) mem
      (key'.trans key.symm)]

end

theorem get?_byKeyOf : ∀ (entries : List AlertEntry) (m : SortedMap String AlertEntry),
    (keysOf entries).Nodup → ∀ (k : String) (e : AlertEntry),
      ((entries.foldl (fun m e => m.insert e.key e) m).get? k = some e ↔
        (e ∈ entries ∧ e.key = k) ∨ (k ∉ keysOf entries ∧ m.get? k = some e)) := by
  intro entries
  induction entries with
  | nil => simp [keysOf]
  | cons first entries ih =>
      intro m nodup k e
      have keys : keysOf (first :: entries) = first.key :: keysOf entries := rfl
      rw [keys, List.nodup_cons] at nodup
      rw [List.foldl_cons, ih _ nodup.2, keys, List.mem_cons, List.mem_cons, not_or]
      by_cases own : k = first.key
      · subst own
        rw [SortedMap.get?_insert_self]
        constructor
        · rintro (⟨mem, key⟩ | ⟨_, same⟩)
          · exact .inl ⟨.inr mem, key⟩
          · exact .inl ⟨.inl (Option.some.inj same).symm, (Option.some.inj same) ▸ rfl⟩
        · rintro (⟨rfl | mem, key⟩ | ⟨⟨other, _⟩, _⟩)
          · exact .inr ⟨nodup.1, rfl⟩
          · exact .inl ⟨mem, key⟩
          · exact absurd rfl other
      · rw [SortedMap.get?_insert_ne own]
        constructor
        · rintro (⟨mem, key⟩ | ⟨absent, found⟩)
          · exact .inl ⟨.inr mem, key⟩
          · exact .inr ⟨⟨own, absent⟩, found⟩
        · rintro (⟨rfl | mem, key⟩ | ⟨⟨_, absent⟩, found⟩)
          · exact absurd key.symm own
          · exact .inl ⟨mem, key⟩
          · exact .inr ⟨absent, found⟩

section
variable {desiredOpen : List PolicyAlertKind} {mayResolve : Bool} {uid : String} {now : Time}

theorem get?_moveKind_self (m : SortedMap String AlertEntry) (kind : PolicyAlertKind) :
    (moveKind desiredOpen mayResolve uid now m kind).get? (dedupKey uid kind) =
      nextEntry (dedupKey uid kind) kind mayResolve now (m.get? (dedupKey uid kind))
        (desiredOpen.contains kind) := by
  unfold moveKind
  simp only
  split
  · rename_i entry moved
    rw [SortedMap.get?_insert_self, moved]
  · rename_i gone
    rw [SortedMap.get?_erase_self, gone]

theorem get?_moveKind_ne (m : SortedMap String AlertEntry) (kind : PolicyAlertKind) {k : String}
    (apart : k ≠ dedupKey uid kind) :
    (moveKind desiredOpen mayResolve uid now m kind).get? k = m.get? k := by
  unfold moveKind
  simp only
  split
  · exact SortedMap.get?_insert_ne apart
  · exact SortedMap.get?_erase_ne apart

theorem get?_moveKinds_ne {k : String} : ∀ (kinds : List PolicyAlertKind)
    (m : SortedMap String AlertEntry), (∀ kind ∈ kinds, k ≠ dedupKey uid kind) →
      (kinds.foldl (moveKind desiredOpen mayResolve uid now) m).get? k = m.get? k := by
  intro kinds
  induction kinds with
  | nil => exact fun _ _ => rfl
  | cons first kinds ih =>
      intro m apart
      rw [List.foldl_cons, ih _ fun kind mem => apart kind (List.mem_cons_of_mem _ mem),
        get?_moveKind_ne _ _ (apart first List.mem_cons_self)]

theorem get?_moveKinds {kind : PolicyAlertKind} : ∀ (kinds : List PolicyAlertKind)
    (m : SortedMap String AlertEntry), kinds.Nodup → kind ∈ kinds →
      (kinds.foldl (moveKind desiredOpen mayResolve uid now) m).get? (dedupKey uid kind) =
        nextEntry (dedupKey uid kind) kind mayResolve now (m.get? (dedupKey uid kind))
          (desiredOpen.contains kind) := by
  intro kinds
  induction kinds with
  | nil => exact fun _ _ mem => absurd mem List.not_mem_nil
  | cons first kinds ih =>
      intro m nodup mem
      rw [List.nodup_cons] at nodup
      rw [List.foldl_cons]
      by_cases own : kind = first
      · subst own
        have apart : ∀ other ∈ kinds, dedupKey uid kind ≠ dedupKey uid other := by
          intro other here same
          obtain rfl : kind = other := dedupKey_inj same
          exact nodup.1 here
        rw [get?_moveKinds_ne kinds _ apart, get?_moveKind_self]
      · rw [ih _ nodup.2 (List.mem_of_ne_of_mem own mem),
          get?_moveKind_ne _ _ fun same => own (dedupKey_inj same)]

theorem nextEntry_key {kind : PolicyAlertKind} {current : Option AlertEntry} {wants : Bool}
    {e : AlertEntry} (keyed : ∀ e', current = some e' → e'.key = dedupKey uid kind)
    (next : nextEntry (dedupKey uid kind) kind mayResolve now current wants = some e) :
    e.key = dedupKey uid kind := by
  cases current with
  | none =>
      cases wants with
      | false => exact absurd next.symm (Option.some_ne_none _)
      | true => exact (Option.some.inj next) ▸ rfl
  | some entry =>
      have own := keyed entry rfl
      cases wants with
      | false =>
          rw [nextEntry] at next
          split at next
          · exact (Option.some.inj next) ▸ own
          · exact (Option.some.inj next) ▸ own
      | true =>
          rw [nextEntry] at next
          split at next
          · exact (Option.some.inj next) ▸ own
          · exact (Option.some.inj next) ▸ own

theorem nextEntry_kind {kind : PolicyAlertKind} {current : Option AlertEntry} {wants : Bool}
    {e : AlertEntry} (kinds : ∀ e', current = some e' → e'.kind = kind.widen)
    (next : nextEntry (dedupKey uid kind) kind mayResolve now current wants = some e) :
    e.kind = kind.widen := by
  cases current with
  | none =>
      cases wants with
      | false => exact absurd next.symm (Option.some_ne_none _)
      | true => exact (Option.some.inj next) ▸ rfl
  | some entry =>
      have own := kinds entry rfl
      cases wants with
      | false =>
          rw [nextEntry] at next
          split at next
          · exact (Option.some.inj next) ▸ own
          · exact (Option.some.inj next) ▸ own
      | true =>
          rw [nextEntry] at next
          split at next
          · exact (Option.some.inj next) ▸ own
          · exact (Option.some.inj next) ▸ own

end

section
variable {uid : String} {entries : List AlertEntry} (sound : Sound uid entries)
  (desiredOpen : List PolicyAlertKind) (health : Health) (now : Time)

def movedOf (uid : String) (entries : List AlertEntry) (desiredOpen : List PolicyAlertKind)
    (health : Health) (now : Time) : SortedMap String AlertEntry :=
  PolicyAlertKind.ALL.foldl (moveKind desiredOpen (resolvesAlerts health) uid now)
    (byKeyOf entries)

def nextOf (uid : String) (entries : List AlertEntry) (desiredOpen : List PolicyAlertKind)
    (health : Health) (now : Time) (kind : PolicyAlertKind) : Option AlertEntry :=
  nextEntry (dedupKey uid kind) kind (resolvesAlerts health) now (entryOf uid entries kind)
    (desiredOpen.contains kind)

theorem get?_moved_ne {k : String} (apart : ∀ kind, k ≠ dedupKey uid kind) :
    (movedOf uid entries desiredOpen health now).get? k = (byKeyOf entries).get? k :=
  get?_moveKinds_ne _ _ fun kind _ => apart kind

include sound

theorem Sound.get?_byKeyOf (k : String) (e : AlertEntry) :
    (byKeyOf entries).get? k = some e ↔ e ∈ entries ∧ e.key = k := by
  rw [byKeyOf, Protection.get?_byKeyOf entries _ sound.nodup]
  constructor
  · rintro (found | ⟨_, found⟩)
    · exact found
    · exact absurd found.symm (Option.some_ne_none _)
  · exact .inl

theorem Sound.get?_moved (kind : PolicyAlertKind) :
    (movedOf uid entries desiredOpen health now).get? (dedupKey uid kind) =
      nextOf uid entries desiredOpen health now kind := by
  have current : (byKeyOf entries).get? (dedupKey uid kind) = entryOf uid entries kind := by
    ext e
    rw [sound.get?_byKeyOf, entryOf_eq_some sound.nodup]
  rw [movedOf, get?_moveKinds _ _ (by decide) (mem_all kind), current, nextOf]

theorem Sound.nextOf_key {kind : PolicyAlertKind} {e : AlertEntry}
    (next : nextOf uid entries desiredOpen health now kind = some e) :
    e.key = dedupKey uid kind ∧ e.kind = kind.widen := by
  constructor
  · exact nextEntry_key (fun e' found => ((entryOf_eq_some sound.nodup).mp found).2) next
  · refine nextEntry_kind (fun e' found => ?_) next
    obtain ⟨mem, key⟩ := (entryOf_eq_some sound.nodup).mp found
    exact sound.of_dedupKey mem key

theorem Sound.moved_key {k : String} {e : AlertEntry}
    (mem : (k, e) ∈ (movedOf uid entries desiredOpen health now).entries) : e.key = k := by
  have found := SortedMap.get?_eq_some.mpr mem
  by_cases policy : ∃ kind, k = dedupKey uid kind
  · obtain ⟨kind, rfl⟩ := policy
    rw [sound.get?_moved] at found
    exact (sound.nextOf_key desiredOpen health now found).1
  · rw [get?_moved_ne desiredOpen health now fun kind key => policy ⟨kind, key⟩,
      sound.get?_byKeyOf] at found
    exact found.2

theorem Sound.mem_values {e : AlertEntry} :
    e ∈ (movedOf uid entries desiredOpen health now).values ↔
      (∃ kind, nextOf uid entries desiredOpen health now kind = some e) ∨
        (e ∈ entries ∧ ∀ kind, e.key ≠ dedupKey uid kind) := by
  have value : e ∈ (movedOf uid entries desiredOpen health now).values ↔
      (movedOf uid entries desiredOpen health now).get? e.key = some e := by
    rw [SortedMap.values, List.mem_map, SortedMap.get?_eq_some]
    constructor
    · rintro ⟨⟨k, e'⟩, mem, rfl⟩
      rw [sound.moved_key desiredOpen health now mem]
      exact mem
    · exact fun mem => ⟨(e.key, e), mem, rfl⟩
  rw [value]
  constructor
  · intro found
    by_cases policy : ∃ kind, e.key = dedupKey uid kind
    · obtain ⟨kind, key⟩ := policy
      rw [key, sound.get?_moved] at found
      exact .inl ⟨kind, found⟩
    · have apart : ∀ kind, e.key ≠ dedupKey uid kind := fun kind key => policy ⟨kind, key⟩
      rw [get?_moved_ne desiredOpen health now apart, sound.get?_byKeyOf] at found
      exact .inr ⟨found.1, apart⟩
  · rintro (⟨kind, next⟩ | ⟨mem, apart⟩)
    · rw [(sound.nextOf_key desiredOpen health now next).1, sound.get?_moved, next]
    · rw [get?_moved_ne desiredOpen health now apart, sound.get?_byKeyOf]
      exact ⟨mem, rfl⟩

theorem Sound.nodup_values :
    (keysOf (movedOf uid entries desiredOpen health now).values).Nodup := by
  have keys : keysOf (movedOf uid entries desiredOpen health now).values =
      (movedOf uid entries desiredOpen health now).keys := by
    rw [keysOf, SortedMap.values, SortedMap.keys, List.map_map]
    exact List.map_congr_left fun e mem => sound.moved_key desiredOpen health now mem
  rw [keys]
  exact SortedMap.keys_nodup _

theorem Sound.values_sound : Sound uid (movedOf uid entries desiredOpen health now).values where
  nodup := sound.nodup_values desiredOpen health now
  shape := by
    intro e mem
    rcases (sound.mem_values desiredOpen health now).mp mem with ⟨kind, next⟩ | ⟨here, _⟩
    · exact .inl ⟨kind, sound.nextOf_key desiredOpen health now next⟩
    · exact sound.shape e here
  few := by
    -- The recoveries of the ledger, and no other.
    have nodup := (List.Nodup.of_map _ (sound.nodup_values desiredOpen health now)).filter isRecovery
    have sub : (movedOf uid entries desiredOpen health now).values.filter isRecovery ⊆
        entries.filter isRecovery := by
      intro e mem
      obtain ⟨member, recovery⟩ := List.mem_filter.mp mem
      rcases (sound.mem_values desiredOpen health now).mp member with ⟨kind, next⟩ | ⟨here, _⟩
      · have widened := (sound.nextOf_key desiredOpen health now next).2
        rw [isRecovery, decide_eq_true_iff, widened] at recovery
        exact absurd recovery (widen_ne kind)
      · exact List.mem_filter.mpr ⟨here, recovery⟩
    have fewer := (nodup.subperm sub).length_le
    have few := sound.few
    rw [standings, List.length_map] at few ⊢
    exact Nat.le_trans fewer few

theorem Sound.reconcile_eq : reconcileAlerts entries desiredOpen health uid now =
    (movedOf uid entries desiredOpen health now).values.mergeSort
      fun a b => decide (a.key ≤ b.key) := by
  have length := (sound.values_sound desiredOpen health now).length_le
  rw [reconcileAlerts]
  refine List.take_of_length_le ?_
  rw [List.length_mergeSort]
  exact Nat.le_trans length (by decide)

theorem Sound.mem_reconcile {e : AlertEntry} :
    e ∈ reconcileAlerts entries desiredOpen health uid now ↔
      (∃ kind, nextOf uid entries desiredOpen health now kind = some e) ∨
        (e ∈ entries ∧ ∀ kind, e.key ≠ dedupKey uid kind) := by
  rw [sound.reconcile_eq, List.mem_mergeSort, sound.mem_values]

theorem Sound.reconcile : Sound uid (reconcileAlerts entries desiredOpen health uid now) := by
  have values := sound.values_sound desiredOpen health now
  have perm : (reconcileAlerts entries desiredOpen health uid now).Perm
      (movedOf uid entries desiredOpen health now).values := by
    rw [sound.reconcile_eq]
    exact List.mergeSort_perm _ _
  refine ⟨(perm.map _).nodup_iff.mpr values.nodup, fun e mem => values.shape e (perm.mem_iff.mp mem),
    ?_⟩
  rw [standings, ((perm.filter _).map _).length_eq]
  exact values.few

theorem Sound.reconcile_sorted : (reconcileAlerts entries desiredOpen health uid now).Pairwise
    fun a b => decide (a.key ≤ b.key) = true := by
  rw [sound.reconcile_eq]
  refine List.pairwise_mergeSort (fun a b c ab bc => ?_) (fun a b => ?_) _
  · rw [decide_eq_true_iff] at ab bc ⊢
    exact ab.trans bc
  · rw [Bool.or_eq_true, decide_eq_true_iff, decide_eq_true_iff]
    exact le_total _ _

theorem Sound.entryOf_reconcile (kind : PolicyAlertKind) :
    entryOf uid (reconcileAlerts entries desiredOpen health uid now) kind =
      nextOf uid entries desiredOpen health now kind := by
  ext e
  rw [entryOf_eq_some (sound.reconcile desiredOpen health now).nodup, sound.mem_reconcile]
  constructor
  · rintro ⟨⟨kind', next⟩ | ⟨_, apart⟩, key⟩
    · obtain rfl := dedupKey_inj ((sound.nextOf_key desiredOpen health now next).1.symm.trans key)
      exact next
    · exact absurd key (apart kind)
  · exact fun next => ⟨.inl ⟨kind, next⟩, (sound.nextOf_key desiredOpen health now next).1⟩

end

section
variable {uid : String} {entries : List AlertEntry} (sound : Sound uid entries)
  (completions : List RecoveryCompletion) (now : Time)
include sound

theorem Sound.fold : Sound uid (foldRecoveries entries completions now) := by
  have keyed := sound.keyed
  have pushed : Keyed (pushRecoveries now entries completions) := keyed.pushed
  refine ⟨(keyed.folded).nodup, fun e mem => ?_, ?_⟩
  · rcases mem_pushRecoveries.mp ((sublist_prune pushed.nodup).subset mem) with recorded | fresh
    · exact sound.shape e recorded
    · obtain ⟨_, c, _, rfl⟩ := (mem_added completions _).mp fresh
      exact .inr ⟨c.restoreUid, rfl, rfl⟩
  · have count := length_standings_prune pushed.nodup
    exact Nat.le_trans (Nat.le_of_eq count) (Nat.min_le_left _ _)

theorem Sound.entryOf_fold (kind : PolicyAlertKind) :
    entryOf uid (foldRecoveries entries completions now) kind = entryOf uid entries kind := by
  have pushed : Keyed (pushRecoveries now entries completions) := sound.keyed.pushed
  ext e
  rw [entryOf_eq_some (sound.fold completions now).nodup, entryOf_eq_some sound.nodup]
  refine and_congr_left fun key => ?_
  rw [foldRecoveries, mem_pruneRecoveries pushed.nodup, mem_pushRecoveries]
  constructor
  · rintro ⟨recorded | fresh, _⟩
    · exact recorded
    · obtain ⟨_, c, _, rfl⟩ := (mem_added completions _).mp fresh
      exact absurd key (recoveryCompletedKey_ne _ _ _)
  · exact fun recorded => ⟨.inl recorded, fun recovery =>
      absurd key ((sound.isRecovery_iff recorded).mp recovery kind)⟩

end

section
variable (uid : String) (kind : PolicyAlertKind)

def changes : List AlertEntry → List Step → Nat
  | _, [] => 0
  | entries, s :: steps =>
      (if isOpen uid entries kind = isOpen uid (applyStep uid entries s) kind then 0 else 1) +
        changes (applyStep uid entries s) steps

def lastOpening : List AlertEntry → Option Time → List Step → Option Time
  | _, opened, [] => opened
  | entries, opened, s :: steps =>
      lastOpening (applyStep uid entries s)
        (if isOpen uid entries kind = false ∧ isOpen uid (applyStep uid entries s) kind = true then
          some s.now
        else opened) steps

end

/-- An entry counts its changes and carries the last opening. -/
def Tallied (entry : Option AlertEntry) (n : Nat) (opened : Option Time) : Prop :=
  match entry with
  | none => n = 0 ∧ opened = none
  | some e => e.transition = some (wrapped n) ∧ e.openedAt = opened

theorem wrapped_succ (n : Nat) : wrapped (wrapped n + 1) = wrapped ((n + 1 : Nat) : Int) := by
  rw [wrapped, wrapped, wrapped, Int.bmod_add_bmod]
  rfl

theorem Tallied.next {current : Option AlertEntry} {n : Nat} {opened : Option Time}
    (tallied : Tallied current n opened) (key : String) (kind : PolicyAlertKind)
    (mayResolve : Bool) (now : Time) (wants : Bool) {next : Option AlertEntry}
    (moved : next = nextEntry key kind mayResolve now current wants) :
    Tallied next (n + if openOf current = openOf next then 0 else 1)
      (if openOf current = false ∧ openOf next = true then some now else opened) := by
  subst moved
  have closed : (RESOLVED == OPEN) = false := by decide
  have one : wrapped 1 = 1 := by decide
  cases current with
  | none =>
      obtain ⟨rfl, rfl⟩ := tallied
      cases wants with
      | false => exact ⟨rfl, rfl⟩
      | true => simp [nextEntry, Tallied, openOf, one]
  | some e =>
      obtain ⟨count, rfl⟩ := tallied
      have more : e.counted = some (wrapped ((n + 1 : Nat) : Int)) := by
        rw [AlertEntry.counted, count, Option.getD_some, wrapped_succ]
      by_cases open_ : e.state = OPEN
      · cases wants with
        | true => simp [nextEntry, Tallied, open_, count]
        | false =>
            cases mayResolve with
            | true => simp [nextEntry, Tallied, openOf, open_, closed, more]
            | false => simp [nextEntry, Tallied, open_, count]
      · cases wants with
        | true => simp [nextEntry, Tallied, openOf, open_, more]
        | false => simp [nextEntry, Tallied, open_, count]

section
variable {uid : String} {entries : List AlertEntry} (sound : Sound uid entries) (s : Step)
  (kind : PolicyAlertKind)
include sound

theorem Sound.step : Sound uid (applyStep uid entries s) := by
  cases s with
  | pass desiredOpen health now => exact sound.reconcile desiredOpen health now
  | fold completions now => exact sound.fold completions now

theorem Sound.entryOf_step : entryOf uid (applyStep uid entries s) kind =
    match s with
    | .pass desiredOpen health now => nextOf uid entries desiredOpen health now kind
    | .fold _ _ => entryOf uid entries kind := by
  cases s with
  | pass desiredOpen health now => exact sound.entryOf_reconcile desiredOpen health now kind
  | fold completions now => exact sound.entryOf_fold completions now kind

theorem Sound.isSome_step : (entryOf uid (applyStep uid entries s) kind).isSome = true ↔
    s.wants kind = true ∨ (entryOf uid entries kind).isSome = true := by
  rw [sound.entryOf_step]
  cases s with
  | fold completions now => simp [Step.wants]
  | pass desiredOpen health now =>
      simp only [Step.wants, nextOf]
      cases entryOf uid entries kind with
      | none => cases desiredOpen.contains kind <;> simp [nextEntry]
      | some e =>
          cases desiredOpen.contains kind with
          | true => rw [nextEntry]; split <;> simp
          | false => rw [nextEntry]; split <;> simp

theorem Sound.isOpen_step : isOpen uid (applyStep uid entries s) kind = true ↔
    s.wants kind = true ∨ (isOpen uid entries kind = true ∧ s.clears kind = false) := by
  rw [isOpen, sound.entryOf_step]
  cases s with
  | fold completions now => simp [Step.wants, Step.clears, isOpen]
  | pass desiredOpen health now =>
      simp only [Step.wants, Step.clears, nextOf, isOpen, openOf]
      cases entryOf uid entries kind with
      | none => cases desiredOpen.contains kind <;> simp [nextEntry]
      | some e =>
          cases desiredOpen.contains kind with
          | true =>
              rw [nextEntry]
              split
              · simp
              · rename_i already
                simpa using already
          | false =>
              rw [nextEntry]
              split
              · rename_i resolved
                have closed : RESOLVED ≠ OPEN := by decide
                simp [resolved.2, closed]
              · rename_i kept
                by_cases open_ : e.state = OPEN
                · have stays : resolvesAlerts health = false := by
                    simpa [open_] using kept
                  simp [open_, stays]
                · simp [open_]

theorem Sound.tallied_step {n : Nat} {opened : Option Time}
    (tallied : Tallied (entryOf uid entries kind) n opened) :
    Tallied (entryOf uid (applyStep uid entries s) kind)
      (n + if isOpen uid entries kind = isOpen uid (applyStep uid entries s) kind then 0 else 1)
      (if isOpen uid entries kind = false ∧ isOpen uid (applyStep uid entries s) kind = true then
        some s.now
      else opened) := by
  have after := sound.entryOf_step s kind
  cases s with
  | fold completions now =>
      simp only at after
      rw [isOpen, isOpen, after, if_pos rfl, if_neg fun both => by
        rw [both.1] at both
        exact Bool.noConfusion both.2]
      exact tallied
  | pass desiredOpen health now => exact tallied.next _ _ _ now _ after

end

section
variable {uid : String} (kind : PolicyAlertKind)

theorem Sound.runFrom (steps : List Step) : ∀ {entries : List AlertEntry}, Sound uid entries →
    Sound uid (runFrom uid entries steps) := by
  induction steps with
  | nil => exact fun sound => sound
  | cons s steps ih => exact fun sound => ih (sound.step s)

theorem Sound.run (steps : List Step) : Sound uid (run uid steps) := Sound.empty.runFrom steps

theorem isSome_runFrom (steps : List Step) : ∀ {entries : List AlertEntry}, Sound uid entries →
    ((entryOf uid (runFrom uid entries steps) kind).isSome = true ↔
      (∃ s ∈ steps, s.wants kind = true) ∨ (entryOf uid entries kind).isSome = true) := by
  induction steps with
  | nil => intro entries _; simp [Protection.runFrom]
  | cons s steps ih =>
      intro entries sound
      refine (ih (sound.step s)).trans ?_
      rw [sound.isSome_step s kind]
      simp only [List.mem_cons, exists_eq_or_imp]
      rw [or_assoc]
      exact or_left_comm

/-- Wanted open by a pass behind which none clears it. -/
def WantedLast (kind : PolicyAlertKind) (steps : List Step) : Prop :=
  ∃ before s after, steps = before ++ s :: after ∧ s.wants kind = true ∧
    ∀ s' ∈ after, s'.clears kind = false

theorem wantedLast_cons (s : Step) (steps : List Step) :
    WantedLast kind (s :: steps) ↔
      WantedLast kind steps ∨ (s.wants kind = true ∧ ∀ s' ∈ steps, s'.clears kind = false) := by
  constructor
  · rintro ⟨before, wanted, after, split, wants, quiet⟩
    cases before with
    | nil =>
        obtain ⟨rfl, rfl⟩ := List.cons.inj split
        exact .inr ⟨wants, quiet⟩
    | cons first before =>
        obtain ⟨_, rfl⟩ := List.cons.inj split
        exact .inl ⟨before, wanted, after, rfl, wants, quiet⟩
  · rintro (⟨before, wanted, after, rfl, wants, quiet⟩ | ⟨wants, quiet⟩)
    · exact ⟨s :: before, wanted, after, rfl, wants, quiet⟩
    · exact ⟨[], s, steps, rfl, wants, quiet⟩

theorem isOpen_runFrom (steps : List Step) : ∀ {entries : List AlertEntry}, Sound uid entries →
    (isOpen uid (runFrom uid entries steps) kind = true ↔ WantedLast kind steps ∨
      (isOpen uid entries kind = true ∧ ∀ s ∈ steps, s.clears kind = false)) := by
  induction steps with
  | nil =>
      intro entries _
      have none_ : ¬ WantedLast kind [] := by
        rintro ⟨before, s, after, split, _⟩
        exact List.append_ne_nil_of_right_ne_nil before (List.cons_ne_nil s after) split.symm
      simp [Protection.runFrom, none_]
  | cons s steps ih =>
      intro entries sound
      refine (ih (sound.step s)).trans ?_
      rw [sound.isOpen_step s kind, wantedLast_cons]
      simp only [List.forall_mem_cons]
      tauto

theorem tallied_runFrom (steps : List Step) : ∀ {entries : List AlertEntry} {n : Nat}
    {opened : Option Time}, Sound uid entries → Tallied (entryOf uid entries kind) n opened →
      Tallied (entryOf uid (runFrom uid entries steps) kind) (n + changes uid kind entries steps)
        (lastOpening uid kind entries opened steps) := by
  induction steps with
  | nil => exact fun _ tallied => tallied
  | cons s steps ih =>
      intro entries n opened sound tallied
      have later := ih (sound.step s) (sound.tallied_step s kind tallied)
      rw [Nat.add_assoc] at later
      exact later

end

/-- The last pass's wishes are met: what it wanted is open, and nothing else that it could
resolve. -/
def Met (uid : String) (desiredOpen : List PolicyAlertKind) (health : Health)
    (entries : List AlertEntry) : Prop :=
  ∀ kind, if desiredOpen.contains kind then isOpen uid entries kind = true
    else resolvesAlerts health = true → isOpen uid entries kind = false

theorem Met.nextOf_eq {uid : String} {desiredOpen : List PolicyAlertKind} {health : Health}
    {entries : List AlertEntry} (met : Met uid desiredOpen health entries) (now : Time)
    (kind : PolicyAlertKind) :
    nextOf uid entries desiredOpen health now kind = entryOf uid entries kind := by
  have here := met kind
  unfold isOpen at here
  unfold nextOf
  cases found : entryOf uid entries kind with
  | none =>
      rw [found] at here
      cases wants : desiredOpen.contains kind with
      | false => rfl
      | true =>
          rw [wants, if_pos rfl] at here
          exact absurd here Bool.noConfusion
  | some e =>
      rw [found] at here
      cases wants : desiredOpen.contains kind with
      | true =>
          rw [wants, if_pos rfl] at here
          have open_ : e.state = OPEN := by simpa [openOf] using here
          rw [nextEntry, if_neg (not_not.mpr open_)]
      | false =>
          rw [wants, if_neg Bool.false_ne_true] at here
          rw [nextEntry, if_neg]
          rintro ⟨open_, resolves⟩
          have closed := here resolves
          simp [openOf, open_] at closed

section
variable {uid : String} {entries : List AlertEntry} (sound : Sound uid entries)
  {desiredOpen : List PolicyAlertKind} {health : Health}
include sound

theorem Sound.met_pass (now : Time) :
    Met uid desiredOpen health (applyStep uid entries (.pass desiredOpen health now)) := by
  intro kind
  have after := sound.isOpen_step (.pass desiredOpen health now) kind
  split_ifs with wants
  · exact after.mpr (.inl wants)
  · intro resolves
    rw [← Bool.not_eq_true, after]
    rintro (wanted | ⟨_, stays⟩)
    · exact wants wanted
    · rw [Step.clears, resolves, Bool.true_and, Bool.not_eq_false'] at stays
      exact wants stays

theorem Sound.met_fold (met : Met uid desiredOpen health entries)
    (completions : List RecoveryCompletion) (now : Time) :
    Met uid desiredOpen health (applyStep uid entries (.fold completions now)) := by
  intro kind
  have same : isOpen uid (applyStep uid entries (.fold completions now)) kind =
      isOpen uid entries kind := by
    rw [isOpen, isOpen, sound.entryOf_step]
  rw [same]
  exact met kind

theorem Sound.met_folds (met : Met uid desiredOpen health entries) : ∀ (steps : List Step),
    (∀ s ∈ steps, s.isFold = true) → Met uid desiredOpen health (Protection.runFrom uid entries steps) := by
  intro steps
  induction steps generalizing entries with
  | nil => exact fun _ => met
  | cons s steps ih =>
      intro folds
      refine ih (sound.step s) ?_ fun s' mem => folds s' (List.mem_cons_of_mem _ mem)
      cases s with
      | fold completions now => exact sound.met_fold met completions now
      | pass _ _ _ => exact absurd (folds _ List.mem_cons_self) Bool.noConfusion

theorem Sound.perm_pass (met : Met uid desiredOpen health entries) (now : Time) :
    (applyStep uid entries (.pass desiredOpen health now)).Perm entries := by
  have again := sound.step (.pass desiredOpen health now)
  refine (List.perm_ext_iff_of_nodup (List.Nodup.of_map _ again.nodup)
    (List.Nodup.of_map _ sound.nodup)).mpr fun e => ?_
  rw [applyStep, sound.mem_reconcile]
  constructor
  · rintro (⟨kind, next⟩ | ⟨mem, _⟩)
    · rw [met.nextOf_eq] at next
      exact ((entryOf_eq_some sound.nodup).mp next).1
    · exact mem
  · intro mem
    by_cases policy : ∃ kind, e.key = dedupKey uid kind
    · obtain ⟨kind, key⟩ := policy
      refine .inl ⟨kind, ?_⟩
      rw [met.nextOf_eq]
      exact (entryOf_eq_some sound.nodup).mpr ⟨mem, key⟩
    · exact .inr ⟨mem, fun kind key => policy ⟨kind, key⟩⟩

theorem Sound.pass_again (now later : Time) :
    applyStep uid (applyStep uid entries (.pass desiredOpen health now))
        (.pass desiredOpen health later) =
      applyStep uid entries (.pass desiredOpen health now) := by
  have once := sound.step (.pass desiredOpen health now)
  refine List.Perm.eq_of_pairwise ?_ (once.reconcile_sorted desiredOpen health later)
    (sound.reconcile_sorted desiredOpen health now) (once.perm_pass (sound.met_pass now) later)
  intro a b memA memB ab ba
  have memA' := (once.perm_pass (sound.met_pass now) later).mem_iff.mp memA
  rw [decide_eq_true_iff] at ab ba
  exact List.inj_on_of_nodup_map once.nodup memA' memB (le_antisymm ab ba)

end

/-- What a run's ledger owes to its readers. -/
structure LedgerExact (uid : String) (steps : List Step) : Prop where
  one_per_key : (keysOf (run uid steps)).Nodup
  bounded : (run uid steps).length ≤ 4 + MAX_RECOVERY_ALERTS
  listed : ∀ kind, (entryOf uid (run uid steps) kind).isSome = true ↔
    ∃ s ∈ steps, s.wants kind = true
  opened : ∀ kind, isOpen uid (run uid steps) kind = true ↔ WantedLast kind steps
  counted : ∀ kind e, entryOf uid (run uid steps) kind = some e →
    e.transition = some (wrapped (changes uid kind [] steps)) ∧
      e.openedAt = lastOpening uid kind [] none steps
  /-- A pass as the last one was, right behind it or with folds between. -/
  repeated : ∀ before desiredOpen health now folds,
    steps = before ++ .pass desiredOpen health now :: folds → (∀ s ∈ folds, s.isFold = true) →
      ∀ later, (applyStep uid (run uid steps) (.pass desiredOpen health later)).Perm
        (run uid steps) ∧
        (folds = [] → applyStep uid (run uid steps) (.pass desiredOpen health later) =
          run uid steps)
  refolded : ∀ before completions now, steps = before ++ [.fold completions now] →
    ∀ later, now ≤ later →
      applyStep uid (run uid steps) (.fold completions later) = run uid steps

theorem run_append (uid : String) (before after : List Step) :
    run uid (before ++ after) = runFrom uid (run uid before) after := List.foldl_append

/-- The ledger is exact over every run, but for a fold that is repeated: and that one exactly when
no recovery that it left out would be listed again as a newer one. -/
theorem ledger_exact_iff (uid : String) (steps : List Step) :
    LedgerExact uid steps ↔ ∀ before completions now,
      steps = before ++ [.fold completions now] → Relisted (run uid before) completions now := by
  have sound : Sound uid (run uid steps) := Sound.run steps
  constructor
  · intro ledger before completions now split
    refine (refold_iff (Sound.run before).keyed).mp fun later le => ?_
    have same := ledger.refolded before completions now split later le
    rw [split, run_append] at same
    exact same
  · intro relisted
    refine ⟨sound.nodup, sound.length_le, fun kind => ?_, fun kind => ?_, fun kind e found => ?_,
      fun before desiredOpen health now folds split quiet later => ?_,
      fun before completions now split later le => ?_⟩
    · refine (isSome_runFrom kind steps Sound.empty).trans (or_iff_left ?_)
      exact Bool.noConfusion
    · refine (isOpen_runFrom kind steps Sound.empty).trans (or_iff_left ?_)
      exact fun both => Bool.noConfusion both.1
    · have tallied : Tallied (entryOf uid (run uid steps) kind) (0 + changes uid kind [] steps)
          (lastOpening uid kind [] none steps) :=
        tallied_runFrom kind steps Sound.empty ⟨rfl, rfl⟩
      rw [found, Nat.zero_add] at tallied
      exact tallied
    · have start : Sound uid (run uid before) := Sound.run before
      have whole : run uid steps = runFrom uid
          (applyStep uid (run uid before) (.pass desiredOpen health now)) folds := by
        rw [split, run_append]
        rfl
      have met := (start.step (.pass desiredOpen health now)).met_folds (start.met_pass now) folds
        quiet
      refine ⟨?_, ?_⟩
      · rw [whole] at sound ⊢
        exact sound.perm_pass met later
      · rintro rfl
        rw [whole]
        exact start.pass_again now later
    · have same := (refold_iff (Sound.run before).keyed).mpr (relisted before completions now split)
        later le
      rw [split, run_append]
      exact same

def recovered (restoreUid : String) (ended : Time) : RecoveryCompletion where
  restoreName := "restore"
  restoreUid := restoreUid
  phase := "Succeeded"
  outcome := some "pass"
  at_ := some ended

def firstEight : List RecoveryCompletion :=
  [recovered "1" 5, recovered "2" 10, recovered "3" 11, recovered "4" 12, recovered "5" 13,
    recovered "6" 14, recovered "7" 15, recovered "8" 16]

def twoMore : List RecoveryCompletion := [recovered "1" 20, recovered "9" 17]

/-- The first recovery is left out by its recorded time, and comes back by the listed one. -/
theorem recovery_comes_back : ¬ ∀ (uid : String) (steps : List Step), LedgerExact uid steps := by
  intro ledger
  have relisted : Relisted (run "policy" [.fold firstEight 100]) twoMore 101 :=
    (refold_iff (Sound.run _).keyed).mp
      ((ledger "policy" [.fold firstEight 100, .fold twoMore 101]).refolded
        [.fold firstEight 100] twoMore 101 rfl)
  have outranked : Outranked (pushRecoveries 101 (run "policy" [.fold firstEight 100]) twoMore)
      ((recovered "1" 5).entry 100).standing := by
    unfold Outranked
    decide +kernel
  obtain ⟨ended, at_, more⟩ := relisted (recovered "1" 20) (by decide +kernel)
    ((recovered "1" 5).entry 100) (by decide +kernel) rfl rfl outranked
  obtain rfl : 20 = ended := Option.some.inj at_
  have newest : ¬ Outranked (pushRecoveries 101 (run "policy" [.fold firstEight 100]) twoMore)
      ((recovered "1" 20).endedAt 20) := by
    unfold Outranked
    decide +kernel
  exact newest more

end Logweir.Protection
