import Logweir.Protection.Ledger

/-!
# Recoveries in the ledger

Which recoveries a fold keeps: the newest ones, of those recorded and those listed.  Folding the
same list again changes nothing exactly when none that is left out would come back newer.
-/

set_option autoImplicit false

namespace Logweir.Protection

open Logweir.Leaders

def keysOf (entries : List AlertEntry) : List String := entries.map AlertEntry.key

def RecoveryCompletion.key (c : RecoveryCompletion) : String := recoveryCompletedKey c.restoreUid

section
variable {now : Time} {entries : List AlertEntry} {completions : List RecoveryCompletion}

theorem pushRecovery_of_mem {c : RecoveryCompletion} (listed : c.key ∈ keysOf entries) :
    pushRecovery now entries c = entries := by
  obtain ⟨e, mem, same⟩ := List.mem_map.mp listed
  have any : (entries.any fun e => e.key == recoveryCompletedKey c.restoreUid) = true :=
    List.any_eq_true.mpr ⟨e, mem, beq_iff_eq.mpr same⟩
  rw [pushRecovery, if_pos any]

theorem pushRecovery_of_not_mem {c : RecoveryCompletion} (fresh : c.key ∉ keysOf entries) :
    pushRecovery now entries c = entries ++ [c.entry now] := by
  rw [pushRecovery, if_neg]
  intro listed
  obtain ⟨e, mem, same⟩ := List.any_eq_true.mp listed
  exact fresh (List.mem_map.mpr ⟨e, mem, beq_iff_eq.mp same⟩)

def added (now : Time) : List String → List RecoveryCompletion → List AlertEntry
  | _, [] => []
  | keys, c :: completions =>
      if c.key ∈ keys then added now keys completions
      else c.entry now :: added now (keys ++ [c.key]) completions

theorem pushRecoveries_eq : ∀ (completions : List RecoveryCompletion) (entries : List AlertEntry),
    pushRecoveries now entries completions =
      entries ++ added now (keysOf entries) completions := by
  intro completions
  induction completions with
  | nil => exact fun entries => (List.append_nil entries).symm
  | cons c completions ih =>
      intro entries
      rw [pushRecoveries, List.foldl_cons, added]
      by_cases listed : c.key ∈ keysOf entries
      · rw [pushRecovery_of_mem listed, if_pos listed]
        exact ih entries
      · rw [pushRecovery_of_not_mem listed, if_neg listed]
        refine (ih _).trans ?_
        rw [List.append_assoc, keysOf, List.map_append]
        rfl

theorem mem_added {e : AlertEntry} : ∀ (completions : List RecoveryCompletion)
    (keys : List String), e ∈ added now keys completions ↔
      e.key ∉ keys ∧ ∃ c, completions.find? (fun d => d.key == e.key) = some c ∧
        e = c.entry now := by
  intro completions
  induction completions with
  | nil => simp [added]
  | cons c completions ih =>
      intro keys
      rw [added]
      by_cases own : c.key = e.key
      · have first : (c :: completions).find? (fun d => d.key == e.key) = some c := by
          simp [own]
        rw [first]
        split_ifs with listed
        · rw [ih]
          exact iff_of_false (fun h => h.1 (own ▸ listed)) fun h => h.1 (own ▸ listed)
        · rw [List.mem_cons, ih]
          constructor
          · rintro (rfl | ⟨fresh, _⟩)
            · exact ⟨listed, c, rfl, rfl⟩
            · exact absurd (List.mem_append_right keys (own ▸ List.mem_cons_self)) fresh
          · rintro ⟨_, d, same, rfl⟩
            exact .inl (Option.some.inj same ▸ rfl)
      · have later : (c :: completions).find? (fun d => d.key == e.key) =
            completions.find? (fun d => d.key == e.key) := by
          simp [own]
        rw [later]
        split_ifs with listed
        · exact ih keys
        · have other : e ≠ c.entry now := fun same => own (same ▸ rfl)
          rw [List.mem_cons, ih, List.mem_append, List.mem_singleton, not_or]
          constructor
          · rintro (same | ⟨⟨fresh, _⟩, rest⟩)
            · exact absurd same other
            · exact ⟨fresh, rest⟩
          · rintro ⟨fresh, rest⟩
            exact .inr ⟨⟨fresh, fun same => own same.symm⟩, rest⟩

theorem keys_added : ∀ (completions : List RecoveryCompletion) (keys : List String),
    keys.Nodup → (keys ++ keysOf (added now keys completions)).Nodup := by
  intro completions
  induction completions with
  | nil =>
      intro keys nodup
      rw [added, keysOf, List.map_nil, List.append_nil]
      exact nodup
  | cons c completions ih =>
      intro keys nodup
      rw [added]
      split_ifs with listed
      · exact ih keys nodup
      · have more := ih (keys ++ [c.key]) (List.nodup_append.mpr
          ⟨nodup, List.nodup_singleton _, fun a mem b last same => listed
            (List.mem_singleton.mp last ▸ same ▸ mem)⟩)
        rw [List.append_assoc] at more
        exact more

theorem nodup_pushRecoveries (nodup : (keysOf entries).Nodup) :
    (keysOf (pushRecoveries now entries completions)).Nodup := by
  rw [pushRecoveries_eq, keysOf, List.map_append]
  exact keys_added completions (keysOf entries) nodup

theorem listed_pushRecoveries {c : RecoveryCompletion} (mem : c ∈ completions) :
    c.key ∈ keysOf (pushRecoveries now entries completions) := by
  by_cases recorded : c.key ∈ keysOf entries
  · rw [pushRecoveries_eq, keysOf, List.map_append]
    exact List.mem_append_left _ recorded
  · have listed : (completions.find? fun d => d.key == c.key).isSome = true := by
      rw [List.find?_isSome]
      exact ⟨c, mem, beq_self_eq_true _⟩
    obtain ⟨d, first⟩ := Option.isSome_iff_exists.mp listed
    have same : d.key = c.key := by
      have found := List.find?_some first
      exact beq_iff_eq.mp found
    rw [pushRecoveries_eq, keysOf, List.map_append]
    refine List.mem_append_right _ (List.mem_map.mpr ⟨d.entry now, ?_, same⟩)
    have key : (d.entry now).key = c.key := same
    refine (mem_added completions _).mpr ⟨?_, d, ?_, rfl⟩
    · rw [key]
      exact recorded
    · rw [key]
      exact first

end

section
variable {entries : List AlertEntry} (nodup : (keysOf entries).Nodup)
include nodup

theorem nodup_standings : (standings entries).Nodup := by
  have keys : ((entries.filter isRecovery).map AlertEntry.key).Nodup :=
    List.Nodup.sublist (List.filter_sublist.map _) nodup
  have again : ((entries.filter isRecovery).map AlertEntry.standing).map
      (fun s : Standing => (ofLex s).2) = (entries.filter isRecovery).map AlertEntry.key := by
    rw [List.map_map]
    rfl
  exact List.Nodup.of_map _ (again ▸ keys)

theorem mem_standings {e : AlertEntry} (mem : e ∈ entries) :
    e.standing ∈ standings entries ↔ isRecovery e = true := by
  constructor
  · intro place
    obtain ⟨e', mem', same⟩ := List.mem_map.mp place
    obtain ⟨here, recovery⟩ := List.mem_filter.mp mem'
    have key : e'.key = e.key := congrArg (fun s : Standing => (ofLex s).2) same
    rw [← List.inj_on_of_nodup_map nodup here mem key]
    exact recovery
  · exact fun recovery => List.mem_map.mpr ⟨e, List.mem_filter.mpr ⟨mem, recovery⟩, rfl⟩

theorem pruneRecoveries_eq :
    pruneRecoveries entries = entries.filter fun e =>
      !isRecovery e || decide (aboveOf (standings entries) e.standing < MAX_RECOVERY_ALERTS) := by
  unfold pruneRecoveries
  split_ifs with few
  · symm
    refine List.filter_eq_self.mpr fun e mem => ?_
    cases recovery : isRecovery e with
    | false => rfl
    | true =>
        have below := aboveOf_lt_length ((mem_standings nodup mem).mpr recovery)
        rw [Bool.not_true, Bool.false_or, decide_eq_true_iff]
        omega
  · refine List.filter_congr fun e mem => ?_
    cases recovery : isRecovery e with
    | false => rfl
    | true =>
        rw [Bool.not_true, Bool.false_or, Bool.false_or, Bool.eq_iff_iff, decide_eq_true_iff,
          List.contains_iff_mem, mem_leaders (nodup_standings nodup)]
        exact and_iff_right ((mem_standings nodup mem).mpr recovery)

theorem mem_pruneRecoveries {e : AlertEntry} :
    e ∈ pruneRecoveries entries ↔ e ∈ entries ∧ (isRecovery e = true →
      aboveOf (standings entries) e.standing < MAX_RECOVERY_ALERTS) := by
  rw [pruneRecoveries_eq nodup, List.mem_filter, Bool.or_eq_true, Bool.not_eq_true',
    decide_eq_true_iff]
  cases isRecovery e <;> simp

theorem standings_pruneRecoveries :
    (standings (pruneRecoveries entries)).Perm
      (leaders MAX_RECOVERY_ALERTS (standings entries)) := by
  have sub : (pruneRecoveries entries).Sublist entries := by
    rw [pruneRecoveries_eq nodup]
    exact List.filter_sublist
  have nodup' : (keysOf (pruneRecoveries entries)).Nodup := nodup.sublist (sub.map _)
  refine (List.perm_ext_iff_of_nodup (nodup_standings nodup')
    (nodup_leaders _ (nodup_standings nodup))).mpr fun s => ?_
  rw [mem_leaders (nodup_standings nodup)]
  constructor
  · intro place
    obtain ⟨e, mem, rfl⟩ := List.mem_map.mp place
    obtain ⟨kept, recovery⟩ := List.mem_filter.mp mem
    obtain ⟨here, few⟩ := (mem_pruneRecoveries nodup).mp kept
    exact ⟨(mem_standings nodup here).mpr recovery, few recovery⟩
  · rintro ⟨place, few⟩
    obtain ⟨e, mem, rfl⟩ := List.mem_map.mp place
    obtain ⟨here, recovery⟩ := List.mem_filter.mp mem
    exact List.mem_map.mpr ⟨e, List.mem_filter.mpr
      ⟨(mem_pruneRecoveries nodup).mpr ⟨here, fun _ => few⟩, recovery⟩, rfl⟩

theorem length_standings_prune :
    (standings (pruneRecoveries entries)).length =
      min MAX_RECOVERY_ALERTS (standings entries).length := by
  rw [(standings_pruneRecoveries nodup).length_eq, length_leaders]

end

/-- At least eight recoveries of a ledger are newer. -/
def Outranked (entries : List AlertEntry) (place : Standing) : Prop :=
  MAX_RECOVERY_ALERTS ≤ aboveOf (standings entries) place

def RecoveryCompletion.endedAt (c : RecoveryCompletion) (ended : Time) : Standing :=
  toLex ((ended : WithBot Int), c.key)

/-- Of the recoveries recorded and listed, a listed one that eight are newer than carries the end
time it would be listed with again, and by that time too eight are newer. -/
def Relisted (existing : List AlertEntry) (completions : List RecoveryCompletion) (now : Time) :
    Prop :=
  ∀ c, completions.find? (fun d => d.key == c.key) = some c →
    ∀ e ∈ pushRecoveries now existing completions, e.key = c.key → isRecovery e = true →
      Outranked (pushRecoveries now existing completions) e.standing →
      ∃ ended, c.at_ = some ended ∧
        Outranked (pushRecoveries now existing completions) (c.endedAt ended)

section
variable {entries : List AlertEntry} (nodup : (keysOf entries).Nodup)
include nodup

theorem prune_append_of_below {more : List AlertEntry}
    (apart : (keysOf (pruneRecoveries entries ++ more)).Nodup)
    (all : ∀ n ∈ more, isRecovery n = true)
    (full : MAX_RECOVERY_ALERTS ≤ (standings entries).length)
    (below : ∀ n ∈ more, ∀ s ∈ standings (pruneRecoveries entries), n.standing < s) :
    pruneRecoveries (pruneRecoveries entries ++ more) = pruneRecoveries entries := by
  have split : standings (pruneRecoveries entries ++ more) =
      standings (pruneRecoveries entries) ++ standings more := by
    rw [standings, List.filter_append, List.map_append]
    rfl
  have length := length_standings_prune nodup
  have none_ : more.filter (fun e => !isRecovery e || decide (aboveOf
      (standings (pruneRecoveries entries ++ more)) e.standing < MAX_RECOVERY_ALERTS)) = [] := by
    refine List.filter_eq_nil_iff.mpr fun n mem kept => ?_
    rw [all n mem, Bool.not_true, Bool.false_or, decide_eq_true_iff, split, aboveOf_append,
      aboveOf_eq_length (below n mem)] at kept
    omega
  have stay : (pruneRecoveries entries).filter (fun e => !isRecovery e || decide (aboveOf
      (standings (pruneRecoveries entries ++ more)) e.standing < MAX_RECOVERY_ALERTS)) =
      pruneRecoveries entries := by
    refine List.filter_eq_self.mpr fun e mem => ?_
    cases recovery : isRecovery e with
    | false => rfl
    | true =>
        have place : e.standing ∈ standings (pruneRecoveries entries) :=
          List.mem_map.mpr ⟨e, List.mem_filter.mpr ⟨mem, recovery⟩, rfl⟩
        have over_ : aboveOf (standings more) e.standing = 0 := by
          refine aboveOf_eq_zero fun s here => ?_
          obtain ⟨n, member, rfl⟩ := List.mem_map.mp here
          exact (below n (List.mem_filter.mp member).1 _ place).le
        have few := aboveOf_lt_length place
        rw [Bool.not_true, Bool.false_or, decide_eq_true_iff, split, aboveOf_append, over_]
        omega
  rw [pruneRecoveries_eq apart, List.filter_append, none_, stay, List.append_nil]

end

theorem below_of_prune_append {entries more : List AlertEntry}
    (apart : (keysOf (pruneRecoveries entries ++ more)).Nodup)
    (same : pruneRecoveries (pruneRecoveries entries ++ more) = pruneRecoveries entries) :
    ∀ n ∈ more, ∀ s ∈ standings (pruneRecoveries entries), n.standing < s := by
  intro n mem s place
  obtain ⟨e, member, rfl⟩ := List.mem_map.mp place
  obtain ⟨kept, recovery⟩ := List.mem_filter.mp member
  by_contra not_below
  have few := ((mem_pruneRecoveries apart).mp (same.symm ▸ kept)).2 recovery
  have fewer := lt_of_le_of_lt (aboveOf_anti (standings (pruneRecoveries entries ++ more))
    (not_lt.mp not_below)) few
  have back : n ∈ pruneRecoveries entries :=
    same ▸ (mem_pruneRecoveries apart).mpr ⟨List.mem_append_right _ mem, fun _ => fewer⟩
  rw [keysOf, List.map_append] at apart
  exact (List.nodup_append.mp apart).2.2 n.key (List.mem_map_of_mem back) n.key
    (List.mem_map_of_mem mem) rfl

theorem mem_pushRecoveries {now : Time} {existing : List AlertEntry}
    {completions : List RecoveryCompletion} {e : AlertEntry} :
    e ∈ pushRecoveries now existing completions ↔
      e ∈ existing ∨ e ∈ added now (keysOf existing) completions := by
  rw [pushRecoveries_eq, List.mem_append]

theorem isRecovery_added {now : Time} {keys : List String}
    {completions : List RecoveryCompletion} {e : AlertEntry}
    (mem : e ∈ added now keys completions) : isRecovery e = true := by
  obtain ⟨_, c, _, rfl⟩ := (mem_added completions keys).mp mem
  rfl

theorem endedAt_eq {c : RecoveryCompletion} {ended : Time} (at_ : c.at_ = some ended)
    (now : Time) : (c.entry now).standing = c.endedAt ended := by
  rw [AlertEntry.standing, RecoveryCompletion.entry, at_, Option.some_or]
  rfl

theorem opened_le {e r : AlertEntry} (lt : e.standing < r.standing) {t : Time}
    (opened : e.openedAt = some t) : ∃ t', r.openedAt = some t' ∧ t ≤ t' := by
  have le : (ofLex e.standing).1 ≤ (ofLex r.standing).1 := by
    rcases Prod.Lex.lt_iff.mp lt with before | ⟨same, _⟩
    · exact before.le
    · exact same.le
  rw [show (ofLex e.standing).1 = (t : WithBot Int) from opened] at le
  obtain ⟨t', place, before⟩ := WithBot.coe_le_iff.mp le
  exact ⟨t', place, before⟩

/-- A ledger whose keys are apart, and whose recovery keys are of recoveries. -/
structure Keyed (entries : List AlertEntry) : Prop where
  nodup : (keysOf entries).Nodup
  recoveries : ∀ e ∈ entries, ∀ restoreUid, e.key = recoveryCompletedKey restoreUid →
    isRecovery e = true

section
variable {existing : List AlertEntry} {completions : List RecoveryCompletion} {now : Time}

theorem Keyed.pushed (keyed : Keyed existing) : Keyed (pushRecoveries now existing completions) where
  nodup := nodup_pushRecoveries keyed.nodup
  recoveries := by
    intro e mem restoreUid key
    rcases mem_pushRecoveries.mp mem with recorded | fresh
    · exact keyed.recoveries e recorded restoreUid key
    · exact isRecovery_added fresh

theorem sublist_prune {entries : List AlertEntry} (nodup : (keysOf entries).Nodup) :
    (pruneRecoveries entries).Sublist entries := by
  rw [pruneRecoveries_eq nodup]
  exact List.filter_sublist

theorem Keyed.pruned {entries : List AlertEntry} (keyed : Keyed entries) :
    Keyed (pruneRecoveries entries) where
  nodup := keyed.nodup.sublist ((sublist_prune keyed.nodup).map _)
  recoveries := fun e mem => keyed.recoveries e ((sublist_prune keyed.nodup).subset mem)

theorem Keyed.folded (keyed : Keyed existing) : Keyed (foldRecoveries existing completions now) :=
  keyed.pushed.pruned

theorem Keyed.back (keyed : Keyed existing) {c : RecoveryCompletion} (later : Time)
    (first : completions.find? (fun d => d.key == c.key) = some c) {e : AlertEntry}
    (mem : e ∈ pushRecoveries now existing completions) (key : e.key = c.key)
    (recovery : isRecovery e = true)
    (outranked : Outranked (pushRecoveries now existing completions) e.standing) :
    c.entry later ∈ added later (keysOf (foldRecoveries existing completions now)) completions := by
  have nodup : (keysOf (pushRecoveries now existing completions)).Nodup := keyed.pushed.nodup
  refine (mem_added completions _).mpr ⟨fun kept => ?_, c, first, rfl⟩
  obtain ⟨e', mem', key'⟩ := List.mem_map.mp kept
  have here := (sublist_prune nodup).subset mem'
  have same := List.inj_on_of_nodup_map nodup here mem (key'.trans key.symm)
  have few := ((mem_pruneRecoveries nodup).mp mem').2 (same ▸ recovery)
  rw [same] at few
  exact absurd outranked (Nat.not_le.mpr few)

theorem refold_iff (keyed : Keyed existing) :
    (∀ later, now ≤ later → foldRecoveries (foldRecoveries existing completions now) completions
        later = foldRecoveries existing completions now) ↔
      Relisted existing completions now := by
  have pushed : Keyed (pushRecoveries now existing completions) := keyed.pushed
  have folded : Keyed (foldRecoveries existing completions now) := keyed.folded
  have apart : ∀ later, (keysOf (foldRecoveries existing completions now ++
      added later (keysOf (foldRecoveries existing completions now)) completions)).Nodup := by
    intro later
    rw [keysOf, List.map_append]
    exact keys_added completions _ folded.nodup
  have again : ∀ later, foldRecoveries (foldRecoveries existing completions now) completions later =
      pruneRecoveries (foldRecoveries existing completions now ++
        added later (keysOf (foldRecoveries existing completions now)) completions) := by
    intro later
    rw [foldRecoveries, pushRecoveries_eq]
  have placed := standings_pruneRecoveries pushed.nodup
  have count := length_standings_prune pushed.nodup
  constructor
  · intro same c first e mem key recovery outranked
    have below : ∀ later, now ≤ later → ∀ s ∈ standings (foldRecoveries existing completions now),
        (c.entry later).standing < s := fun later le =>
      below_of_prune_append (apart later) ((again later).symm.trans (same later le)) _
        (keyed.back later first mem key recovery outranked)
    have enough : MAX_RECOVERY_ALERTS ≤
        (standings (pushRecoveries now existing completions)).length :=
      Nat.le_trans outranked List.countP_le_length
    have full : (standings (foldRecoveries existing completions now)).length =
        MAX_RECOVERY_ALERTS := count.trans (Nat.min_eq_left enough)
    cases ended : c.at_ with
    | none =>
        -- Listed again late enough, it is newer than an entry that is kept.
        obtain ⟨s, place⟩ := List.exists_mem_of_length_pos
          (show 0 < (standings (foldRecoveries existing completions now)).length by
            rw [full]; decide)
        obtain ⟨r, _, rfl⟩ := List.mem_map.mp place
        have opened : ∀ later, (c.entry later).openedAt = some later := fun later => by
          rw [RecoveryCompletion.entry, ended, Option.none_or]
        obtain ⟨t, time, _⟩ := opened_le (below now (Int.le_refl now) _ place) (opened now)
        obtain ⟨t', time', le⟩ := opened_le
          (below (max now (t + 1)) (Int.le_max_left _ _) _ place) (opened _)
        obtain rfl := Option.some.inj (time.symm.trans time')
        exact absurd (Int.lt_succ t)
          (Int.not_lt.mpr (Int.le_trans (Int.le_max_right now (t + 1)) le))
    | some ended_ =>
        refine ⟨ended_, rfl, ?_⟩
        rw [← endedAt_eq ended now, Outranked, ← full]
        refine length_le_aboveOf (nodup_standings folded.nodup) (fun s mem' => ?_)
          (below now (Int.le_refl now))
        exact ((mem_leaders (nodup_standings pushed.nodup) _ s).mp (placed.mem_iff.mp mem')).1
  · intro relisted later _
    rw [again later]
    -- Whatever comes back was left out, and has the time it was left out with.
    have left : ∀ n ∈ added later (keysOf (foldRecoveries existing completions now)) completions,
        Outranked (pushRecoveries now existing completions) n.standing := by
      intro n mem
      obtain ⟨gone, c, first, rfl⟩ := (mem_added completions _).mp mem
      have listed : c ∈ completions := List.mem_of_find?_eq_some first
      have pushed_key : c.key ∈ keysOf (pushRecoveries now existing completions) :=
        listed_pushRecoveries listed
      obtain ⟨e, here, key⟩ := List.mem_map.mp pushed_key
      have recovery := pushed.recoveries e here c.restoreUid key
      have outranked : Outranked (pushRecoveries now existing completions) e.standing := by
        by_contra few
        refine gone (List.mem_map.mpr ⟨e, ?_, key⟩)
        exact (mem_pruneRecoveries pushed.nodup).mpr ⟨here, fun _ => Nat.not_le.mp few⟩
      obtain ⟨ended, at_, back⟩ := relisted c first e here key recovery outranked
      rw [endedAt_eq at_]
      exact back
    by_cases none_ : added later (keysOf (foldRecoveries existing completions now)) completions = []
    · rw [none_, List.append_nil, pruneRecoveries, if_pos]
      exact Nat.le_trans (Nat.le_of_eq count) (Nat.min_le_left _ _)
    · obtain ⟨n, mem⟩ := List.exists_mem_of_ne_nil _ none_
      refine prune_append_of_below pushed.nodup (apart later) (fun _ => isRecovery_added)
        (Nat.le_trans (left n mem) List.countP_le_length) fun n mem s place => ?_
      obtain ⟨_, few⟩ := (mem_leaders (nodup_standings pushed.nodup) _ s).mp
        (placed.mem_iff.mp place)
      by_contra not_below
      have more := left n mem
      have fewer := aboveOf_anti (standings (pushRecoveries now existing completions))
        (not_lt.mp not_below)
      rw [Outranked] at more
      omega

end

end Logweir.Protection
