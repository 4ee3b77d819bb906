import Mathlib.Data.Finset.Card
import Mathlib.Data.List.Dedup
import Mathlib.Data.List.TakeDrop

/-!
# The teardown record of a clone

`weirkeeper::controllers::restore_clone`.  After each cleanup attempt whose report says something,
`status.teardown` is replaced: what earlier attempts deleted is read from it, with the count, and what
this one deleted is added.  The list is cut at 256 names; the count is then no longer the list's.
-/

set_option autoImplicit false

namespace Logweir.Teardown

structure CloneCleanupLeft where
  topic : String
  reason : String
deriving DecidableEq, Repr

structure CloneCleanupReport where
  deleted : List String
  alreadyAbsent : List String
  left : List CloneCleanupLeft
  attestationKey : Option String
  refused : Option String
  error : Option String
deriving DecidableEq, Repr

inductive Ended where
  | removed (report : CloneCleanupReport)
  | refused (why : String)
  | failed (why : String) (report : Option CloneCleanupReport)
deriving DecidableEq, Repr

structure Teardown where
  attestationKey : Option String
  deleted : Option (List String)
  failed : Option (List CloneCleanupLeft)
  deletedCount : Option Int
  failedCount : Option Int
deriving DecidableEq, Repr

def CloneCleanupReport.acted (r : CloneCleanupReport) : Bool :=
  !r.deleted.isEmpty || !r.alreadyAbsent.isEmpty || !r.left.isEmpty || r.attestationKey.isSome

section

variable (cleanMessage : String → String)

def failedWith (how : String) (r : Option CloneCleanupReport) : Ended :=
  let why := match r.bind fun r => r.error with
    | some cause => how ++ ": " ++ cleanMessage cause
    | none => how
  .failed why (r.filter CloneCleanupReport.acted)

def ended (exitCode : Option Int) (report : Option CloneCleanupReport) : Ended :=
  match exitCode, report with
  | some 0, some r => .removed r
  | some 3, r => .refused ((r.bind fun r => r.refused).getD
      "the cleanup refused (exit 3) and printed no reason")
  | some code, r => failedWith cleanMessage ("the cleanup Job exited " ++ toString code) r
  | none, r => failedWith cleanMessage
      "the cleanup Job ended with no exit code (deadline, eviction or a crash)" r

end

def LISTED : Nat := 256

def bounded (s : String) : String := String.ofList (s.toList.take 256)

def pushNew (names : List String) (name : String) : List String :=
  if name ∈ names then names else names ++ [name]

def teardownValue (report : CloneCleanupReport) (earlier : List String) (earlierCount : Option Int) :
    Teardown :=
  let deleted := report.deleted.foldl pushNew earlier
  { attestationKey := report.attestationKey
    deletedCount := some (max (deleted.length : Int) (earlierCount.getD 0))
    deleted := some (deleted.take LISTED)
    failedCount := some report.left.length
    failed := some ((report.left.take LISTED).map fun l => { l with reason := bounded l.reason }) }

def Ended.report : Ended → Option CloneCleanupReport
  | .removed r => some r
  | .refused _ => none
  | .failed _ r => r

def earlier (stored : Option Teardown) : List String := (stored.bind fun t => t.deleted).getD []

def earlierCount (stored : Option Teardown) : Option Int := stored.bind fun t => t.deletedCount

def afterAttempt (stored : Option Teardown) (e : Ended) : Option Teardown :=
  match e.report with
  | some r => some (teardownValue r (earlier stored) (earlierCount stored))
  | none => stored

def afterAttempts (stored : Option Teardown) (attempts : List Ended) : Option Teardown :=
  attempts.foldl afterAttempt stored

def distinct (names : List String) : List String := names.foldl pushNew []

section Names

variable {x : String} {kept names : List String}

theorem mem_foldl_pushNew : x ∈ names.foldl pushNew kept ↔ x ∈ kept ∨ x ∈ names := by
  induction names generalizing kept with
  | nil => exact (or_iff_left List.not_mem_nil).symm
  | cons name names ih =>
      rw [List.foldl_cons, ih, pushNew, List.mem_cons]
      split
      · rename_i here
        constructor
        · exact Or.imp_right .inr
        · rintro (old | rfl | later)
          · exact .inl old
          · exact .inl here
          · exact .inr later
      · rw [List.mem_append, List.mem_singleton, or_assoc]

theorem nodup_foldl_pushNew (once : kept.Nodup) : (names.foldl pushNew kept).Nodup := by
  induction names generalizing kept with
  | nil => exact once
  | cons name names ih =>
      refine ih ?_
      unfold pushNew
      split
      · exact once
      · rename_i new
        exact List.nodup_append'.mpr ⟨once, List.nodup_singleton name,
          List.disjoint_singleton.mpr new⟩

theorem toFinset_foldl_pushNew :
    (names.foldl pushNew kept).toFinset = kept.toFinset ∪ names.toFinset := by
  ext x
  rw [Finset.mem_union, List.mem_toFinset, List.mem_toFinset, List.mem_toFinset, mem_foldl_pushNew]

theorem length_foldl_pushNew (once : kept.Nodup) :
    (names.foldl pushNew kept).length = (kept.toFinset ∪ names.toFinset).card := by
  rw [← toFinset_foldl_pushNew, List.toFinset_card_of_nodup (nodup_foldl_pushNew once)]

theorem length_distinct : (distinct names).length = names.toFinset.card := by
  rw [distinct, length_foldl_pushNew List.nodup_nil, List.toFinset_nil, Finset.empty_union]

theorem length_foldl_pushNew_of_disjoint (once : kept.Nodup) (apart : List.Disjoint kept names) :
    (names.foldl pushNew kept).length = kept.length + names.toFinset.card := by
  have apart' : Disjoint kept.toFinset names.toFinset := by
    rw [Finset.disjoint_left]
    intro x here there
    exact apart (List.mem_toFinset.mp here) (List.mem_toFinset.mp there)
  rw [length_foldl_pushNew once, Finset.card_union_of_disjoint apart',
    List.toFinset_card_of_nodup once]

theorem distinct_append : distinct (names ++ kept) = kept.foldl pushNew (distinct names) :=
  List.foldl_append

end Names

def Ended.deletions (e : Ended) : List String := (e.report.map fun r => r.deleted).getD []

def deletions (attempts : List Ended) : List String := attempts.flatMap Ended.deletions

def Untouched (stored : Option Teardown) : Prop :=
  earlier stored = [] ∧ (earlierCount stored).getD 0 = 0

/-- The record adds up over the attempts: the topics they deleted are counted, the first of them
listed, the count is no smaller than before, and what was left is the last report's. -/
structure AddsUp (stored : Option Teardown) (attempts : List Ended) : Prop where
  count : (earlierCount (afterAttempts stored attempts)).getD 0 = (deletions attempts).toFinset.card
  listed : earlier (afterAttempts stored attempts) = (distinct (deletions attempts)).take LISTED
  grows : ∀ before e, attempts = before ++ [e] →
    (earlierCount (afterAttempts stored before)).getD 0 ≤
      (earlierCount (afterAttempts stored attempts)).getD 0
  left : ∀ r, (attempts.filterMap Ended.report).getLast? = some r →
    ∃ t, afterAttempts stored attempts = some t ∧ t.failedCount = some r.left.length ∧
      t.failed = some ((r.left.take LISTED).map fun l => { l with reason := bounded l.reason })

section Runs

variable {stored : Option Teardown} {attempts before : List Ended} {e : Ended}

theorem deletions_concat : deletions (attempts ++ [e]) = deletions attempts ++ e.deletions := by
  simp [deletions]

theorem afterAttempts_concat :
    afterAttempts stored (attempts ++ [e]) = afterAttempt (afterAttempts stored attempts) e :=
  List.foldl_append

theorem afterAttempt_spec (t : Option Teardown) (e : Ended) :
    (e.report = none ∧ afterAttempt t e = t) ∨
      (∃ r, e.report = some r ∧ e.deletions = r.deleted ∧
        afterAttempt t e = some (teardownValue r (earlier t) (earlierCount t))) := by
  unfold afterAttempt Ended.deletions
  cases e.report with
  | none => exact .inl ⟨rfl, rfl⟩
  | some r => exact .inr ⟨r, rfl, rfl, rfl⟩

theorem earlierCount_afterAttempt_le (t : Option Teardown) (e : Ended) :
    (earlierCount t).getD 0 ≤ (earlierCount (afterAttempt t e)).getD 0 := by
  rcases afterAttempt_spec t e with ⟨_, same⟩ | ⟨r, _, _, same⟩
  · rw [same]
  · rw [same]
    exact Int.le_max_right _ _

theorem left_afterAttempts : ∀ {attempts : List Ended} {r : CloneCleanupReport},
    (attempts.filterMap Ended.report).getLast? = some r →
      ∃ t, afterAttempts stored attempts = some t ∧ t.failedCount = some (r.left.length : Int) ∧
        t.failed = some ((r.left.take LISTED).map fun l => { l with reason := bounded l.reason }) := by
  intro attempts
  induction attempts using List.reverseRecOn with
  | nil => exact fun last => by cases last
  | append_singleton attempts e ih =>
      intro r last
      rw [List.filterMap_append] at last
      rw [afterAttempts_concat]
      rcases afterAttempt_spec (afterAttempts stored attempts) e with ⟨none_, same⟩ | ⟨r', own, _, same⟩
      · rw [List.filterMap_cons_none none_, List.filterMap_nil, List.append_nil] at last
        rw [same]
        exact ih last
      · rw [List.filterMap_cons_some own, List.filterMap_nil, List.getLast?_concat] at last
        cases last
        exact ⟨_, same, rfl, rfl⟩

theorem AddsUp.concat (addsUp : AddsUp stored attempts)
    (whole : e.deletions ≠ [] → (deletions attempts).toFinset.card ≤ LISTED) :
    AddsUp stored (attempts ++ [e]) := by
  have count := addsUp.count
  have listed := addsUp.listed
  have grows : ∀ before e', attempts ++ [e] = before ++ [e'] →
      (earlierCount (afterAttempts stored before)).getD 0 ≤
        (earlierCount (afterAttempts stored (attempts ++ [e]))).getD 0 := by
    intro before e' same
    obtain ⟨rfl, _⟩ := List.append_inj' same rfl
    rw [afterAttempts_concat]
    exact earlierCount_afterAttempt_le _ e
  rcases afterAttempt_spec (afterAttempts stored attempts) e with ⟨none_, same⟩ | ⟨r, own, del, same⟩
  · have nothing : e.deletions = [] := by rw [Ended.deletions, none_]; rfl
    refine ⟨?_, ?_, grows, fun _ => left_afterAttempts⟩
    · rw [afterAttempts_concat, same, deletions_concat, nothing, List.append_nil]
      exact count
    · rw [afterAttempts_concat, same, deletions_concat, nothing, List.append_nil]
      exact listed
  · have size : (distinct (deletions attempts)).length = (deletions attempts).toFinset.card :=
      length_distinct
    have list : r.deleted.foldl pushNew (earlier (afterAttempts stored attempts)) =
        if e.deletions = [] then (distinct (deletions attempts)).take LISTED
        else distinct (deletions (attempts ++ [e])) := by
      rw [listed]
      split
      · rename_i nothing
        rw [← del, nothing]
        rfl
      · rename_i some_
        rw [List.take_of_length_le (size.trans_le (whole some_)), deletions_concat, distinct_append, del]
    refine ⟨?_, ?_, grows, fun _ => left_afterAttempts⟩
    · rw [afterAttempts_concat, same]
      change max (((r.deleted.foldl pushNew (earlier (afterAttempts stored attempts))).length : Nat) :
        Int) ((earlierCount (afterAttempts stored attempts)).getD 0) = _
      rw [list, count]
      split
      · rename_i nothing
        rw [deletions_concat, nothing, List.append_nil, List.length_take, size]
        omega
      · rw [length_distinct, deletions_concat, List.toFinset_append]
        have more : (deletions attempts).toFinset.card ≤
            ((deletions attempts).toFinset ∪ e.deletions.toFinset).card :=
          Finset.card_le_card Finset.subset_union_left
        omega
    · rw [afterAttempts_concat, same]
      change (r.deleted.foldl pushNew (earlier (afterAttempts stored attempts))).take LISTED = _
      rw [list]
      split
      · rename_i nothing
        rw [deletions_concat, nothing, List.append_nil, List.take_take, Nat.min_self]
      · rfl

theorem AddsUp.not_concat (addsUp : AddsUp stored attempts) (some_ : e.deletions ≠ [])
    (apart : List.Disjoint (deletions attempts) e.deletions)
    (cut : LISTED < (deletions attempts).toFinset.card) : ¬ AddsUp stored (attempts ++ [e]) := by
  intro next
  have count := next.count
  rcases afterAttempt_spec (afterAttempts stored attempts) e with ⟨none_, _⟩ | ⟨r, own, del, same⟩
  · exact some_ (by rw [Ended.deletions, none_]; rfl)
  · rw [afterAttempts_concat, same] at count
    change max (((r.deleted.foldl pushNew (earlier (afterAttempts stored attempts))).length : Nat) :
        Int) ((earlierCount (afterAttempts stored attempts)).getD 0) = _ at count
    have once : ((distinct (deletions attempts)).take LISTED).Nodup :=
      (nodup_foldl_pushNew List.nodup_nil).sublist (List.take_sublist _ _)
    have apart' : List.Disjoint ((distinct (deletions attempts)).take LISTED) r.deleted := by
      intro x here there
      have old := (mem_foldl_pushNew.mp (List.mem_of_mem_take here)).resolve_left List.not_mem_nil
      exact apart old (del ▸ there)
    have positive : 0 < e.deletions.toFinset.card := by
      obtain ⟨x, here⟩ := List.exists_mem_of_ne_nil _ some_
      exact Finset.card_pos.mpr ⟨x, List.mem_toFinset.mpr here⟩
    have union : (deletions (attempts ++ [e])).toFinset.card =
        (deletions attempts).toFinset.card + e.deletions.toFinset.card := by
      rw [deletions_concat, List.toFinset_append]
      refine Finset.card_union_of_disjoint (Finset.disjoint_left.mpr fun x here there => ?_)
      exact apart (List.mem_toFinset.mp here) (List.mem_toFinset.mp there)
    rw [addsUp.listed, addsUp.count, length_foldl_pushNew_of_disjoint once apart', List.length_take,
      length_distinct, union, ← del] at count
    omega

end Runs

/-- The record adds up after every attempt exactly when no attempt deletes a topic after more than
256 have been deleted. -/
theorem addsUp_iff (stored : Option Teardown) (attempts : List Ended) (untouched : Untouched stored)
    (apart : attempts.Pairwise fun e e' => List.Disjoint e.deletions e'.deletions) :
    (∀ before after, attempts = before ++ after → AddsUp stored before) ↔
      ∀ before e after, attempts = before ++ e :: after → e.deletions ≠ [] →
        (deletions before).toFinset.card ≤ LISTED := by
  constructor
  · intro all_ before e after parts some_
    by_contra cut
    have here := all_ before (e :: after) parts
    have next := all_ (before ++ [e]) after (by rw [parts, List.append_assoc]; rfl)
    refine here.not_concat some_ ?_ (Nat.lt_of_not_le cut) next
    intro x old new
    obtain ⟨e', there, own⟩ := List.mem_flatMap.mp old
    rw [parts, List.pairwise_append] at apart
    exact apart.2.2 e' there e List.mem_cons_self own new
  · intro whole before
    induction before using List.reverseRecOn with
    | nil =>
        intro after _
        refine ⟨untouched.2, untouched.1, fun before e same => ?_, fun r last => by cases last⟩
        exact absurd same (by simp)
    | append_singleton before e ih =>
        intro after parts
        rw [List.append_assoc] at parts
        exact (ih _ parts).concat (whole before e after parts)

def deleting (names : List String) : CloneCleanupReport :=
  ⟨names, [], [], none, none, none⟩

theorem two_attempts_addUp :
    (∀ before after, [Ended.failed "the cleanup Job exited 4" (some (deleting ["c-a"])),
        .removed (deleting ["c-b", "c-c"])] = before ++ after → AddsUp none before) ↔
      ∀ before e after, [Ended.failed "the cleanup Job exited 4" (some (deleting ["c-a"])),
        .removed (deleting ["c-b", "c-c"])] = before ++ e :: after → e.deletions ≠ [] →
          (deletions before).toFinset.card ≤ LISTED :=
  addsUp_iff none _ ⟨rfl, rfl⟩ (by
    refine List.pairwise_pair.mpr fun x here there => ?_
    rw [List.mem_singleton.mp here] at there
    exact absurd there (by decide))

def manyTopics (n : Nat) : List String :=
  (List.range n).map fun i => String.ofList (List.replicate i 'a')

theorem card_manyTopics (n : Nat) : (manyTopics n).toFinset.card = n := by
  have once : (manyTopics n).Nodup := by
    refine (List.nodup_range).map fun i j same => ?_
    have chars := congrArg String.toList same
    simp only [String.toList_ofList] at chars
    simpa using congrArg List.length chars
  rw [List.toFinset_card_of_nodup once, manyTopics, List.length_map, List.length_range]

def crowded : List Ended :=
  [.failed "the cleanup Job exited 4" (some (deleting (manyTopics 257))), .removed (deleting ["b"])]

/-- The second attempt's topic is not counted. -/
theorem crowded_miscounted : ¬ ∀ (stored : Option Teardown) (attempts : List Ended), Untouched stored →
    attempts.Pairwise (fun e e' => List.Disjoint e.deletions e'.deletions) →
      ∀ before after, attempts = before ++ after → AddsUp stored before := by
  intro claim
  have apart : List.Disjoint (manyTopics 257) ["b"] := by
    intro x here there
    obtain ⟨i, _, rfl⟩ := List.mem_map.mp here
    have chars := congrArg String.toList (List.mem_singleton.mp there)
    rw [String.toList_ofList] at chars
    have only := List.eq_of_mem_replicate (chars.symm ▸ (by decide : 'b' ∈ "b".toList))
    exact absurd only (by decide)
  have holds := claim none crowded ⟨rfl, rfl⟩ (List.pairwise_pair.mpr apart)
  have first : deletions [Ended.failed "the cleanup Job exited 4" (some (deleting (manyTopics 257)))] =
      manyTopics 257 := List.append_nil _
  refine (holds [_] [_] rfl).not_concat (e := .removed (deleting ["b"])) (List.cons_ne_nil _ _) ?_ ?_
    (holds crowded [] rfl)
  · rw [first]
    exact apart
  · rw [first, card_manyTopics]
    decide

end Logweir.Teardown
