import Logweir.Library.KeyRange
import Logweir.CatalogSync.Account

/-!
# What an `Index` walk covers

The walk lists the days from today back to the least day that the first keys of the log
name.  A walk that says it is complete has examined exactly the points named on those
days, so it saw the whole archive when every point it should count is named on one.
-/

set_option autoImplicit false

namespace Logweir.CatalogSync

open Logweir.Catalog Logweir.Calendar Logweir.Loops Logweir.KeyRange

structure Archive where
  keys : List String
  ascending : keys.Pairwise (· < ·)

/-- A listing that answers, answers with at most `max` of the keys under the prefix, in
ascending order and strictly after the cursor, and with fewer only at the end. -/
def Lists (access : ObjectAccess) (archive : Archive) : Prop :=
  ∀ start after max keys, access.listPage start after max = .ok keys →
    keys = (under archive.keys start after).take max

theorem page_short {access : ObjectAccess} {archive : Archive} (law : Lists access archive)
    {start : String} {after : Option String} {max : Nat} {page : List String}
    (listed : access.listPage start after max = .ok page) (short : page.length < max) :
    page = under archive.keys start after := by
  have cut := law start after max page listed
  rw [cut, List.length_take] at short
  rw [cut, List.take_of_length_le (by omega)]

theorem page_full {access : ObjectAccess} {archive : Archive} (law : Lists access archive)
    {start : String} {after : Option String} {max : Nat} {page : List String}
    (listed : access.listPage start after max = .ok page) (full : ¬ page.length < max)
    (some_ : 0 < max) :
    under archive.keys start after = page ++ under archive.keys start page.getLast? := by
  have cut := law start after max page listed
  cases ends : page.getLast? with
  | none =>
      rw [List.getLast?_eq_none_iff.mp ends, List.length_nil] at full
      exact absurd some_ full
  | some last =>
      rw [cut] at ends
      rw [under_after_page archive.ascending ends, cut, List.take_append_drop]

variable {env : Env} {archive : Archive}

theorem shardPages_keys (law : Lists env.access archive) (day : Date) :
    ∀ (n : Nat) (after : Option String) (keys : List String) {w w' : Walk} {all : List String},
      shardPages env day n after keys w = .ok (w', all) →
        all = keys ++ under archive.keys (shardOf day) after := by
  intro n
  induction n with
  | zero =>
      intro after keys w w' all ran
      cases ran
  | succ n ih =>
      intro after keys w w' all ran
      have step := shardPages_step env day n after keys w
      rw [ran] at step
      generalize answer : (Except.ok (w', all) : Except Walk (Walk × List String)) = r at step
      cases step with
      | unreadable e listed => cases answer
      | last page listed short =>
          cases answer
          rw [page_short law listed short]
      | budget page listed full room => cases answer
      | next page listed full room =>
          rw [ih page.getLast? (keys ++ page) answer.symm, List.append_assoc,
            ← page_full law listed full (by decide)]

theorem indexKey_ok {day : Date} {key : String} {w w' : Walk}
    (stepped : indexKey env day w key = .ok w') :
    w'.stop = w.stop ∧ ∀ id, id ∈ w'.seen ↔ id ∈ w.seen ∨ pointIdOfLogKey key = some id := by
  unfold indexKey at stepped
  cases named : pointIdOfLogKey key with
  | none =>
      simp only [named] at stepped
      cases stepped
      simp
  | some pointId =>
      simp only [named] at stepped
      split at stepped
      · rename_i known
        cases stepped
        rw [List.contains_iff_mem] at known
        refine ⟨rfl, fun id => ⟨.inl, fun either => either.elim (fun h => h) fun same => ?_⟩⟩
        exact Option.some.inj same ▸ known
      · split at stepped
        · cases stepped
        · cases stepped
          have taken := take_taken env ofPointId w pointId (some (dayName day))
          refine ⟨taken.stop, fun id => ?_⟩
          have seen := taken.seen
          simp only [ofPointId] at seen
          rw [seen, List.mem_cons, Option.some.injEq]
          exact ⟨fun either => either.elim (fun e => .inr e.symm) .inl,
            fun either => either.elim .inr fun e => .inl e.symm⟩

theorem indexKey_error {day : Date} {key : String} {w w' : Walk}
    (stepped : indexKey env day w key = .error w') : w'.stop ≠ .range := by
  unfold indexKey at stepped
  split at stepped
  · cases stepped
  · split at stepped
    · cases stepped
    · split at stepped
      · cases stepped
        exact WalkStop.noConfusion
      · cases stepped

/-- The points that some key of a day's shard names. -/
def NamedOn (archive : Archive) (day : Date) (id : String) : Prop :=
  ∃ key ∈ archive.keys, Text.startsWith key (shardOf day) = true ∧ pointIdOfLogKey key = some id

theorem indexDay_ok (law : Lists env.access archive) {day : Date} {w w' : Walk}
    (holds : Accounted env ofPointId w) (room : w.affordable env = true)
    (walked : indexDay env day w = .ok w') :
    w'.stop = w.stop ∧ ∀ id, id ∈ w'.seen ↔ id ∈ w.seen ∨ NamedOn archive day id := by
  unfold indexDay at walked
  have kept := shardPages_accounted day env.req.maxObjectsPerRun.toNat none [] holds room
  cases pages : shardPages env day env.req.maxObjectsPerRun.toNat none [] w with
  | error w₁ =>
      rw [pages] at walked
      cases walked
  | ok r =>
      obtain ⟨w₁, keys⟩ := r
      rw [pages] at walked kept
      obtain ⟨_, objects, rfl⟩ := kept
      have all := shardPages_keys law day _ none [] pages
      rw [List.nil_append] at all
      have done := ok_foldlM
        (Q := fun front (s : Walk) => s.stop = w.stop ∧
          ∀ id, id ∈ s.seen ↔ id ∈ w.seen ∨ ∃ key ∈ front, pointIdOfLogKey key = some id)
        (fun front key back s s' (_ : front ++ key :: back = keys.reverse) before stepped => by
          have one : indexKey env day s key = .ok s' := stepped
          obtain ⟨stop, seen⟩ := indexKey_ok one
          refine ⟨stop.trans before.1, fun id => ?_⟩
          rw [seen, before.2]
          simp [or_assoc])
        (List.nil_append _) (by simp) walked
      refine ⟨done.1, fun id => ?_⟩
      rw [done.2 id]
      unfold NamedOn
      simp only [List.mem_reverse, all, mem_under]
      constructor
      · rintro (old | ⟨key, ⟨mem, starts, _⟩, named⟩)
        · exact .inl old
        · exact .inr ⟨key, mem, starts, named⟩
      · rintro (old | ⟨key, mem, starts, named⟩)
        · exact .inl old
        · exact .inr ⟨key, ⟨mem, starts, fun a none_ => by cases none_⟩, named⟩

theorem indexDay_error {day : Date} {w w' : Walk} (holds : Accounted env ofPointId w)
    (room : w.affordable env = true) (walked : indexDay env day w = .error w') :
    w'.stop ≠ .range := by
  unfold indexDay at walked
  have kept := shardPages_accounted day env.req.maxObjectsPerRun.toNat none [] holds room
  cases pages : shardPages env day env.req.maxObjectsPerRun.toNat none [] w with
  | error w₁ =>
      rw [pages] at walked kept
      cases walked
      exact kept.2
  | ok r =>
      obtain ⟨w₁, keys⟩ := r
      rw [pages] at walked
      obtain ⟨_, _, _, _, _, _, stopped⟩ := error_foldlM (Q := fun _ _ => True)
        (fun _ _ _ _ _ _ _ _ => trivial) (List.nil_append _) trivial walked
      exact indexKey_error stopped

/-- The points named on a day between two days. -/
def NamedBetween (archive : Archive) (low high : Date) (id : String) : Prop :=
  ∃ day, low ≤ day ∧ day ≤ high ∧ NamedOn archive day id

theorem date_le_antisymm {a b : Date} (ab : a ≤ b) (ba : b ≤ a) : a = b :=
  Date.rank_inj (Int.le_antisymm ab ba)

theorem date_not_lt {a b : Date} : ¬ a < b ↔ b ≤ a := Int.not_lt

theorem indexDays_range (law : Lists env.access archive) (floor : Date) :
    ∀ (shards : Nat) (day : Date) {w : Walk}, Accounted env ofPointId w →
      (indexDays env floor shards day w).stop = .range →
      ∀ id, id ∈ (indexDays env floor shards day w).seen ↔
        id ∈ w.seen ∨ NamedBetween archive floor day id := by
  intro shards
  induction shards with
  | zero =>
      intro day w holds
      have step := indexDays_step env floor 0 day w
      generalize indexDays env floor 0 day w = w' at step ⊢
      intro range id
      cases step with
      | below _ _ _ past =>
          refine ⟨.inl, fun either => either.elim (fun h => h) fun named => ?_⟩
          obtain ⟨on, low, high, _⟩ := named
          exact absurd (Int.le_trans low high) (Int.not_le.mpr past)
      | shards _ _ reached => cases range
  | succ shards ih =>
      intro day w holds
      have account := indexDay_accounted day holds
      have step := indexDays_step env floor (shards + 1) day w
      generalize indexDays env floor (shards + 1) day w = w' at step ⊢
      intro range id
      cases step with
      | below _ _ _ past =>
          refine ⟨.inl, fun either => either.elim (fun h => h) fun named => ?_⟩
          obtain ⟨on, low, high, _⟩ := named
          exact absurd (Int.le_trans low high) (Int.not_le.mpr past)
      | budget _ _ _ reached room => cases range
      | stopped _ _ _ _ reached room walked =>
          exact absurd range (indexDay_error holds room walked)
      | first _ _ _ _ reached room walked none_ =>
          rw [(indexDay_ok law holds room walked).2 id]
          refine or_congr Iff.rfl ⟨fun named => ⟨day, date_not_lt.mp reached, Int.le_refl _, named⟩,
            fun named => ?_⟩
          obtain ⟨on, _, high, named⟩ := named
          rwa [date_le_antisymm high (Date.le_of_pred?_none none_)] at named
      | next _ _ before _ w₁ reached room walked some_ =>
          rw [walked] at account
          have kept : Accounted env ofPointId w₁ := account room
          rw [ih before kept range id, (indexDay_ok law holds room walked).2 id, or_assoc]
          refine or_congr Iff.rfl ⟨fun either => ?_, fun named => ?_⟩
          · rcases either with named | ⟨on, low, high, named⟩
            · exact ⟨day, date_not_lt.mp reached, Int.le_refl _, named⟩
            · exact ⟨on, low, Int.le_of_lt (Int.lt_of_le_of_lt high (Date.pred?_lt some_)), named⟩
          · obtain ⟨on, low, high, named⟩ := named
            by_cases same : on = day
            · exact .inl (same ▸ named)
            · have below : on < day :=
                Int.lt_iff_le_and_ne.mpr ⟨high, fun e => same (Date.rank_inj e)⟩
              exact .inr ⟨on, low, Date.le_of_lt_of_pred? some_ below, named⟩

def firstDay (archive : Archive) : Option Date :=
  Date.earliest (((under archive.keys logPrefix none).take archiveFloorPageKeys).filterMap
    dayOfLogKey)

/-- A point that some log key between the walk's first and last day names. -/
def InReach (env : Env) (archive : Archive) (id : String) : Prop :=
  ∃ low, firstDay archive = some low ∧
    NamedBetween archive (Date.earlier low env.today) env.today id

theorem walkIndex_seen (law : Lists env.access archive) {w : Walk}
    (walked : walkIndex env = .ok w) (range : w.stop = .range) (id : String) :
    id ∈ w.seen ↔ InReach env archive id := by
  have first : Accounted env ofPointId Walk.new.spend :=
    accounted_new.congr rfl rfl rfl (by
      show (1 : Int) ≤ max env.req.maxObjectsPerRun 1
      omega)
  unfold walkIndex archiveFloor at walked
  unfold InReach
  cases listed : env.access.listPage logPrefix none archiveFloorPageKeys with
  | error e =>
      rw [listed] at walked
      cases walked
  | ok keys =>
      have low : Date.earliest (keys.filterMap dayOfLogKey) = firstDay archive := by
        rw [law _ _ _ _ listed]
        rfl
      simp only [listed, Except.map, low] at walked
      cases floor : firstDay archive with
      | none =>
          rw [floor] at walked
          cases walked
          simp [Walk.spend, Walk.new]
      | some day =>
          rw [floor] at walked
          cases walked
          rw [indexDays_range law _ _ _ first range id]
          simp [Walk.spend, Walk.new]

/-- Every point that a log key names and the destination serves was counted, and its record
read answered. -/
def IndexWhole (env : Env) (archive : Archive) (w : Walk) : Prop :=
  ∀ key ∈ archive.keys, ∀ day id, Text.startsWith key (shardOf day) = true →
    pointIdOfLogKey key = some id → countsHere env ofPointId id = true →
    id ∈ w.seen ∧ recordUnread (observed env ofPointId id) = false

/-- Every such point is named on a day from the floor to today. -/
def FloorReaches (env : Env) (archive : Archive) : Prop :=
  ∀ key ∈ archive.keys, ∀ day id, Text.startsWith key (shardOf day) = true →
    pointIdOfLogKey key = some id → countsHere env ofPointId id = true → InReach env archive id

theorem complete_range {w : Walk} (complete : w.complete = true) :
    w.stop = .range ∧ w.recordsUnread = 0 := by
  unfold Walk.complete WalkStop.complete at complete
  rw [Bool.and_eq_true, decide_eq_true_eq, beq_iff_eq] at complete
  exact complete

theorem index_whole_iff (law : Lists env.access archive) {w : Walk}
    (walked : walkIndex env = .ok w) (complete : w.complete = true) :
    IndexWhole env archive w ↔ FloorReaches env archive := by
  obtain ⟨range, none_⟩ := complete_range complete
  have account := walkIndex_accounted walked
  constructor
  · intro whole key mem day id starts named here
    exact (walkIndex_seen law walked range id).mp (whole key mem day id starts named here).1
  · intro reaches key mem day id starts named here
    have seen := (walkIndex_seen law walked range id).mpr
      (reaches key mem day id starts named here)
    exact ⟨seen, account.answered none_ seen here⟩

end Logweir.CatalogSync
