import Logweir.Library.FixedWindows
import Std.Data.HashMap.Lemmas

/-!
# The sign-in limiter

`logweir_api::auth::ratelimit`: a fixed-window counter for each client's bucket, in a table of
bounded size.  Instants are nanoseconds of the process's clock.
-/

set_option autoImplicit false

namespace Logweir.Api.RateLimit

open Std (HashMap)
open Logweir.FixedWindows

def IPV6_KEY_PREFIX : Nat := 64

def MAX_TRACKED_PEERS : Nat := 65536

def SWEEPS_PER_WINDOW : Nat := 16

def NAT64_WELL_KNOWN_PREFIX : BitVec 128 := 0x0064ff9b0000000000000000#128

inductive IpAddr where
  | v4 (bits : BitVec 32)
  | v6 (bits : BitVec 128)
  deriving DecidableEq, Hashable

def IpAddr.toCanonical : IpAddr → IpAddr
  | .v4 bits => .v4 bits
  | .v6 bits => if bits >>> 32 = 0xffff#128 then .v4 (bits.truncate 32) else .v6 bits

def bucketOf (address : IpAddr) : IpAddr :=
  match address.toCanonical with
  | .v6 bits =>
      if bits >>> 32 = NAT64_WELL_KNOWN_PREFIX then .v4 (bits.truncate 32)
      else .v6 (bits &&& (BitVec.allOnes 128 <<< (128 - IPV6_KEY_PREFIX)))
  | .v4 bits => .v4 bits

def retryAfter (w : Window) (now length : Nat) : Nat :=
  max ((length - (now - w.started)) / 1000000000) 1

structure Table where
  keys : HashMap IpAddr Window
  /-- No sweep before this. -/
  nextSweep : Option Nat
  /-- When the last untracked admission was announced. -/
  untrackedAnnounced : Option Nat

structure RateLimiter where
  window : Nat
  perWindow : Nat
  maxTracked : Nat
  lastInstant : Nat

inductive Decision where
  | allowed
  | allowedUntracked (announce : Bool)
  | limited (retryAfterSeconds : Nat)
  deriving DecidableEq

/-- `RateLimiter::new`. -/
def Table.new : Table where
  keys := ∅
  nextSweep := none
  untrackedAnnounced := none

namespace RateLimiter

variable (limiter : RateLimiter)

/-- `Instant + Duration`. -/
def addInstant (at_ length : Nat) : Option Nat :=
  if at_ + length ≤ limiter.lastInstant then some (at_ + length) else none

def expiry (oldest : Option Nat) (now : Nat) : Option Nat :=
  match oldest with
  | none => some now
  | some o => limiter.addInstant o limiter.window

def sweep (table : Table) (now : Nat) : Option Table := do
  let keys := table.keys.filter fun _ w => w.live now limiter.window
  let oldest := keys.toList.foldl (fun oldest entry =>
    some (match oldest with
      | none => entry.2.started
      | some o => min o entry.2.started)) none
  let interval := limiter.window / SWEEPS_PER_WINDOW
  let expiry ← limiter.expiry oldest now
  let later ← limiter.addInstant now interval
  return { table with keys, nextSweep := some (max expiry later) }

def count (table : Table) (bucket : IpAddr) (now : Nat) : Decision × Table :=
  let window := (table.keys[bucket]?).getD (Window.fresh now)
  let window := if !window.live now limiter.window then Window.fresh now else window
  (.allowed,
    { table with keys := table.keys.insert bucket { window with count := window.count + 1 } })

def due (table : Table) (now : Nat) : Bool := table.nextSweep.all fun at_ => decide (at_ ≤ now)

def sweepDue (table : Table) (now : Nat) : Option Table :=
  if due table now then limiter.sweep table now else some table

def checkAt (table : Table) (address : IpAddr) (now : Nat) : Option (Decision × Table) :=
  let bucket := bucketOf address
  let length := limiter.window
  match (table.keys[bucket]?).filter fun w =>
      w.live now length && decide (limiter.perWindow ≤ w.count) with
  | some window => some (.limited (retryAfter window now length), table)
  | none =>
      if !table.keys.contains bucket && decide (limiter.maxTracked ≤ table.keys.size) then do
        let table ← limiter.sweepDue table now
        if limiter.maxTracked ≤ table.keys.size then
          let announce := table.untrackedAnnounced.all fun at_ => decide (length ≤ now - at_)
          let table := if announce then { table with untrackedAnnounced := some now } else table
          return (.allowedUntracked announce, table)
        else return limiter.count table bucket now
      else some (limiter.count table bucket now)

def sweeps (table : Table) (address : IpAddr) (now : Nat) : Bool :=
  !table.keys.contains (bucketOf address) && decide (limiter.maxTracked ≤ table.keys.size) &&
    due table now

/-- What a call counts in: the table, swept where the call sweeps it. -/
def Counts (table : Table) (address : IpAddr) (now : Nat) (kept : Table) : Prop :=
  (limiter.sweeps table address now = false ∧ kept = table) ∨
    (limiter.sweeps table address now = true ∧ limiter.sweep table now = some kept)

theorem spent_iff {length budget now : Nat} (window : Option Window) :
    Spent length budget window now ↔
      ∃ w, window.filter (fun w => w.live now length) = some w ∧ budget ≤ w.count := by
  simp only [Spent, Option.filter_eq_some_iff]
  constructor
  · rintro ⟨w, found, live, spent⟩
    exact ⟨w, ⟨found, live⟩, spent⟩
  · rintro ⟨w, ⟨found, live⟩, spent⟩
    exact ⟨w, found, live, spent⟩

theorem count_eq (table : Table) (bucket : IpAddr) (now : Nat) :
    limiter.count table bucket now =
      (.allowed, { table with
        keys := table.keys.insert bucket (charge limiter.window (table.keys[bucket]?) now) }) := by
  unfold count
  cases found : table.keys[bucket]? with
  | none => simp [Window.fresh, charge]
  | some w =>
      cases live : w.live now limiter.window with
      | true => simp [live, charge_stays live]
      | false => simp [live, charge_over live, Window.fresh]

theorem checkAt_cases {table after : Table} {address : IpAddr} {now : Nat} {decision : Decision}
    (answered : limiter.checkAt table address now = some (decision, after)) :
    (Spent limiter.window limiter.perWindow (table.keys[bucketOf address]?) now ∧
      (∃ seconds, decision = .limited seconds) ∧ after = table ∧
      limiter.sweeps table address now = false) ∨
    (¬Spent limiter.window limiter.perWindow (table.keys[bucketOf address]?) now ∧
      ∃ kept, limiter.Counts table address now kept ∧
        ((∃ announce, decision = .allowedUntracked announce ∧ after.keys = kept.keys ∧
            after.nextSweep = kept.nextSweep) ∨
          ((bucketOf address ∈ kept.keys ∨ kept.keys.size < limiter.maxTracked) ∧
            (decision, after) = limiter.count kept (bucketOf address) now))) := by
  unfold checkAt at answered
  simp only at answered
  split at answered
  · rename_i window spent
    obtain ⟨found, spends⟩ := Option.filter_eq_some_iff.mp spent
    rw [Bool.and_eq_true, decide_eq_true_eq] at spends
    obtain ⟨rfl, rfl⟩ := Prod.mk.inj (Option.some.inj answered)
    have tracked : table.keys.contains (bucketOf address) = true := by
      rw [HashMap.contains_eq_isSome_getElem?, found]
      rfl
    exact .inl ⟨⟨window, found, spends.1, spends.2⟩, ⟨_, rfl⟩, rfl, by rw [sweeps, tracked]; rfl⟩
  · rename_i unspent
    refine .inr ⟨?_, ?_⟩
    · rintro ⟨w, found, live, spent⟩
      rw [found, Option.filter_some, live, decide_eq_true spent] at unspent
      cases unspent
    · split at answered
      · rename_i full
        have swept : limiter.sweeps table address now = due table now := by
          rw [sweeps, full, Bool.true_and]
        obtain ⟨kept, keeps, answered⟩ := Option.bind_eq_some_iff.mp answered
        have counts : limiter.Counts table address now kept := by
          unfold sweepDue at keeps
          split at keeps
          · rename_i isDue
            exact .inr ⟨swept.trans isDue, keeps⟩
          · rename_i notDue
            exact .inl ⟨swept.trans (eq_false_of_ne_true notDue), (Option.some.inj keeps).symm⟩
        refine ⟨kept, counts, ?_⟩
        split at answered
        · obtain ⟨rfl, rfl⟩ := Prod.mk.inj (Option.some.inj answered)
          refine .inl ⟨_, rfl, ?_, ?_⟩ <;> split <;> rfl
        · rename_i room
          exact .inr ⟨.inr (Nat.not_le.mp room), (Option.some.inj answered).symm⟩
      · rename_i roomy
        have roomy := eq_false_of_ne_true roomy
        refine ⟨table, .inl ⟨by rw [sweeps, roomy, Bool.false_and], rfl⟩, .inr ⟨?_, ?_⟩⟩
        · rw [Bool.and_eq_false_iff, Bool.not_eq_false', decide_eq_false_iff_not,
            Nat.not_le, HashMap.contains_iff_mem] at roomy
          exact roomy
        · exact (Option.some.inj answered).symm

theorem sweep_spec {table kept : Table} {now : Nat} (swept : limiter.sweep table now = some kept) :
    kept.keys = table.keys.filter (fun _ w => w.live now limiter.window) ∧
      ∃ at_, kept.nextSweep = some at_ ∧ now + limiter.window / SWEEPS_PER_WINDOW ≤ at_ := by
  unfold sweep at swept
  obtain ⟨expiry, _, swept⟩ := Option.bind_eq_some_iff.mp swept
  obtain ⟨later, added, swept⟩ := Option.bind_eq_some_iff.mp swept
  unfold addInstant at added
  split at added
  · obtain rfl := Option.some.inj added
    obtain rfl := Option.some.inj swept
    exact ⟨rfl, _, rfl, Nat.le_max_right _ _⟩
  · cases added

theorem Counts.size_le {limiter : RateLimiter} {table kept : Table} {address : IpAddr} {now : Nat}
    (counts : limiter.Counts table address now kept) : kept.keys.size ≤ table.keys.size := by
  rcases counts with ⟨_, rfl⟩ | ⟨_, swept⟩
  · exact Nat.le_refl _
  · rw [(limiter.sweep_spec swept).1]
    exact HashMap.size_filter_le_size

theorem Counts.live {limiter : RateLimiter} {table kept : Table} {address : IpAddr} {now : Nat}
    (counts : limiter.Counts table address now kept) (bucket : IpAddr) {later : Nat}
    (le : now ≤ later) :
    (kept.keys[bucket]?).filter (fun w => w.live later limiter.window) =
      (table.keys[bucket]?).filter fun w => w.live later limiter.window := by
  rcases counts with ⟨_, rfl⟩ | ⟨_, swept⟩
  · rfl
  · rw [(limiter.sweep_spec swept).1, HashMap.getElem?_filter', filter_live_of_le le]

theorem live_of_checkAt {table after : Table} {address : IpAddr} {now : Nat} {decision : Decision}
    (answered : limiter.checkAt table address now = some (decision, after)) {bucket : IpAddr}
    (other : bucketOf address ≠ bucket ∨ decision ≠ .allowed) {later : Nat} (le : now ≤ later) :
    (after.keys[bucket]?).filter (fun w => w.live later limiter.window) =
      (table.keys[bucket]?).filter fun w => w.live later limiter.window := by
  rcases limiter.checkAt_cases answered with ⟨_, _, rfl, _⟩ |
    ⟨_, kept, counts, ⟨_, _, keys, _⟩ | ⟨_, counted⟩⟩
  · rfl
  · rw [keys]
    exact counts.live bucket le
  · rw [count_eq] at counted
    obtain ⟨rfl, rfl⟩ := Prod.mk.inj counted
    rcases other with other | not
    · rw [HashMap.getElem?_insert, if_neg (by simpa using other)]
      exact counts.live bucket le
    · exact absurd rfl not

theorem charge_of_checkAt {table after : Table} {address : IpAddr} {now : Nat}
    (answered : limiter.checkAt table address now = some (.allowed, after)) :
    after.keys[bucketOf address]? =
      some (charge limiter.window (table.keys[bucketOf address]?) now) := by
  rcases limiter.checkAt_cases answered with ⟨_, ⟨_, refused⟩, _, _⟩ |
    ⟨_, kept, counts, ⟨_, untracked, _, _⟩ | ⟨_, counted⟩⟩
  · cases refused
  · cases untracked
  · rw [count_eq] at counted
    obtain ⟨_, rfl⟩ := Prod.mk.inj counted
    rw [HashMap.getElem?_insert_self]
    exact congrArg some (charge_congr (counts.live _ (Nat.le_refl now)))

theorem size_of_checkAt {table after : Table} {address : IpAddr} {now : Nat} {decision : Decision}
    (answered : limiter.checkAt table address now = some (decision, after))
    (bounded : table.keys.size ≤ limiter.maxTracked) : after.keys.size ≤ limiter.maxTracked := by
  rcases limiter.checkAt_cases answered with ⟨_, _, rfl, _⟩ |
    ⟨_, kept, counts, ⟨_, _, keys, _⟩ | ⟨room, counted⟩⟩
  · exact bounded
  · rw [keys]
    exact Nat.le_trans counts.size_le bounded
  · rw [count_eq] at counted
    obtain ⟨_, rfl⟩ := Prod.mk.inj counted
    have size := counts.size_le
    rw [HashMap.size_insert]
    split
    · exact Nat.le_trans size bounded
    · rename_i new
      exact Nat.succ_le_of_lt (room.resolve_left new)

theorem nextSweep_of_checkAt {table after : Table} {address : IpAddr} {now : Nat}
    {decision : Decision}
    (answered : limiter.checkAt table address now = some (decision, after)) :
    (limiter.sweeps table address now = false ∧ after.nextSweep = table.nextSweep) ∨
      (due table now = true ∧ ∃ at_, after.nextSweep = some at_ ∧
        now + limiter.window / SWEEPS_PER_WINDOW ≤ at_) := by
  have kept_ {kept : Table} (counts : limiter.Counts table address now kept)
      (same : after.nextSweep = kept.nextSweep) :
      (limiter.sweeps table address now = false ∧ after.nextSweep = table.nextSweep) ∨
        (due table now = true ∧ ∃ at_, after.nextSweep = some at_ ∧
          now + limiter.window / SWEEPS_PER_WINDOW ≤ at_) := by
    rcases counts with ⟨none_, rfl⟩ | ⟨sweeps, swept⟩
    · exact .inl ⟨none_, same⟩
    · rw [RateLimiter.sweeps, Bool.and_eq_true] at sweeps
      rw [same]
      exact .inr ⟨sweeps.2, (limiter.sweep_spec swept).2⟩
  rcases limiter.checkAt_cases answered with ⟨_, _, rfl, none_⟩ |
    ⟨_, kept, counts, ⟨_, _, _, next⟩ | ⟨_, counted⟩⟩
  · exact .inl ⟨none_, rfl⟩
  · exact kept_ counts next
  · rw [count_eq] at counted
    obtain ⟨_, rfl⟩ := Prod.mk.inj counted
    exact kept_ counts rfl

structure Call where
  before : Table
  address : IpAddr
  now : Nat
  decision : Decision
  after : Table

def Call.charges (bucket : IpAddr) (call : Call) : Bool :=
  decide (bucketOf call.address = bucket) && decide (call.decision = .allowed)

def charged (bucket : IpAddr) (history : List Call) : List Nat :=
  (history.filter (Call.charges bucket)).map Call.now

def Call.sweeps (limiter : RateLimiter) (call : Call) : Bool :=
  limiter.sweeps call.before call.address call.now

def sweptAt (history : List Call) : List Nat :=
  (history.filter (Call.sweeps limiter)).map Call.now

/-- The calls since the limiter was made, the newest first, and the table they leave. -/
inductive Runs : List Call → Table → Prop where
  | new : Runs [] Table.new
  | call {history : List Call} {table : Table} (earlier : Runs history table)
      {address : IpAddr} {now : Nat} {decision : Decision} {after : Table}
      (inOrder : ∀ call ∈ history, call.now ≤ now)
      (answered : limiter.checkAt table address now = some (decision, after)) :
      Runs (⟨table, address, now, decision, after⟩ :: history) after

/-- The table holds each bucket's own window, as long as it is live, whatever the others do. -/
structure Tracks (history : List Call) (table : Table) : Prop where
  windows : ∀ (bucket : IpAddr) (now : Nat), (∀ call ∈ history, call.now ≤ now) →
    (table.keys[bucket]?).filter (fun w => w.live now limiter.window) =
      (FixedWindows.window limiter.window (charged bucket history)).filter fun w => w.live now limiter.window
  admitted : ∀ bucket, Admitted limiter.window limiter.perWindow (charged bucket history)
  bounded : table.keys.size ≤ limiter.maxTracked
  swept : Spaced (limiter.window / SWEEPS_PER_WINDOW) (limiter.sweptAt history)
  nextSweep : ∀ t ∈ limiter.sweptAt history, ∃ at_, table.nextSweep = some at_ ∧
    t + limiter.window / SWEEPS_PER_WINDOW ≤ at_

theorem charged_cons_of_charges {bucket : IpAddr} {call : Call} {history : List Call}
    (charges : call.charges bucket = true) :
    charged bucket (call :: history) = call.now :: charged bucket history := by
  rw [charged, List.filter_cons, if_pos charges]
  rfl

theorem charged_cons_of_not {bucket : IpAddr} {call : Call} {history : List Call}
    (not_ : call.charges bucket = false) :
    charged bucket (call :: history) = charged bucket history := by
  rw [charged, List.filter_cons, not_]
  rfl

theorem spent_congr {length now : Nat} (budget : Nat) {window window' : Option Window}
    (same : window.filter (fun w => w.live now length) =
      window'.filter fun w => w.live now length) :
    Spent length budget window now ↔ Spent length budget window' now := by
  rw [spent_iff, spent_iff, same]

theorem mem_charged {bucket : IpAddr} {history : List Call} {t : Nat}
    (member : t ∈ charged bucket history) : ∃ call ∈ history, call.now = t := by
  obtain ⟨call, kept, rfl⟩ := List.mem_map.mp member
  exact ⟨call, (List.mem_filter.mp kept).1, rfl⟩

theorem tracks_new : limiter.Tracks [] Table.new where
  windows bucket now _ := by
    rw [Table.new, HashMap.getElem?_empty]
    exact Option.filter_none _
  admitted bucket := trivial
  bounded := by
    rw [Table.new, HashMap.size_empty]
    exact Nat.zero_le _
  swept := List.Pairwise.nil
  nextSweep t member := by cases member

section

variable {limiter} {history : List Call} {table after : Table} {address : IpAddr} {now : Nat}
  {decision : Decision}

theorem Tracks.windows_call (tracks : limiter.Tracks history table)
    (inOrder : ∀ call ∈ history, call.now ≤ now)
    (answered : limiter.checkAt table address now = some (decision, after)) (bucket : IpAddr)
    {later : Nat} (le : now ≤ later) :
    (after.keys[bucket]?).filter (fun w => w.live later limiter.window) =
      (FixedWindows.window limiter.window
        (charged bucket (⟨table, address, now, decision, after⟩ :: history))).filter
          fun w => w.live later limiter.window := by
  have past : ∀ call ∈ history, call.now ≤ later := fun call member =>
    Nat.le_trans (inOrder call member) le
  cases charges : Call.charges bucket ⟨table, address, now, decision, after⟩ with
  | true =>
      rw [charged_cons_of_charges charges, FixedWindows.window]
      simp only [Call.charges, Bool.and_eq_true, decide_eq_true_eq] at charges
      obtain ⟨rfl, rfl⟩ := charges
      rw [limiter.charge_of_checkAt answered,
        charge_congr (tracks.windows (bucketOf address) now inOrder)]
  | false =>
      rw [charged_cons_of_not charges, ← tracks.windows bucket later past]
      simp only [Call.charges, Bool.and_eq_false_iff, decide_eq_false_iff_not] at charges
      exact limiter.live_of_checkAt answered charges le

theorem Tracks.admitted_call (tracks : limiter.Tracks history table)
    (inOrder : ∀ call ∈ history, call.now ≤ now)
    (answered : limiter.checkAt table address now = some (decision, after)) (bucket : IpAddr) :
    Admitted limiter.window limiter.perWindow
      (charged bucket (⟨table, address, now, decision, after⟩ :: history)) := by
  cases charges : Call.charges bucket ⟨table, address, now, decision, after⟩ with
  | false =>
      rw [charged_cons_of_not charges]
      exact tracks.admitted bucket
  | true =>
      rw [charged_cons_of_charges charges]
      simp only [Call.charges, Bool.and_eq_true, decide_eq_true_eq] at charges
      obtain ⟨rfl, rfl⟩ := charges
      refine ⟨tracks.admitted _, fun t member => ?_, ?_⟩
      · obtain ⟨call, earlier, rfl⟩ := mem_charged member
        exact inOrder call earlier
      · rw [← spent_congr _ (tracks.windows (bucketOf address) now inOrder)]
        rcases limiter.checkAt_cases answered with ⟨_, ⟨_, refused⟩, _, _⟩ | ⟨unspent, _⟩
        · cases refused
        · exact unspent

theorem Tracks.swept_call (tracks : limiter.Tracks history table)
    (answered : limiter.checkAt table address now = some (decision, after)) :
    Spaced (limiter.window / SWEEPS_PER_WINDOW)
        (limiter.sweptAt (⟨table, address, now, decision, after⟩ :: history)) ∧
      ∀ t ∈ limiter.sweptAt (⟨table, address, now, decision, after⟩ :: history),
        ∃ at_, after.nextSweep = some at_ ∧ t + limiter.window / SWEEPS_PER_WINDOW ≤ at_ := by
  rcases limiter.nextSweep_of_checkAt answered with ⟨none_, next⟩ | ⟨isDue, at_, next, off⟩
  · have same : limiter.sweptAt (⟨table, address, now, decision, after⟩ :: history) =
        limiter.sweptAt history := by
      rw [sweptAt, List.filter_cons, if_neg (by rw [Call.sweeps, none_]; decide)]
      rfl
    rw [same, next]
    exact ⟨tracks.swept, tracks.nextSweep⟩
  · -- every sweep so far is an interval past
    have past : ∀ t ∈ limiter.sweptAt history, t + limiter.window / SWEEPS_PER_WINDOW ≤ now := by
      intro t member
      obtain ⟨reached, here, le⟩ := tracks.nextSweep t member
      rw [due, here, Option.all_some, decide_eq_true_eq] at isDue
      exact Nat.le_trans le isDue
    have grows : ∀ t ∈ limiter.sweptAt history,
        ∃ at_, after.nextSweep = some at_ ∧ t + limiter.window / SWEEPS_PER_WINDOW ≤ at_ :=
      fun t member =>
        ⟨at_, next, Nat.le_trans (past t member) (Nat.le_trans (Nat.le_add_right _ _) off)⟩
    rw [sweptAt, List.filter_cons]
    split
    · refine ⟨List.pairwise_cons.mpr ⟨past, tracks.swept⟩, fun t member => ?_⟩
      rcases List.mem_cons.mp member with rfl | earlier
      · exact ⟨at_, next, off⟩
      · exact grows t earlier
    · exact ⟨tracks.swept, grows⟩

theorem Tracks.call (tracks : limiter.Tracks history table)
    (inOrder : ∀ call ∈ history, call.now ≤ now)
    (answered : limiter.checkAt table address now = some (decision, after)) :
    limiter.Tracks (⟨table, address, now, decision, after⟩ :: history) after where
  windows bucket _ past :=
    tracks.windows_call inOrder answered bucket (past _ List.mem_cons_self)
  admitted := tracks.admitted_call inOrder answered
  bounded := limiter.size_of_checkAt answered tracks.bounded
  swept := (tracks.swept_call answered).1
  nextSweep := (tracks.swept_call answered).2

end

theorem Runs.tracks {limiter : RateLimiter} {history : List Call} {table : Table}
    (runs : limiter.Runs history table) : limiter.Tracks history table := by
  induction runs with
  | new => exact limiter.tracks_new
  | call _ inOrder answered ih => exact ih.call inOrder answered

theorem Runs.earlier {limiter : RateLimiter} {call : Call} {earlier : List Call} :
    ∀ {later : List Call} {table : Table}, limiter.Runs (later ++ call :: earlier) table →
      limiter.Runs (call :: earlier) call.after := by
  intro later
  induction later with
  | nil =>
      intro table runs
      cases runs with
      | call before inOrder answered => exact .call before inOrder answered
  | cons _ later ih =>
      intro table runs
      cases runs with
      | call before _ _ => exact ih before

theorem Runs.refused_iff {limiter : RateLimiter} {call : Call} {earlier : List Call}
    {table : Table} (runs : limiter.Runs (call :: earlier) table) :
    (∃ seconds, call.decision = .limited seconds) ↔
      ∃ w, FixedWindows.window limiter.window (charged (bucketOf call.address) earlier) = some w ∧
        w.live call.now limiter.window = true ∧
        limiter.perWindow ≤ (charged (bucketOf call.address) earlier).countP
          fun t => decide (w.started ≤ t) := by
  cases runs with
  | call before inOrder answered =>
      rename_i table' address now decision
      have tracks := before.tracks
      have spent := spent_congr limiter.perWindow
        (tracks.windows (bucketOf address) now inOrder)
      have counted {w : Window} (live : w.live now limiter.window = true)
          (found : FixedWindows.window limiter.window (charged (bucketOf address) earlier) =
            some w) :
          (charged (bucketOf address) earlier).countP (fun t => decide (w.started ≤ t)) =
            w.count := by
        simp only [Window.live, decide_eq_true_eq] at live
        exact (tracks.admitted _).count (by omega) found
      constructor
      · intro refused
        rcases limiter.checkAt_cases answered with ⟨full, _⟩ |
          ⟨_, kept, _, ⟨_, untracked, _, _⟩ | ⟨_, charged_⟩⟩
        · obtain ⟨w, found, live, budget⟩ := spent.mp full
          exact ⟨w, found, live, by rw [counted live found]; exact budget⟩
        · obtain ⟨_, refused⟩ := refused
          cases refused.symm.trans untracked
        · obtain ⟨_, refused⟩ := refused
          rw [count_eq] at charged_
          cases refused.symm.trans (Prod.mk.inj charged_).1
      · rintro ⟨w, found, live, budget⟩
        rw [counted live found] at budget
        rcases limiter.checkAt_cases answered with ⟨_, refused, _⟩ | ⟨unspent, _⟩
        · exact refused
        · exact absurd (spent.mpr ⟨w, found, live, budget⟩) unspent

/-- What the limiter promises of the calls it has answered, the newest first. -/
structure ChargesAlone (history : List Call) : Prop where
  /-- A call is refused exactly where its own bucket's current window holds the budget. -/
  refused : ∀ (later : List Call) (call : Call) (earlier : List Call),
    history = later ++ call :: earlier →
      ((∃ seconds, call.decision = .limited seconds) ↔
        ∃ w, FixedWindows.window limiter.window (charged (bucketOf call.address) earlier) = some w ∧
          w.live call.now limiter.window = true ∧
          limiter.perWindow ≤ (charged (bucketOf call.address) earlier).countP
            fun t => decide (w.started ≤ t))
  /-- Between two calls that open windows of one bucket lies a window length. -/
  opened : ∀ (bucket : IpAddr) (later : List Call) (call : Call) (between : List Call)
    (first : Call) (before : List Call),
    history = later ++ call :: (between ++ first :: before) →
      call.charges bucket = true → first.charges bucket = true →
      Opens limiter.window (charged bucket (between ++ first :: before)) call.now →
      Opens limiter.window (charged bucket before) first.now →
      first.now + limiter.window ≤ call.now
  /-- No stretch of one window length holds more than two budgets of one bucket. -/
  stretch : 1 ≤ limiter.perWindow → 0 < limiter.window → ∀ (bucket : IpAddr) (t : Nat),
    (history.countP fun call => call.charges bucket &&
      decide (t ≤ call.now ∧ call.now ≤ t + limiter.window)) ≤ 2 * limiter.perWindow
  /-- A call leaves the live windows of the other buckets as they are. -/
  others : ∀ call ∈ history, ∀ bucket, bucketOf call.address ≠ bucket →
    (call.after.keys[bucket]?).filter (fun w => w.live call.now limiter.window) =
      (call.before.keys[bucket]?).filter fun w => w.live call.now limiter.window
  bounded : ∀ call ∈ history, call.after.keys.size ≤ limiter.maxTracked
  /-- No stretch of one window length holds more than `SWEEPS_PER_WINDOW` sweeps and one. -/
  sweeps : limiter.window % SWEEPS_PER_WINDOW < limiter.window / SWEEPS_PER_WINDOW → ∀ t : Nat,
    (history.countP fun call => call.sweeps limiter &&
      decide (t ≤ call.now ∧ call.now ≤ t + limiter.window)) ≤ SWEEPS_PER_WINDOW + 1

theorem countP_filter_map (p : Call → Bool) (q : Nat → Bool) (history : List Call) :
    ((history.filter p).map Call.now).countP q = history.countP fun call => p call && q call.now := by
  rw [List.countP_map, List.countP_filter]
  refine congrArg (List.countP · history) (funext fun call => ?_)
  exact Bool.and_comm _ _

theorem charged_append (bucket : IpAddr) (later earlier : List Call) :
    charged bucket (later ++ earlier) = charged bucket later ++ charged bucket earlier := by
  rw [charged, List.filter_append, List.map_append]
  rfl

theorem Runs.call_of_mem {limiter : RateLimiter} {history : List Call} {table : Table} {call : Call}
    (runs : limiter.Runs history table) (member : call ∈ history) :
    ∃ earlier, limiter.Runs (call :: earlier) call.after := by
  obtain ⟨later, earlier, rfl⟩ := List.append_of_mem member
  exact ⟨earlier, runs.earlier⟩

/-- Every run of the limiter charges each client for itself only. -/
theorem runs_charge_alone {history : List Call} {table : Table}
    (runs : limiter.Runs history table) : limiter.ChargesAlone history where
  refused := by
    rintro later call earlier rfl
    exact runs.earlier.refused_iff
  opened := by
    rintro bucket later call between first before rfl charges charges' opens opens'
    have here := runs.earlier
    have inOrder := (here.tracks.admitted bucket).inOrder
    rw [charged_cons_of_charges charges, charged_append, charged_cons_of_charges charges'] at inOrder
    rw [charged_append, charged_cons_of_charges charges'] at opens
    exact opens_spaced inOrder opens' opens
  stretch := by
    intro some_ positive bucket t
    have bound := countP_stretch_le positive some_ (runs.tracks.admitted bucket) t
    rw [charged, countP_filter_map] at bound
    exact bound
  others := by
    intro call member bucket other
    obtain ⟨earlier, here⟩ := runs.call_of_mem member
    cases here with
    | call before inOrder answered =>
        exact limiter.live_of_checkAt answered (.inl other) (Nat.le_refl _)
  bounded := by
    intro call member
    obtain ⟨earlier, here⟩ := runs.call_of_mem member
    exact here.tracks.bounded
  sweeps := by
    intro wide t
    have short : limiter.window < (SWEEPS_PER_WINDOW + 1) * (limiter.window / SWEEPS_PER_WINDOW) := by
      have whole := Nat.div_add_mod limiter.window SWEEPS_PER_WINDOW
      rw [Nat.succ_mul]
      omega
    have bound := runs.tracks.swept.countP_le short t
    rw [sweptAt, countP_filter_map] at bound
    exact bound

theorem checkAt_new (room : 0 < limiter.maxTracked) (address : IpAddr) (now : Nat) :
    limiter.checkAt Table.new address now = some (limiter.count Table.new (bucketOf address) now) := by
  have roomy : decide (limiter.maxTracked ≤ Table.new.keys.size) = false :=
    decide_eq_false (Nat.not_le.mpr room)
  unfold checkAt
  simp only [roomy, Bool.and_false, Bool.false_eq_true, if_false]
  rw [Table.new, HashMap.getElem?_empty, Option.filter_none]

def forLogin : RateLimiter where
  window := 60000000000
  perWindow := 20
  maxTracked := MAX_TRACKED_PEERS
  lastInstant := 2 ^ 63 * 1000000000 - 1

def client : IpAddr := .v4 0xcb007107#32

def firstCall (limiter : RateLimiter) : Call where
  before := Table.new
  address := client
  now := 1000
  decision := .allowed
  after := (limiter.count Table.new (bucketOf client) 1000).2

theorem firstCall_runs (room : 0 < limiter.maxTracked) :
    limiter.Runs [firstCall limiter] (firstCall limiter).after :=
  .call .new (by rintro _ ⟨⟩) (limiter.checkAt_new room client 1000)

theorem forLogin_charges_alone : forLogin.ChargesAlone [firstCall forLogin] :=
  forLogin.runs_charge_alone (forLogin.firstCall_runs (by decide))

def noBudget : RateLimiter := { forLogin with perWindow := 0 }

def shortWindow : RateLimiter := { forLogin with window := 31, maxTracked := 0 }

theorem sweep_empty {table : Table} (now : Nat) (empty : table.keys.isEmpty = true)
    (early : now < 1000) :
    ∃ kept, shortWindow.sweep table now = some kept ∧ kept.keys.isEmpty = true ∧
      kept.nextSweep = some (now + 1) := by
  have filtered : (table.keys.filter fun _ w => w.live now shortWindow.window).isEmpty = true := by
    have size := HashMap.size_filter_le_size (m := table.keys)
      (f := fun _ w => w.live now shortWindow.window)
    rw [HashMap.isEmpty_eq_size_eq_zero, beq_iff_eq] at empty ⊢
    omega
  have nothing : (table.keys.filter fun _ w => w.live now shortWindow.window).toList = [] := by
    rw [← List.isEmpty_iff, HashMap.isEmpty_toList, filtered]
  have within : now + shortWindow.window / SWEEPS_PER_WINDOW ≤ shortWindow.lastInstant := by
    have interval : shortWindow.window / SWEEPS_PER_WINDOW = 1 := rfl
    have last : 1001 ≤ shortWindow.lastInstant := by decide
    omega
  refine ⟨{ table with
    keys := table.keys.filter fun _ w => w.live now shortWindow.window
    nextSweep := some (max now (now + shortWindow.window / SWEEPS_PER_WINDOW)) }, ?_, filtered, ?_⟩
  · unfold sweep
    simp only [nothing, List.foldl_nil, expiry, addInstant, if_pos within]
    rfl
  · exact congrArg some (Nat.max_eq_right (Nat.le_add_right now 1))

theorem shortWindow_runs : ∀ n, n ≤ 18 → ∃ history table, shortWindow.Runs history table ∧
    history.length = n ∧ (∀ call ∈ history, call.now < n ∧ call.sweeps shortWindow = true) ∧
    table.keys.isEmpty = true ∧ due table n = true := by
  intro n
  induction n with
  | zero => exact fun _ => ⟨[], Table.new, .new, rfl, by rintro _ ⟨⟩, by
      rw [Table.new, HashMap.isEmpty_empty], rfl⟩
  | succ n ih =>
      intro few
      obtain ⟨history, table, runs, length, all, empty, isDue⟩ := ih (Nat.le_of_succ_le few)
      obtain ⟨kept, swept, none_, next⟩ := sweep_empty n empty (by omega)
      have absent : table.keys.contains (bucketOf client) = false :=
        HashMap.contains_of_isEmpty empty
      have full : (!table.keys.contains (bucketOf client) &&
          decide (shortWindow.maxTracked ≤ table.keys.size)) = true := by
        rw [absent, Bool.not_false, Bool.true_and]
        exact decide_eq_true (Nat.zero_le _)
      obtain ⟨decision, after, answered, keys, nextSweep⟩ : ∃ decision after,
          shortWindow.checkAt table client n = some (decision, after) ∧
            after.keys = kept.keys ∧ after.nextSweep = kept.nextSweep := by
        unfold checkAt
        simp only [HashMap.getElem?_of_isEmpty empty, Option.filter_none, full, if_true, sweepDue,
          isDue, swept]
        have bound : shortWindow.maxTracked ≤ kept.keys.size := Nat.zero_le _
        refine ⟨_, _, (Option.bind_some _ _).trans (if_pos bound), ?_, ?_⟩
        · split <;> rfl
        · split <;> rfl
      refine ⟨⟨table, client, n, decision, after⟩ :: history, after,
        .call runs (fun call member => Nat.le_of_lt (all call member).1) answered, ?_, ?_, ?_, ?_⟩
      · rw [List.length_cons, length]
      · intro call member
        rcases List.mem_cons.mp member with rfl | earlier
        · exact ⟨Nat.lt_succ_self n, by rw [Call.sweeps, sweeps, full, isDue]; rfl⟩
        · exact ⟨Nat.lt_succ_of_lt (all call earlier).1, (all call earlier).2⟩
      · rw [keys, none_]
      · rw [due, nextSweep, next]
        exact decide_eq_true (Nat.le_refl _)

/-- The bounds fail without a budget, and for a window whose sixteenth is rounded away. -/
theorem degenerate_limiters :
    (¬∀ (limiter : RateLimiter) (history : List Call) (table : Table),
      limiter.Runs history table → ∀ (bucket : IpAddr) (t : Nat),
      (history.countP fun call => call.charges bucket &&
        decide (t ≤ call.now ∧ call.now ≤ t + limiter.window)) ≤ 2 * limiter.perWindow) ∧
    ¬∀ (limiter : RateLimiter) (history : List Call) (table : Table),
      limiter.Runs history table → ∀ t : Nat,
      (history.countP fun call => call.sweeps limiter &&
        decide (t ≤ call.now ∧ call.now ≤ t + limiter.window)) ≤ SWEEPS_PER_WINDOW + 1 := by
  constructor
  · intro bounds
    have none_ := bounds noBudget _ _ (noBudget.firstCall_runs (by decide)) (bucketOf client) 0
    rw [List.countP_cons, if_pos (by decide)] at none_
    exact absurd none_ (by decide)
  · intro bounds
    obtain ⟨history, table, runs, length, all, _⟩ := shortWindow_runs 18 (Nat.le_refl 18)
    have few := bounds shortWindow history table runs 0
    have every : (history.countP fun call => call.sweeps shortWindow &&
        decide (0 ≤ call.now ∧ call.now ≤ 0 + shortWindow.window)) = history.length := by
      refine List.countP_eq_length.mpr fun call member => ?_
      obtain ⟨before, swept⟩ := all call member
      have wide : shortWindow.window = 31 := rfl
      rw [swept, Bool.true_and, decide_eq_true_eq]
      omega
    rw [every, length] at few
    exact absurd few (by decide)

end RateLimiter

end Logweir.Api.RateLimit
