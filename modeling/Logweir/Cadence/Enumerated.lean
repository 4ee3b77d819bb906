import Logweir.Library.Enumerations
import Logweir.Cadence.LocalDates
import Mathlib.Data.Int.Interval

/-!
# Counting what a walk found

The count of a walk's firings before an instant, where the walk begins a set of instants and is one
longer than the cap.
-/

set_option autoImplicit false

namespace Logweir.Cadence

open Logweir.Enumerations

def instants (fires : List Fire) : List Instant := fires.map Fire.instant

theorem exists_instant {fires : List Fire} {p : Instant → Prop} :
    (∃ t ∈ instants fires, p t) ↔ ∃ fire ∈ fires, p fire.instant := by
  simp [instants]

theorem tally_eq {before : Instant} {cap : Nat} {horizonReached : Bool} (fires : List Fire)
    {count : Nat} (ascending : (instants fires).Pairwise (· < ·)) (within : count ≤ cap) :
    tally before cap horizonReached fires count =
      if cap < count + countBelow before (instants fires) then ⟨cap, true, false⟩
      else if ∃ fire ∈ fires, before ≤ fire.instant then
        ⟨count + countBelow before (instants fires), false, false⟩
      else ⟨count + countBelow before (instants fires), false, horizonReached⟩ := by
  induction fires generalizing count with
  | nil =>
      have none_ : countBelow before (instants []) = 0 := rfl
      rw [tally, none_, if_neg (by omega), if_neg (by simp)]
      rfl
  | cons fire fires ih =>
      obtain ⟨first, rest⟩ := List.pairwise_cons.mp ascending
      rw [tally]
      split
      · -- Everything behind a firing that is not before is not before either.
        rename_i past
        have none_ : countBelow before (instants (fire :: fires)) = 0 := by
          refine List.countP_eq_zero.mpr fun t member => ?_
          rw [decide_eq_true_eq, not_lt]
          rcases List.mem_cons.mp member with rfl | later
          · exact past
          · exact le_of_lt (lt_of_le_of_lt past (first t later))
        rw [none_, if_neg (by omega), if_pos ⟨fire, List.mem_cons_self, past⟩]
        rfl
      · rename_i before_
        have one : countBelow before (instants (fire :: fires)) =
            countBelow before (instants fires) + 1 :=
          List.countP_cons_of_pos (decide_eq_true (not_le.mp before_))
        have past : (∃ other ∈ fire :: fires, before ≤ other.instant) ↔
            ∃ other ∈ fires, before ≤ other.instant := by
          simp [before_]
        rw [one]
        split
        · rename_i full
          rw [if_pos (by omega), full]
        · rw [ih rest (by omega)]
          simp only [past, Nat.add_assoc, Nat.add_comm 1]

/-- What counting the firings of a set before an instant, up to a cap, may answer. -/
structure Counts (S : Set Instant) (before : Instant) (cap : Nat) (r : SkippedSlots) : Prop where
  capped_iff : r.capped = true ↔ (cap : ℕ∞) < {t | t ∈ S ∧ t < before}.encard
  count_of_capped : r.capped = true → r.count = cap
  count_of_uncapped : r.capped = false → {t | t ∈ S ∧ t < before}.encard = r.count

variable {S : Set Instant} {before : Instant} {cap : Nat} {horizonReached : Bool} {fires : List Fire}

theorem whole_of_few (begins : Begins S before (min (cap + 1) usizeMax) (instants fires))
    (few : S.encard < usizeMax) (within : countBelow before (instants fires) ≤ cap) :
    (instants fires).length < min (cap + 1) usizeMax ∨ ∃ t ∈ instants fires, before ≤ t := by
  by_contra neither
  rw [not_or, not_lt] at neither
  obtain ⟨long, none_⟩ := neither
  have all : countBelow before (instants fires) = (instants fires).length :=
    countBelow_eq_length fun t member =>
      not_le.mp fun past => none_ ⟨t, member, past⟩
  have number : (instants fires).length ≤ S.encard := by
    rw [← encard_mem begins.ascending]
    exact Set.encard_le_encard begins.sound
  have small : (instants fires).length < usizeMax := by exact_mod_cast lt_of_le_of_lt number few
  omega

theorem counts_tally (begins : Begins S before (min (cap + 1) usizeMax) (instants fires))
    (few : S.encard < usizeMax) : Counts S before cap (tally before cap horizonReached fires 0) := by
  rw [tally_eq fires begins.ascending (Nat.zero_le cap), Nat.zero_add]
  rcases Nat.lt_or_ge cap (countBelow before (instants fires)) with past | within
  · have more : (cap : ℕ∞) < {t | t ∈ S ∧ t < before}.encard :=
      lt_of_lt_of_le (by exact_mod_cast past) begins.countBelow_le_encard
    rw [if_pos past]
    exact ⟨iff_of_true rfl more, fun _ => rfl, fun capped => Bool.noConfusion capped⟩
  · have exact_ := begins.encard_eq (whole_of_few begins few within)
    have fewer : ¬ (cap : ℕ∞) < {t | t ∈ S ∧ t < before}.encard := by
      rw [exact_, not_lt]
      exact_mod_cast within
    rw [if_neg (Nat.not_lt.mpr within)]
    split
    · exact ⟨iff_of_false Bool.false_ne_true fewer, fun capped => Bool.noConfusion capped,
        fun _ => exact_⟩
    · exact ⟨iff_of_false Bool.false_ne_true fewer, fun capped => Bool.noConfusion capped,
        fun _ => exact_⟩

theorem horizonReached_tally (horizonReached : Bool)
    (begins : Begins S before (min (cap + 1) usizeMax) (instants fires)) :
    (tally before cap horizonReached fires 0).capped = false →
      ((tally before cap horizonReached fires 0).horizonReached = true ↔
        horizonReached = true ∧ ∀ fire ∈ fires, fire.instant < before) := by
  rw [tally_eq fires begins.ascending (Nat.zero_le cap), Nat.zero_add]
  split
  · exact fun capped => Bool.noConfusion capped
  · split
    · rename_i past
      obtain ⟨fire, member, past⟩ := past
      exact fun _ => iff_of_false Bool.false_ne_true fun both =>
        not_lt_of_ge past (both.2 fire member)
    · rename_i none_
      refine fun _ => (and_iff_left ?_).symm
      exact fun fire member => not_le.mp fun past => none_ ⟨fire, member, past⟩

theorem encard_whole_lt {S : Set Instant} (whole : ∀ t ∈ S, t.nanos = 0) : S.encard < usizeMax := by
  have injective : Set.InjOn Instant.total S := fun s member t member' same =>
    Instant.eq_of_total (whole s member) (whole t member') same
  have inside : Instant.total '' S ⊆ Set.Ico (minDay * 86400) ((maxDay + 1) * 86400) := by
    rintro _ ⟨t, _, rfl⟩
    have := t.total_near
    have := t.date.exists_
    exact ⟨by omega, by omega⟩
  rw [← injective.encard_image]
  refine lt_of_le_of_lt (Set.encard_le_encard inside) ?_
  rw [← Finset.coe_Ico, Set.encard_coe_eq_coe_finsetCard, Int.card_Ico]
  decide

end Logweir.Cadence

/-!
## What the bounded walks find

Both walks begin the set of the firings that they can reach.  In UTC these end where a walk from one
of them gives up, or with the horizon; in a zone they are those of the local dates up to the horizon.
-/

namespace Logweir.Cadence

open Std (ExtTreeMap)
open Logweir.Enumerations

namespace Cron

variable {c : Cron} {horizon : NaiveDate} {s t before : Instant}

/-- No firing on the dates that a walk from an instant visits. -/
def GivesUp (c : Cron) (s : Instant) : Prop :=
  ∀ t, c.Fires t → s < t → startDay s + 3700 ≤ t.date.day

def Reached (c : Cron) (horizon : NaiveDate) (s : Instant) : Set Instant :=
  {t | c.Fires t ∧ s < t ∧ t.date.day ≤ horizon.day ∧
    ∀ u, u = s ∨ c.Fires u ∧ s < u → u < t → ¬ c.GivesUp u}

theorem date_le {s t : Instant} (le : s ≤ t) : s.date.day ≤ t.date.day := by
  by_contra after
  exact absurd (Instant.lt_of_total (by have := s.total_near; have := t.total_near; omega))
    (not_lt_of_ge le)

theorem not_givesUp (next : c.nextFireAfter s = some t) : ¬ c.GivesUp s := by
  obtain ⟨⟨⟨fires, later⟩, _⟩, near⟩ := nextFire_some next
  intro gap
  have := gap t fires later
  omega

theorem reached_of_le (reached : t ∈ c.Reached horizon s) {u : Instant} (fires : c.Fires u)
    (later : s < u) (le : u ≤ t) : u ∈ c.Reached horizon s := by
  obtain ⟨_, _, near, steps⟩ := reached
  refine ⟨fires, later, Int.le_trans (date_le le) near, fun v start before_ => ?_⟩
  exact steps v start (lt_of_lt_of_le before_ le)

theorem reached_of_none (none_ : c.nextFireAfter s = none) : c.Reached horizon s = ∅ := by
  refine Set.eq_empty_iff_forall_notMem.mpr fun t reached => ?_
  exact reached.2.2.2 s (.inl rfl) reached.2.1 (nextFire_none none_)

section
variable (next : c.nextFireAfter s = some t)

include next

theorem reached_of_past (past : horizon.day < t.date.day) : c.Reached horizon s = ∅ := by
  refine Set.eq_empty_iff_forall_notMem.mpr fun u ⟨fires, later, near, _⟩ => ?_
  have := date_le ((nextFire_some next).1.2 ⟨fires, later⟩)
  omega

theorem reached_least (near : ¬ horizon.day < t.date.day) : IsLeast (c.Reached horizon s) t := by
  obtain ⟨⟨⟨fires, later⟩, least⟩, _⟩ := nextFire_some next
  refine ⟨⟨fires, later, by omega, ?_⟩, fun u reached => least ⟨reached.1, reached.2.1⟩⟩
  rintro u (rfl | ⟨fires', later'⟩) before_
  · exact not_givesUp next
  · exact absurd before_ (not_lt_of_ge (least ⟨fires', later'⟩))

theorem reached_behind : c.Reached horizon t = {u | u ∈ c.Reached horizon s ∧ t < u} := by
  obtain ⟨⟨⟨fires, later⟩, least⟩, _⟩ := nextFire_some next
  ext u
  constructor
  · rintro ⟨fires', later', near, steps⟩
    refine ⟨⟨fires', lt_trans later later', near, ?_⟩, later'⟩
    rintro v (rfl | ⟨fires'', later''⟩) before_
    · exact not_givesUp next
    · rcases lt_or_eq_of_le (least ⟨fires'', later''⟩) with behind | rfl
      · exact steps v (.inr ⟨fires'', behind⟩) before_
      · exact steps t (.inl rfl) before_
  · rintro ⟨⟨fires', _, near, steps⟩, later'⟩
    refine ⟨fires', later', near, ?_⟩
    rintro v (rfl | ⟨fires'', later''⟩) before_
    · exact steps v (.inr ⟨fires, later⟩) before_
    · exact steps v (.inr ⟨fires'', lt_trans later later''⟩) before_

end

/-- What a walk in UTC found, and where it ended. -/
structure WalkedUtc (c : Cron) (horizon : NaiveDate) (before : Instant) (count : Nat) (s : Instant)
    (walk : Walk) : Prop where
  begins : Begins (c.Reached horizon s) before count (instants walk.fires)
  past : walk.horizonReached = true → ∃ last, (last = s ∨ last ∈ c.Reached horizon s) ∧
    ¬ c.GivesUp last ∧ ∀ t, c.Fires t → last < t → horizon.day < t.date.day
  givesUp : walk.horizonReached = false → (instants walk.fires).length < count →
    (∀ fire ∈ walk.fires, fire.instant < before) →
      ∃ last, (last = s ∨ last ∈ c.Reached horizon s) ∧ c.GivesUp last

theorem walkUtc_spec (c : Cron) (horizon : NaiveDate) (before : Instant) (count : Nat) :
    ∀ s, c.WalkedUtc horizon before count s (c.walkUtc horizon (some before) count s) := by
  induction count with
  | zero =>
      exact fun s => ⟨begins_zero _ _, fun past => Bool.noConfusion past,
        fun _ short => absurd short (Nat.not_lt_zero _)⟩
  | succ count ih =>
      intro s
      rw [walkUtc]
      split
      · rename_i none_
        exact ⟨begins_empty (reached_of_none none_) _ _, fun past => Bool.noConfusion past,
          fun _ _ _ => ⟨s, .inl rfl, nextFire_none none_⟩⟩
      · rename_i t next
        split
        · rename_i past
          refine ⟨begins_empty (reached_of_past next past) _ _, fun _ => ?_,
            fun flag => Bool.noConfusion flag⟩
          refine ⟨s, .inl rfl, not_givesUp next, fun u fires later => ?_⟩
          have := date_le ((nextFire_some next).1.2 ⟨fires, later⟩)
          omega
        · rename_i near
          have least := reached_least next near
          split
          · rename_i stop
            have late : before ≤ t := of_decide_eq_true stop
            refine ⟨begins_stop least late _, fun past => Bool.noConfusion past,
              fun _ _ early => ?_⟩
            exact absurd (early ⟨t, none⟩ List.mem_cons_self) (not_lt_of_ge late)
          · have rest := ih t
            have inside : ∀ last, last = t ∨ last ∈ c.Reached horizon t →
                last ∈ c.Reached horizon s := by
              rintro last (rfl | reached)
              · exact least.1
              · rw [reached_behind next] at reached
                exact reached.1
            refine ⟨begins_cons least (reached_behind next ▸ rest.begins), fun past => ?_,
              fun flag short early => ?_⟩
            · obtain ⟨last, from_, end_⟩ := rest.past past
              exact ⟨last, .inr (inside last from_), end_⟩
            · obtain ⟨last, from_, gap⟩ := rest.givesUp flag (Nat.lt_of_succ_lt_succ short)
                fun fire member => early fire (List.mem_cons_of_mem _ member)
              exact ⟨last, .inr (inside last from_), gap⟩

section
variable {tz : Tz} {date : NaiveDate} {marker : Option Adjustment} {e : Instant}

theorem earliest_eq (earliest : earliestPossibleUtc date = some e) :
    e.total = date.day * 86400 - 93600 ∧ e.nanos = 0 := by
  unfold earliestPossibleUtc at earliest
  split at earliest
  · rename_i midnight made
    have := at'_total (by decide) made
    have := Instant.plus_eq earliest
    unfold maxOffsetHours at this
    omega
  · cases earliest

theorem earliest_isSome (room : minDay + 2 ≤ date.day) : ∃ e, earliestPossibleUtc date = some e := by
  unfold earliestPossibleUtc
  split
  · rename_i midnight made
    have := at'_total (by decide) made
    have := date.exists_
    unfold maxOffsetHours
    exact Instant.plus_isSome (by omega) (by omega)
  · rename_i none_
    exact absurd none_ (at'_ne_none (by decide))

theorem earliest_lt (earliest : earliestPossibleUtc date = some e) {d : NaiveDate}
    (from_ : date.day ≤ d.day) (on : c.OnDate tz d t marker) : e < t := by
  have := earliest_eq earliest
  have := on.near
  exact Instant.lt_of_total (by omega)

/-- The firings behind an instant of the local dates from one on, up to another. -/
def Span (c : Cron) (tz : Tz) (after : Instant) (start stop : Int) (t : Instant)
    (marker : Option Adjustment) : Prop :=
  after < t ∧ ∃ d : NaiveDate, start ≤ d.day ∧ d.day < stop ∧ c.OnDate tz d t marker

/-- Why a walk of the local dates stopped before a date. -/
inductive Stopped (found : Found) (count : Nat) (until_ : Option Instant) (horizon : NaiveDate)
    (stop : Int) : Bool → Prop where
  | past (here : stop = horizon.day + 1) : Stopped found count until_ horizon stop true
  | enough {nth e : Instant} {marker : Option Adjustment} {date : NaiveDate} (here : date.day = stop)
      (held : found.toList[count - 1]? = some (nth, marker))
      (earliest : earliestPossibleUtc date = some e) (less : nth < e) :
      Stopped found count until_ horizon stop false
  | reached {u e : Instant} {date : NaiveDate} (here : date.day = stop) (bound : until_ = some u)
      (earliest : earliestPossibleUtc date = some e) (le : u ≤ e) :
      Stopped found count until_ horizon stop false
  | last (here : stop = maxDay + 1) : Stopped found count until_ horizon stop false

variable {after before : Instant} {count : Nat} {until_ : Option Instant}

theorem holdsEnough_true {found : Found} (enough : holdsEnough found count date = some true) :
    ∃ nth marker e, found.toList[count - 1]? = some (nth, marker) ∧
      earliestPossibleUtc date = some e ∧ nth < e := by
  unfold holdsEnough at enough
  split at enough
  · cases enough
  · rename_i nth marker held
    obtain ⟨e, earliest, less⟩ := Option.map_eq_some_iff.mp enough
    exact ⟨nth, marker, e, held, earliest, of_decide_eq_true less⟩

theorem isPast_true (past : isPast until_ date = some true) :
    ∃ u e, until_ = some u ∧ earliestPossibleUtc date = some e ∧ u ≤ e := by
  unfold isPast at past
  split at past
  · cases past
  · rename_i u
    obtain ⟨e, earliest, le⟩ := Option.map_eq_some_iff.mp past
    exact ⟨u, e, rfl, earliest, of_decide_eq_true le⟩

theorem walkDates_spec {start : Int} (steps : Nat) {found found' : Found} {flag : Bool}
    (held : Holds found (c.Span tz after start date.day)) (low : start ≤ date.day)
    (inside : date.day ≤ horizon.day + 1) (room : horizon.day + 1 < date.day + steps)
    (done_ : c.walkDates tz after count until_ horizon steps date found = some (found', flag)) :
    ∃ stop, date.day ≤ stop ∧ stop ≤ horizon.day + 1 ∧
      Holds found' (c.Span tz after start stop) ∧
      Stopped found' count until_ horizon stop flag ∧
      ∀ d : NaiveDate, date.day ≤ d.day → d.day < stop →
        ∃ fires, c.firesOnLocalDate tz d = some fires := by
  induction steps generalizing date found with
  | zero => omega
  | succ steps ih =>
      have here : ∀ d : NaiveDate, date.day ≤ d.day → d.day < date.day →
          ∃ fires, c.firesOnLocalDate tz d = some fires := fun d _ _ => by omega
      rw [walkDates] at done_
      split at done_
      · rename_i past
        cases done_
        exact ⟨date.day, Int.le_refl _, inside, held, .past (by omega), here⟩
      · rename_i near
        split at done_
        · cases done_
        · rename_i enough
          cases done_
          obtain ⟨nth, marker, e, nth_, earliest, less⟩ := holdsEnough_true enough
          exact ⟨date.day, Int.le_refl _, inside, held, .enough rfl nth_ earliest less, here⟩
        · split at done_
          · cases done_
          · rename_i reached
            cases done_
            obtain ⟨u, e, bound, earliest, le⟩ := isPast_true reached
            exact ⟨date.day, Int.le_refl _, inside, held, .reached rfl bound earliest le, here⟩
          · split at done_
            · cases done_
            · rename_i fires dated
              obtain ⟨dates, rfl, own⟩ := firesOnLocalDate_eq dated
              have next : Holds (recordAfter after dates.fires found)
                  (c.Span tz after start (date.day + 1)) := by
                refine (holds_recordAfter own held after).congr fun t marker => ?_
                constructor
                · rintro (⟨behind, d, low', high, on⟩ | ⟨behind, on⟩)
                  · exact ⟨behind, d, low', by omega, on⟩
                  · exact ⟨behind, date, low, by omega, on⟩
                · rintro ⟨behind, d, low', high, on⟩
                  rcases Int.lt_or_eq_of_le (Int.lt_add_one_iff.mp high) with before_ | same
                  · exact .inl ⟨behind, d, low', before_, on⟩
                  · exact .inr ⟨behind, NaiveDate.day_inj.mp same ▸ on⟩
              split at done_
              · rename_i none_
                cases done_
                have last : date.day + 1 = maxDay + 1 := by
                  have := NaiveDate.succOpt_none none_ ⟨maxDay, by decide⟩
                  have := date.exists_
                  dsimp only at *
                  omega
                refine ⟨date.day + 1, by omega, by omega, next, .last last, fun d low' high => ?_⟩
                exact ⟨_, NaiveDate.day_inj.mp (show date.day = d.day by omega) ▸ dated⟩
              · rename_i behind succ
                have day := NaiveDate.ofDay_eq_some.mp succ
                obtain ⟨stop, low', high, held', stopped, visited⟩ :=
                  ih (day ▸ next) (by omega) (by omega) (by omega) done_
                refine ⟨stop, by omega, high, held', stopped, fun d from_ to_ => ?_⟩
                rcases Int.lt_or_eq_of_le from_ with later | same
                · exact visited d (by omega) to_
                · exact ⟨_, NaiveDate.day_inj.mp same ▸ dated⟩

theorem walkDates_isSome (steps : Nat) {found : Found} (room : minDay + 2 ≤ date.day)
    (dated : ∀ d : NaiveDate, date.day ≤ d.day → d.day ≤ horizon.day →
      (∀ u e, until_ = some u → earliestPossibleUtc d = some e → e < u) →
        ∃ fires, c.firesOnLocalDate tz d = some fires) :
    ∃ walk, c.walkDates tz after count until_ horizon steps date found = some walk := by
  induction steps generalizing date found with
  | zero => exact ⟨_, rfl⟩
  | succ steps ih =>
      obtain ⟨e, earliest⟩ := earliest_isSome room
      rw [walkDates]
      split
      · exact ⟨_, rfl⟩
      · rename_i near
        have enough : ∃ answer, holdsEnough found count date = some answer := by
          unfold holdsEnough
          split
          · exact ⟨_, rfl⟩
          · exact ⟨_, by rw [earliest]; rfl⟩
        have past : ∃ answer, isPast until_ date = some answer := by
          unfold isPast
          split
          · exact ⟨_, rfl⟩
          · exact ⟨_, by rw [earliest]; rfl⟩
        obtain ⟨answer, enough⟩ := enough
        obtain ⟨answer', past⟩ := past
        rw [enough, past]
        cases answer with
        | true => exact ⟨_, rfl⟩
        | false =>
            cases answer' with
            | true => exact ⟨_, rfl⟩
            | false =>
                have ahead : ∀ u e, until_ = some u → earliestPossibleUtc date = some e → e < u := by
                  rintro u e' rfl earliest'
                  unfold isPast at past
                  dsimp only at past
                  rw [earliest', Option.map_some, Option.some.injEq, decide_eq_false_iff_not] at past
                  exact not_le.mp past
                obtain ⟨fires, here⟩ := dated date (Int.le_refl _) (by omega) ahead
                rw [here]
                dsimp only
                split
                · exact ⟨_, rfl⟩
                · rename_i behind succ
                  have day := NaiveDate.ofDay_eq_some.mp succ
                  exact ih (by omega) fun d from_ to_ => dated d (by omega) to_

theorem walkDates_first {steps : Nat} {found : Found} {walk : Found × Bool}
    (inside : date.day ≤ horizon.day)
    (done_ : c.walkDates tz after count (some before) horizon (steps + 1) date found = some walk) :
    minDay + 2 ≤ date.day ∨ ∃ marker, found.toList[count - 1]? = some marker := by
  rw [walkDates, if_neg (by omega)] at done_
  cases held : found.toList[count - 1]? with
  | some marker => exact .inr ⟨marker, rfl⟩
  | none =>
      left
      have enough : holdsEnough found count date = some false := by rw [holdsEnough, held]
      rw [enough] at done_
      dsimp only at done_
      cases earliest : earliestPossibleUtc date with
      | none => simp [isPast, earliest] at done_
      | some e =>
          have := earliest_eq earliest
          have := e.total_near
          have := e.date.exists_
          omega

def Within (c : Cron) (tz : Tz) (horizon : NaiveDate) : Set Instant :=
  {t | ∃ d marker, d.day ≤ horizon.day ∧ c.OnDate tz d t marker}

/-- What a walk in a zone found, and what it leaves out. -/
structure WalkedDates (c : Cron) (tz : Tz) (horizon first : NaiveDate) (after before : Instant)
    (count : Nat) (walk : Walk) : Prop where
  begins : Begins {t | t ∈ c.Within tz horizon ∧ after < t} before count (instants walk.fires)
  past : walk.horizonReached = true → (instants walk.fires).length < count →
    ∀ t ∈ c.Within tz horizon, after < t → t ∈ instants walk.fires
  whole : walk.horizonReached = false →
    ((instants walk.fires).length < count ∨ ∃ t ∈ instants walk.fires, before ≤ t) →
    ∀ d t marker, c.OnDate tz d t marker → after < t → t < before → t ∈ c.Within tz horizon
  dated : ((instants walk.fires).length < count ∨ ∃ t ∈ instants walk.fires, before ≤ t) →
    ∀ d : NaiveDate, first.day ≤ d.day → d.day ≤ horizon.day →
      (∀ e, earliestPossibleUtc d = some e → e < before) →
        ∃ fires, c.firesOnLocalDate tz d = some fires

theorem Stopped.visited {found : Found} {stop : Int} {flag : Bool}
    (stopped : Stopped found count (some before) horizon stop flag) {d : NaiveDate}
    (on : c.OnDate tz d t marker) (early : t < before) (near : flag = true → d.day ≤ horizon.day)
    (ahead : ∀ nth marker, found.toList[count - 1]? = some (nth, marker) → t ≤ nth) :
    d.day < stop := by
  by_contra late
  have from_ : stop ≤ d.day := Int.not_lt.mp late
  cases stopped with
  | past here =>
      have := near rfl
      omega
  | enough here held earliest less =>
      have := earliest_lt earliest (by omega) on
      exact absurd (lt_trans less this) (not_lt_of_ge (ahead _ _ held))
  | reached here bound earliest le =>
      have := earliest_lt earliest (by omega) on
      cases bound
      exact absurd (lt_of_le_of_lt le this) (not_lt_of_ge (le_of_lt early))
  | last here =>
      have := d.exists_
      omega

theorem Stopped.dated {found : Found} {stop : Int} {flag : Bool}
    (stopped : Stopped found count (some before) horizon stop flag) {d : NaiveDate}
    (near : d.day ≤ horizon.day) (early : ∀ e, earliestPossibleUtc d = some e → e < before)
    (ahead : ∀ nth marker, found.toList[count - 1]? = some (nth, marker) → before ≤ nth) :
    d.day < stop := by
  by_contra late
  have from_ : stop ≤ d.day := Int.not_lt.mp late
  have later : ∀ {date : NaiveDate} {e : Instant}, date.day = stop →
      earliestPossibleUtc date = some e → e < before := by
    intro date e here earliest
    have at_ := earliest_eq earliest
    have := e.total_near
    have := e.date.exists_
    obtain ⟨e', earliest'⟩ := earliest_isSome (show minDay + 2 ≤ d.day by omega)
    have := earliest_eq earliest'
    exact lt_of_le_of_lt (Instant.le_of_whole at_.2 (by omega)) (early e' earliest')
  cases stopped with
  | past here => omega
  | enough here held earliest less =>
      exact absurd (lt_trans less (later here earliest)) (not_lt_of_ge (ahead _ _ held))
  | reached here bound earliest le =>
      cases bound
      exact absurd (later here earliest) (not_lt_of_ge le)
  | last here =>
      have := d.exists_
      omega

theorem firstDate_le {start first d : NaiveDate} (local_ : tz.localDate after = some start)
    (four : firstDate start = some first) (on : c.OnDate tz d t marker) (later : after < t) :
    first.day ≤ d.day := by
  have := Tz.localDate_near local_
  have := on.near
  have := after.total_near
  have := Instant.total_le (le_of_lt later)
  have := NaiveDate.ofDay_eq_some.mp four
  unfold edgeDays at this
  omega

theorem horizonDate_near (start : NaiveDate) : start.day ≤ (horizonDate start).day ∧
    (horizonDate start).day ≤ start.day + 3700 := by
  have := start.exists_
  unfold horizonDate
  cases ahead : NaiveDate.ofDay (start.day + walkDays) with
  | some d =>
      have := NaiveDate.ofDay_eq_some.mp ahead
      unfold walkDays at this
      dsimp only [Option.getD_some]
      omega
  | none =>
      unfold NaiveDate.ofDay walkDays at ahead
      split_ifs at ahead
      dsimp only [Option.getD_none]
      omega

theorem walkDates_walked {start first : NaiveDate} {found : Found} {flag : Bool} (some_ : 0 < count)
    (local_ : tz.localDate after = some start) (four : firstDate start = some first)
    (done_ : c.walkDates tz after count (some before) (horizonDate start) maxDateSteps first ∅ =
      some (found, flag)) :
    c.WalkedDates tz (horizonDate start) first after before count ⟨found.fires.take count, flag⟩ := by
  have near := horizonDate_near start
  have day := NaiveDate.ofDay_eq_some.mp four
  have none_ : Holds ∅ (c.Span tz after first.day first.day) := holds_empty.congr fun t marker => by
    refine ⟨False.elim, fun span => ?_⟩
    obtain ⟨_, d, _, _, _⟩ := span
    omega
  unfold edgeDays at day
  obtain ⟨stop, low, high, held, stopped, visited⟩ := walkDates_spec maxDateSteps none_
    (Int.le_refl _) (by omega) (by unfold maxDateSteps walkDays edgeDays; omega) done_
  have ascending : (instants found.fires).Pairwise (· < ·) := fires_ascending found
  have taken : instants (found.fires.take count) = (instants found.fires).take count :=
    List.map_take
  have member : ∀ t, t ∈ instants found.fires ↔ ∃ marker, c.Span tz after first.day stop t marker :=
    fun t => (by simpa [instants] using held.mem_fires)
  have dated : ∀ {t d marker}, c.OnDate tz d t marker → after < t → d.day < stop →
      t ∈ instants found.fires := fun on later before_ =>
    (member _).mpr ⟨_, later, _, firstDate_le local_ four on later, before_, on⟩
  have nth_ : ∀ nth marker, found.toList[count - 1]? = some (nth, marker) →
      (instants found.fires)[count - 1]? = some nth := by
    intro nth marker held'
    rw [instants, Found.fires, List.getElem?_map, List.getElem?_map, held']
    rfl
  have fewer : (instants (found.fires.take count)).length < count →
      ∀ nth marker, found.toList[count - 1]? ≠ some (nth, marker) := by
    intro short nth marker held'
    have := (List.getElem?_eq_some_iff.mp (nth_ nth marker held')).1
    rw [taken, List.length_take] at short
    omega
  have ahead : ∀ t, ((instants (found.fires.take count)).length < count ∨
      ∃ u ∈ instants (found.fires.take count), t ≤ u) →
      ∀ nth marker, found.toList[count - 1]? = some (nth, marker) → t ≤ nth := by
    rintro t (short | ⟨u, there, le⟩) nth marker held'
    · exact absurd held' (fewer short nth marker)
    · rw [taken] at there
      exact le_trans le (le_of_mem_take ascending (nth_ nth marker held') there)
  refine ⟨?_, ?_, ?_, ?_⟩
  · dsimp only
    rw [taken]
    refine begins_take ascending ?_ ?_ ?_
    · intro t there
      obtain ⟨marker, later, d, _, before_, on⟩ := (member t).mp there
      exact ⟨⟨d, marker, by omega, on⟩, later⟩
    · rintro t ⟨⟨d, marker, inside, on⟩, later⟩ early u there le
      rw [← taken] at there
      exact dated on later (stopped.visited on early (fun _ => inside)
        (ahead t (.inr ⟨u, there, le⟩)))
    · rintro short t ⟨⟨d, marker, inside, on⟩, later⟩ early
      refine dated on later (stopped.visited on early (fun _ => inside) (ahead t (.inl ?_)))
      rw [taken, List.length_take]
      omega
  · rintro flag_ short t ⟨d, marker, inside, on⟩ later
    dsimp only at flag_ short ⊢
    have whole : (instants found.fires).take count = instants found.fires := by
      refine List.take_of_length_le ?_
      rw [taken, List.length_take] at short
      omega
    rw [taken, whole]
    subst flag_
    cases stopped with
    | past here => exact dated on later (by omega)
  · rintro flag_ all d t marker on later early
    dsimp only at flag_ all
    refine ⟨d, marker, ?_, on⟩
    have := stopped.visited on early (fun past => Bool.noConfusion (flag_.symm.trans past))
      (ahead t (all.imp_right (Exists.imp fun _ both =>
        ⟨both.1, le_trans (le_of_lt early) both.2⟩)))
    omega
  · intro all d from_ inside early
    exact visited d from_ (stopped.dated inside early (ahead before all))

end

end Cron

end Logweir.Cadence
