import Logweir.Cadence.Enumerated
import Logweir.Cadence.Gaps

/-!
# Skipped slots

What `skipped_slots` says of the firings between two instants, and when a count without a flag is
all of them.
-/

set_option autoImplicit false

namespace Logweir.Cadence

open Logweir.Enumerations

namespace Cadence

/-- The instants that a cadence fires at. -/
def Fires (c : Cadence) (t : Instant) : Prop :=
  match c.zone with
  | .utc => c.cron.Fires t
  | .named tz => ∃ d marker, c.cron.OnDate tz d t marker

def Between (c : Cadence) (after before : Instant) : Set Instant :=
  {t | c.Fires t ∧ after < t ∧ t < before}

end Cadence

/-- Neither flag says that the count is only a floor. -/
def SkippedSlots.Total (r : SkippedSlots) : Prop := r.capped = false ∧ r.horizonReached = false

/-- A total is one, a cut at the cap is one, a count is a floor, and totals add up at a firing. -/
structure Cadence.Honest (c : Cadence) (after before : Instant) (cap : Nat) (r : SkippedSlots) :
    Prop where
  total : r.Total → (c.Between after before).encard = r.count
  capped : r.capped = true → r.count = cap ∧ (cap : ℕ∞) < (c.Between after before).encard
  floor : (r.count : ℕ∞) ≤ (c.Between after before).encard
  adds : r.Total → ∀ middle ∈ c.Between after before, ∀ r₁ r₂,
    c.skippedSlots after middle cap = some r₁ → c.skippedSlots middle before cap = some r₂ →
      r₁.Total → r₂.Total → r.count = r₁.count + 1 + r₂.count

/-- In UTC: some instant up to which at most the cap has fired gives up, and a firing that is behind
it is before the end. -/
def Cron.Overlooks (c : Cron) (after before : Instant) (cap : Nat) : Prop :=
  ∃ s, (s = after ∨ c.Fires s ∧ after < s ∧ s.date.day ≤ (horizonDate after.date).day) ∧
    c.GivesUp s ∧ {t | c.Fires t ∧ after < t ∧ t ≤ s}.encard ≤ cap ∧
      ∃ t, c.Fires t ∧ s < t ∧ t < before

def Cron.Visible (c : Cron) (tz : Tz) (after : Instant) : Set Instant :=
  {t | ∃ start, tz.localDate after = some start ∧ t ∈ c.Within tz (horizonDate start) ∧ after < t}

/-- In a zone: a date behind the horizon fires before the end, while a date up to it fires behind the
end, and those before the end are at most the cap. -/
def Cron.Misses (c : Cron) (tz : Tz) (after before : Instant) (cap : Nat) : Prop :=
  {t | t ∈ c.Visible tz after ∧ t < before}.encard ≤ cap ∧ (∃ t ∈ c.Visible tz after, before ≤ t) ∧
    ∃ d t marker, c.OnDate tz d t marker ∧ after < t ∧ t < before ∧ t ∉ c.Visible tz after

/-- The walk from an instant starts at a date four days on from the second of the calendar. -/
def Tz.Starts (tz : Tz) (after : Instant) : Prop :=
  ∃ start, tz.localDate after = some start ∧ minDay + 6 ≤ start.day

/-- An instant whose local date is before the local date of an earlier one. -/
def Tz.Returns (tz : Tz) (after middle : Instant) : Prop :=
  ∃ start start', tz.localDate after = some start ∧ tz.localDate middle = some start' ∧
    start'.day < start.day

/-- Where no firing is left out without a flag. -/
def Cadence.Candid (c : Cadence) (after before : Instant) (cap : Nat) : Prop :=
  match c.zone with
  | .utc => ¬ c.cron.Overlooks after before cap
  | .named tz => ¬ c.cron.Misses tz after before cap ∧
      ∀ middle ∈ c.Between after before, tz.Returns after middle → tz.Starts middle →
        {t | t ∈ c.cron.Visible tz after ∧ t < before}.encard ≤ cap →
          ¬ c.cron.Misses tz middle before cap

namespace Cadence

variable {c : Cadence} {after before : Instant} {cap : Nat} {r : SkippedSlots}

def Visible (c : Cadence) (after : Instant) : Set Instant :=
  match c.zone with
  | .utc => c.cron.Reached (horizonDate after.date) after
  | .named tz => c.cron.Visible tz after

def Hides (c : Cadence) (after before : Instant) (cap : Nat) : Prop :=
  match c.zone with
  | .utc => c.cron.Overlooks after before cap
  | .named tz => c.cron.Misses tz after before cap

theorem fires_of_visible {t : Instant} (visible : t ∈ c.Visible after) : c.Fires t ∧ after < t := by
  obtain ⟨cron, zone⟩ := c
  cases zone with
  | utc => exact ⟨visible.1, visible.2.1⟩
  | named tz =>
      obtain ⟨start, _, ⟨d, marker, _, on⟩, later⟩ := visible
      exact ⟨⟨d, marker, on⟩, later⟩

theorem whole_of_fires {t : Instant} (fires : c.Fires t) : t.nanos = 0 := by
  obtain ⟨cron, zone⟩ := c
  cases zone with
  | utc => exact fires.1.2
  | named tz =>
      obtain ⟨d, marker, on⟩ := fires
      exact on.near.1

theorem visible_few (c : Cadence) (after : Instant) : (c.Visible after).encard < usizeMax :=
  encard_whole_lt fun _ visible => whole_of_fires (fires_of_visible visible).1

theorem count_ne_zero (cap : Nat) : min (cap + 1) usizeMax ≠ 0 := by
  unfold usizeMax
  omega

theorem skippedSlots_utc {cron : Cron}
    (returned : (⟨cron, .utc⟩ : Cadence).skippedSlots after before cap = some r) :
    ∃ walk, cron.WalkedUtc (horizonDate after.date) before (min (cap + 1) usizeMax) after walk ∧
      r = tally before cap walk.horizonReached walk.fires 0 := by
  unfold skippedSlots firesAfterBounded at returned
  rw [if_neg (count_ne_zero cap)] at returned
  exact ⟨_, cron.walkUtc_spec _ _ _ after, (Option.some.inj returned).symm⟩

theorem skippedSlots_named {cron : Cron} {tz : Tz}
    (returned : (⟨cron, .named tz⟩ : Cadence).skippedSlots after before cap = some r) :
    ∃ start first walk, tz.localDate after = some start ∧ firstDate start = some first ∧
      minDay + 2 ≤ first.day ∧
      cron.WalkedDates tz (horizonDate start) first after before (min (cap + 1) usizeMax) walk ∧
      r = tally before cap walk.horizonReached walk.fires 0 := by
  have some_ := count_ne_zero cap
  unfold skippedSlots firesAfterBounded at returned
  rw [if_neg some_] at returned
  dsimp only at returned
  split at returned
  · cases returned
  · rename_i walk bounded
    split at bounded
    · cases bounded
    · rename_i start local_
      split at bounded
      · cases bounded
      · rename_i first four
        obtain ⟨⟨found, flag⟩, walked, rfl⟩ := Option.map_eq_some_iff.mp bounded
        have day := NaiveDate.ofDay_eq_some.mp four
        have near := Cron.horizonDate_near start
        unfold edgeDays at day
        have room : minDay + 2 ≤ first.day := by
          rcases Cron.walkDates_first (by omega) walked with room | ⟨marker, held⟩
          · exact room
          · simp at held
        exact ⟨start, first, _, local_, four, room,
          Cron.walkDates_walked (Nat.pos_of_ne_zero some_) local_ four walked,
          (Option.some.inj returned).symm⟩

theorem skippedSlots_isSome {cron : Cron} {tz : Tz} {start first : NaiveDate}
    (local_ : tz.localDate after = some start) (four : firstDate start = some first)
    (room : minDay + 2 ≤ first.day)
    (dated : ∀ d : NaiveDate, first.day ≤ d.day → d.day ≤ (horizonDate start).day →
      (∀ e, earliestPossibleUtc d = some e → e < before) →
        ∃ fires, cron.firesOnLocalDate tz d = some fires) :
    ∃ r, (⟨cron, .named tz⟩ : Cadence).skippedSlots after before cap = some r := by
  have walked : ∃ walk, cron.walkDates tz after (min (cap + 1) usizeMax) (some before)
      (horizonDate start) maxDateSteps first ∅ = some walk := by
    refine Cron.walkDates_isSome _ room fun d from_ inside early => dated d from_ inside fun e at_ =>
      early before e rfl at_
  obtain ⟨walk, walked⟩ := walked
  unfold skippedSlots firesAfterBounded
  rw [if_neg (count_ne_zero cap)]
  dsimp only
  rw [local_]
  dsimp only
  rw [four]
  dsimp only
  rw [walked]
  exact ⟨_, rfl⟩

theorem visible_named {cron : Cron} {tz : Tz} {start : NaiveDate}
    (local_ : tz.localDate after = some start) : (⟨cron, .named tz⟩ : Cadence).Visible after =
      {t | t ∈ cron.Within tz (horizonDate start) ∧ after < t} := by
  ext t
  constructor
  · rintro ⟨start', local', visible⟩
    rw [local_, Option.some.injEq] at local'
    exact local' ▸ visible
  · exact fun visible => ⟨start, local_, visible⟩

theorem counts (returned : c.skippedSlots after before cap = some r) :
    Counts (c.Visible after) before cap r := by
  have few := visible_few c after
  obtain ⟨cron, zone⟩ := c
  cases zone with
  | utc =>
      obtain ⟨walk, walked, rfl⟩ := skippedSlots_utc returned
      exact counts_tally walked.begins few
  | named tz =>
      obtain ⟨start, first, walk, local_, _, _, walked, rfl⟩ := skippedSlots_named returned
      rw [visible_named local_] at few ⊢
      exact counts_tally walked.begins few

theorem whole_of_counts {S : Set Instant} {walk : Walk}
    (begins : Begins S before (min (cap + 1) usizeMax) (instants walk.fires))
    (few : S.encard < usizeMax) (within : {t | t ∈ S ∧ t < before}.encard ≤ cap) :
    (instants walk.fires).length < min (cap + 1) usizeMax ∨ ∃ t ∈ instants walk.fires, before ≤ t :=
  whole_of_few begins few (by exact_mod_cast le_trans begins.countBelow_le_encard within)

theorem hides_utc {cron : Cron}
    (returned : (⟨cron, .utc⟩ : Cadence).skippedSlots after before cap = some r) :
    cron.Overlooks after before cap ↔ r.Total ∧
      ∃ t ∈ (⟨cron, .utc⟩ : Cadence).Between after before,
        t ∉ cron.Reached (horizonDate after.date) after := by
  have answer : Counts (cron.Reached (horizonDate after.date) after) before cap r := counts returned
  have few : (cron.Reached (horizonDate after.date) after).encard < usizeMax :=
    visible_few ⟨cron, .utc⟩ after
  obtain ⟨walk, walked, made⟩ := skippedSlots_utc returned
  have horizon := horizonReached_tally walk.horizonReached walked.begins
  rw [← made] at horizon
  constructor
  · rintro ⟨s, from_, gap, within, t, fires, behind, early⟩
    have stop : ∀ u ∈ cron.Reached (horizonDate after.date) after, u ≤ s := by
      intro u reached
      by_contra later
      exact reached.2.2.2 s (from_.imp_right fun start => ⟨start.1, start.2.1⟩) (not_le.mp later) gap
    have below : {u | u ∈ cron.Reached (horizonDate after.date) after ∧ u < before}.encard ≤ cap := by
      refine le_trans (Set.encard_le_encard ?_) within
      rintro u ⟨reached, _⟩
      exact ⟨reached.1, reached.2.1, stop u reached⟩
    have uncapped : r.capped = false := by
      rw [← Bool.not_eq_true, answer.capped_iff]
      exact not_lt_of_ge below
    have later : after < t := by
      rcases from_ with rfl | ⟨_, later, _⟩
      · exact behind
      · exact lt_trans later behind
    refine ⟨⟨uncapped, ?_⟩, t, ⟨fires, later, early⟩, fun reached =>
      not_lt_of_ge (stop t reached) behind⟩
    -- A walk that the horizon ended goes on from every instant before.
    rw [← Bool.not_eq_true, horizon uncapped]
    rintro ⟨past, _⟩
    obtain ⟨last, reached, goes, beyond⟩ := walked.past past
    rcases reached with rfl | reached
    · rcases from_ with rfl | ⟨fires', later', near⟩
      · exact goes gap
      · exact absurd (beyond s fires' later') (Int.not_lt.mpr near)
    · rcases lt_trichotomy s last with sooner | rfl | behind'
      · exact reached.2.2.2 s (from_.imp_right fun start => ⟨start.1, start.2.1⟩) sooner gap
      · exact goes gap
      · rcases from_ with rfl | ⟨fires', _, near⟩
        · exact lt_asymm behind' reached.2.1
        · exact absurd (beyond s fires' behind') (Int.not_lt.mpr near)
  · rintro ⟨⟨uncapped, unflagged⟩, t, ⟨fires, later, early⟩, unreached⟩
    have below : {u | u ∈ cron.Reached (horizonDate after.date) after ∧ u < before}.encard ≤ cap := by
      rw [← not_lt, ← answer.capped_iff, uncapped]
      exact Bool.false_ne_true
    have none_ : ∀ fire ∈ walk.fires, fire.instant < before := by
      intro fire member
      by_contra past
      have reached := walked.begins.sound fire.instant (List.mem_map_of_mem member)
      exact unreached (Cron.reached_of_le reached fires later
        (le_trans (le_of_lt early) (not_lt.mp past)))
    have open_ : walk.horizonReached = false := by
      rw [← Bool.not_eq_true]
      intro past
      rw [(horizon uncapped).mpr ⟨past, none_⟩] at unflagged
      exact Bool.noConfusion unflagged
    have short : (instants walk.fires).length < min (cap + 1) usizeMax := by
      rcases whole_of_counts walked.begins few below with short | past
      · exact short
      · obtain ⟨fire, member, past⟩ := exists_instant.mp past
        exact absurd (none_ fire member) (not_lt_of_ge past)
    obtain ⟨last, reached, gap⟩ := walked.givesUp open_ short none_
    have before_ : last < t := by
      by_contra after_
      rcases reached with rfl | reached
      · exact after_ later
      · exact unreached (Cron.reached_of_le reached fires later (not_lt.mp after_))
    refine ⟨last, reached.imp_right fun is => ⟨is.1, is.2.1, is.2.2.1⟩, gap, ?_, t, fires, before_,
      early⟩
    refine le_trans (Set.encard_le_encard fun u ⟨fires', later', le⟩ => ?_) below
    rcases reached with rfl | reached
    · exact absurd later' (not_lt_of_ge le)
    · exact ⟨Cron.reached_of_le reached fires' later' le,
        lt_of_le_of_lt le (lt_trans before_ early)⟩

theorem total_of_past {cron : Cron} {tz : Tz}
    (returned : (⟨cron, .named tz⟩ : Cadence).skippedSlots after before cap = some r)
    (below : {t | t ∈ cron.Visible tz after ∧ t < before}.encard ≤ cap)
    (past : ∃ t ∈ cron.Visible tz after, before ≤ t) : r.Total := by
  obtain ⟨start, first, walk, local_, _, _, walked, made⟩ := skippedSlots_named returned
  have same : cron.Visible tz after = {t | t ∈ cron.Within tz (horizonDate start) ∧ after < t} :=
    visible_named local_
  have answer : Counts (cron.Visible tz after) before cap r := counts returned
  have few : (cron.Visible tz after).encard < usizeMax := visible_few ⟨cron, .named tz⟩ after
  have horizon := horizonReached_tally walk.horizonReached walked.begins
  rw [← made] at horizon
  have uncapped : r.capped = false := by
    rw [← Bool.not_eq_true, answer.capped_iff]
    exact not_lt_of_ge below
  rw [same] at below few past
  obtain ⟨w, ⟨inside, behind⟩, past⟩ := past
  refine ⟨uncapped, ?_⟩
  rw [← Bool.not_eq_true, horizon uncapped]
  rintro ⟨flagged, none_⟩
  rcases whole_of_counts walked.begins few below with short | late
  · obtain ⟨fire, member, rfl⟩ := List.mem_map.mp (walked.past flagged short w inside behind)
    exact absurd (none_ fire member) (not_lt_of_ge past)
  · obtain ⟨fire, member, late⟩ := exists_instant.mp late
    exact absurd (none_ fire member) (not_lt_of_ge late)

theorem hides_named {cron : Cron} {tz : Tz}
    (returned : (⟨cron, .named tz⟩ : Cadence).skippedSlots after before cap = some r) :
    cron.Misses tz after before cap ↔ r.Total ∧
      ∃ t ∈ (⟨cron, .named tz⟩ : Cadence).Between after before, t ∉ cron.Visible tz after := by
  obtain ⟨start, first, walk, local_, _, _, walked, made⟩ := skippedSlots_named returned
  have same : cron.Visible tz after = {t | t ∈ cron.Within tz (horizonDate start) ∧ after < t} :=
    visible_named local_
  have answer : Counts (cron.Visible tz after) before cap r := counts returned
  have few : (cron.Visible tz after).encard < usizeMax := visible_few ⟨cron, .named tz⟩ after
  have horizon := horizonReached_tally walk.horizonReached walked.begins
  rw [← made] at horizon
  unfold Cron.Misses
  rw [same] at answer few ⊢
  constructor
  · rintro ⟨below, past, d, t, marker, on, later, early, hidden⟩
    rw [← same] at below past hidden
    exact ⟨total_of_past returned below past, t, ⟨⟨d, marker, on⟩, later, early⟩, same ▸ hidden⟩
  · rintro ⟨⟨uncapped, unflagged⟩, t, ⟨⟨d, marker, on⟩, later, early⟩, hidden⟩
    have below : {u | u ∈ {t | t ∈ cron.Within tz (horizonDate start) ∧ after < t} ∧
        u < before}.encard ≤ cap := by
      rw [← not_lt, ← answer.capped_iff, uncapped]
      exact Bool.false_ne_true
    have all := whole_of_counts walked.begins few below
    have flagged : walk.horizonReached = true := by
      rw [← Bool.not_eq_false]
      exact fun flag => hidden ⟨walked.whole flag all d t marker on later early, later⟩
    have some_ : ∃ fire ∈ walk.fires, before ≤ fire.instant := by
      by_contra none_
      refine Bool.false_ne_true (unflagged.symm.trans ((horizon uncapped).mpr ⟨flagged, ?_⟩))
      exact fun fire member => not_le.mp fun past => none_ ⟨fire, member, past⟩
    obtain ⟨fire, member, past⟩ := some_
    exact ⟨below, ⟨fire.instant, walked.begins.sound _ (List.mem_map_of_mem member), past⟩, d, t,
      marker, on, later, early, hidden⟩

theorem hides_iff (returned : c.skippedSlots after before cap = some r) :
    c.Hides after before cap ↔ r.Total ∧ ∃ t ∈ c.Between after before, t ∉ c.Visible after := by
  obtain ⟨cron, zone⟩ := c
  cases zone with
  | utc => exact hides_utc returned
  | named tz => exact hides_named returned

theorem total_encard (returned : c.skippedSlots after before cap = some r) (total : r.Total) :
    (c.Between after before).encard = r.count ↔
      ∀ t ∈ c.Between after before, t ∈ c.Visible after := by
  have answer := (counts returned).count_of_uncapped total.1
  have sub : {t | t ∈ c.Visible after ∧ t < before} ⊆ c.Between after before := by
    rintro t ⟨visible, early⟩
    exact ⟨(fires_of_visible visible).1, (fires_of_visible visible).2, early⟩
  constructor
  · intro same t between
    have finite : {t | t ∈ c.Visible after ∧ t < before}.Finite :=
      Set.finite_of_encard_eq_coe answer
    have all := finite.eq_of_subset_of_encard_le sub (by rw [same, answer])
    rw [← all] at between
    exact between.1
  · intro all
    rw [← answer]
    exact congrArg Set.encard (Set.Subset.antisymm (fun t between => ⟨all t between, between.2.2⟩) sub)

theorem encard_of_not_hides (returned : c.skippedSlots after before cap = some r) (total : r.Total)
    (shown : ¬ c.Hides after before cap) : (c.Between after before).encard = r.count := by
  rw [total_encard returned total]
  by_contra hidden
  rw [not_forall] at hidden
  obtain ⟨t, hidden⟩ := hidden
  rw [Classical.not_imp] at hidden
  exact shown ((hides_iff returned).mpr ⟨total, t, hidden⟩)

theorem between_encard {middle : Instant} (between : middle ∈ c.Between after before) :
    (c.Between after before).encard =
      (c.Between after middle).encard + 1 + (c.Between middle before).encard := by
  obtain ⟨fires, later, early⟩ := between
  have parts : c.Between after before =
      insert middle (c.Between after middle) ∪ c.Between middle before := by
    ext t
    constructor
    · rintro ⟨fires', later', early'⟩
      rcases lt_trichotomy t middle with before_ | rfl | behind
      · exact .inl (.inr ⟨fires', later', before_⟩)
      · exact .inl (.inl rfl)
      · exact .inr ⟨fires', behind, early'⟩
    · rintro ((rfl | ⟨fires', later', early'⟩) | ⟨fires', later', early'⟩)
      · exact ⟨fires, later, early⟩
      · exact ⟨fires', later', lt_trans early' early⟩
      · exact ⟨fires', lt_trans later later', early'⟩
  have apart : Disjoint (insert middle (c.Between after middle)) (c.Between middle before) := by
    rw [Set.disjoint_left]
    rintro t (rfl | ⟨_, _, early'⟩) ⟨_, later', _⟩
    · exact lt_irrefl t later'
    · exact lt_asymm early' later'
  have new : middle ∉ c.Between after middle := by
    rintro ⟨_, _, itself⟩
    exact lt_irrefl middle itself
  rw [parts, Set.encard_union_eq apart, Set.encard_insert_of_notMem new]

variable {middle : Instant} {r₁ r₂ : SkippedSlots}

theorem not_hides_before (returned : c.skippedSlots after before cap = some r) (total : r.Total)
    (shown : ¬ c.Hides after before cap) (between : middle ∈ c.Between after before)
    (returned₁ : c.skippedSlots after middle cap = some r₁) : ¬ c.Hides after middle cap := by
  intro hides
  obtain ⟨_, t, ⟨fires, later, early⟩, hidden⟩ := (hides_iff returned₁).mp hides
  exact shown ((hides_iff returned).mpr
    ⟨total, t, ⟨fires, later, lt_trans early between.2.2⟩, hidden⟩)

theorem horizonDate_mono {start start' : NaiveDate} (le : start.day ≤ start'.day) :
    (horizonDate start).day ≤ (horizonDate start').day := by
  have := start.exists_
  have := start'.exists_
  unfold horizonDate NaiveDate.ofDay walkDays
  split_ifs
  all_goals
    simp only [Option.getD_some, Option.getD_none]
    omega

theorem not_hides_behind (returned : c.skippedSlots after before cap = some r) (total : r.Total)
    (candid : c.Candid after before cap) (exact_ : (c.Between after before).encard = r.count)
    (between : middle ∈ c.Between after before)
    (returned₂ : c.skippedSlots middle before cap = some r₂) : ¬ c.Hides middle before cap := by
  intro hides
  obtain ⟨_, t, ⟨fires, later, early⟩, hidden⟩ := (hides_iff returned₂).mp hides
  have visible := (total_encard returned total).mp exact_ t
    ⟨fires, lt_trans between.2.1 later, early⟩
  have answer := counts returned
  obtain ⟨cron, zone⟩ := c
  cases zone with
  | utc =>
      obtain ⟨_, _, near, steps⟩ := visible
      have mono := horizonDate_mono (Cron.date_le (le_of_lt between.2.1))
      refine hidden ⟨fires, later, by omega, ?_⟩
      rintro u (rfl | ⟨fires', later'⟩) before_
      · exact steps u (.inr ⟨between.1, between.2.1⟩) before_
      · exact steps u (.inr ⟨fires', lt_trans between.2.1 later'⟩) before_
  | named tz =>
      obtain ⟨start, local_, ⟨d, marker, near, on⟩, _⟩ := visible
      obtain ⟨start', first, _, local', four, room, _, _⟩ := skippedSlots_named returned₂
      have day := NaiveDate.ofDay_eq_some.mp four
      unfold edgeDays at day
      have earlier : start'.day < start.day := by
        by_contra not_
        have := horizonDate_mono (Int.not_lt.mp not_)
        exact hidden ⟨start', local', ⟨d, marker, by omega, on⟩, later⟩
      refine candid.2 middle between ⟨start, start', local_, local', earlier⟩
        ⟨start', local', by omega⟩ ?_ hides
      have below := mt answer.capped_iff.mpr (by rw [total.1]; exact Bool.false_ne_true)
      exact not_lt.mp below

theorem not_misses_behind {cron : Cron} {tz : Tz}
    (returned : (⟨cron, .named tz⟩ : Cadence).skippedSlots after before cap = some r)
    (honest : (⟨cron, .named tz⟩ : Cadence).Honest after before cap r)
    (shown : ¬ cron.Misses tz after before cap)
    (between : middle ∈ (⟨cron, .named tz⟩ : Cadence).Between after before)
    (returns : tz.Returns after middle) (starts : tz.Starts middle)
    (below : {t | t ∈ cron.Visible tz after ∧ t < before}.encard ≤ cap) :
    ¬ cron.Misses tz middle before cap := by
  intro misses
  obtain ⟨start, start', local_, local', earlier⟩ := returns
  obtain ⟨_, again, room'⟩ := starts
  obtain rfl := Option.some.inj (local'.symm.trans again)
  have mono := horizonDate_mono (Int.le_of_lt earlier)
  have past : ∃ t ∈ cron.Visible tz after, before ≤ t := by
    obtain ⟨w, ⟨_, again, ⟨d, marker, near, on⟩, later⟩, past⟩ := misses.2.1
    obtain rfl := Option.some.inj (local'.symm.trans again)
    exact ⟨w, ⟨start, local_, ⟨d, marker, by omega, on⟩, lt_trans between.2.1 later⟩, past⟩
  have total := total_of_past returned below past
  -- Both halves have an answer: the dates that their walks visit do not leave the calendar.
  obtain ⟨start₀, first, walk, again, four, room, walked, _⟩ := skippedSlots_named returned
  obtain rfl := Option.some.inj (local_.symm.trans again)
  have same : cron.Visible tz after = {t | t ∈ cron.Within tz (horizonDate start) ∧ after < t} :=
    visible_named local_
  have few : (cron.Visible tz after).encard < usizeMax := visible_few ⟨cron, .named tz⟩ after
  have all := whole_of_counts walked.begins (same ▸ few) (same ▸ below)
  have answer₁ : ∃ r₁, (⟨cron, .named tz⟩ : Cadence).skippedSlots after middle cap = some r₁ :=
    skippedSlots_isSome local_ four room fun d from_ inside early => walked.dated all d from_ inside
      fun e earliest => lt_trans (early e earliest) between.2.2
  have day := NaiveDate.ofDay_eq_some.mp four
  unfold edgeDays at day
  have four' : ∃ first', firstDate start' = some first' := by
    have := start'.exists_
    unfold firstDate NaiveDate.ofDay edgeDays
    rw [dif_pos (by omega)]
    exact ⟨_, rfl⟩
  obtain ⟨first', four'⟩ := four'
  have day' := NaiveDate.ofDay_eq_some.mp four'
  unfold edgeDays at day'
  have answer₂ : ∃ r₂, (⟨cron, .named tz⟩ : Cadence).skippedSlots middle before cap = some r₂ := by
    refine skippedSlots_isSome local' four' (by omega) fun d from_ inside early => ?_
    rcases Int.lt_or_le d.day first.day with sooner | later
    · have := start.exists_
      exact cron.firesOnLocalDate_isSome tz (by omega)
    · exact walked.dated all d later (by omega) early
  obtain ⟨r₁, returned₁⟩ := answer₁
  obtain ⟨r₂, returned₂⟩ := answer₂
  -- The first half is a total, for it ends at a firing that the whole reaches.
  have whole := encard_of_not_hides returned total shown
  have reached : middle ∈ cron.Visible tz after :=
    (total_encard returned total).mp whole middle between
  have total₁ : r₁.Total := by
    refine total_of_past returned₁ (le_trans (Set.encard_le_encard ?_) below)
      ⟨middle, reached, le_refl middle⟩
    rintro t ⟨visible, early⟩
    exact ⟨visible, lt_trans early between.2.2⟩
  have first_ := encard_of_not_hides returned₁ total₁
    (not_hides_before returned total shown between returned₁)
  obtain ⟨total₂, t, between₂, hidden⟩ := (hides_named returned₂).mp misses
  refine hidden ((total_encard returned₂ total₂).mp ?_ t between₂)
  have sum := honest.adds total middle between r₁ r₂ returned₁ returned₂ total₁ total₂
  have parts := between_encard between
  rw [whole, first_, sum] at parts
  rw [Nat.cast_add, Nat.cast_add, Nat.cast_one] at parts
  have known : (r₁.count : ℕ∞) + 1 ≠ ⊤ := by
    rw [← Nat.cast_one, ← Nat.cast_add]
    exact ENat.coe_ne_top _
  exact ((ENat.add_right_injective_of_ne_top known) parts).symm

end Cadence

variable {c : Cadence} {after before : Instant} {cap : Nat} {r : SkippedSlots}

/-- A count without a flag is the number of firings, and such counts add up, exactly where no firing
that the walk cannot reach is before the end of a total. -/
theorem skippedSlots_honest_iff (c : Cadence) (after before : Instant) (cap : Nat)
    (r : SkippedSlots) (returned : c.skippedSlots after before cap = some r) :
    c.Honest after before cap r ↔ c.Candid after before cap := by
  have answer := Cadence.counts returned
  have sub : {t | t ∈ c.Visible after ∧ t < before} ⊆ c.Between after before := by
    rintro t ⟨visible, early⟩
    exact ⟨(Cadence.fires_of_visible visible).1, (Cadence.fires_of_visible visible).2, early⟩
  have shown_of_candid : c.Candid after before cap → ¬ c.Hides after before cap := by
    obtain ⟨cron, zone⟩ := c
    cases zone with
    | utc => exact id
    | named tz => exact And.left
  constructor
  · intro honest
    have shown : ¬ c.Hides after before cap := by
      intro hides
      obtain ⟨total, t, between, hidden⟩ := (Cadence.hides_iff returned).mp hides
      exact hidden ((Cadence.total_encard returned total).mp (honest.total total) t between)
    obtain ⟨cron, zone⟩ := c
    cases zone with
    | utc => exact shown
    | named tz =>
        exact ⟨shown, fun middle between returns starts below =>
          Cadence.not_misses_behind returned honest shown between returns starts below⟩
  · intro candid
    have shown := shown_of_candid candid
    refine ⟨fun total => Cadence.encard_of_not_hides returned total shown, fun capped => ?_, ?_, ?_⟩
    · exact ⟨answer.count_of_capped capped,
        lt_of_lt_of_le (answer.capped_iff.mp capped) (Set.encard_le_encard sub)⟩
    · refine le_trans ?_ (Set.encard_le_encard sub)
      cases capped : r.capped with
      | true =>
          rw [answer.count_of_capped capped]
          exact le_of_lt (answer.capped_iff.mp capped)
      | false => exact le_of_eq (answer.count_of_uncapped capped).symm
    · intro total middle between r₁ r₂ returned₁ returned₂ total₁ total₂
      have whole := Cadence.encard_of_not_hides returned total shown
      have first := Cadence.encard_of_not_hides returned₁ total₁
        (Cadence.not_hides_before returned total shown between returned₁)
      have second := Cadence.encard_of_not_hides returned₂ total₂
        (Cadence.not_hides_behind returned total candid whole between returned₂)
      have parts := Cadence.between_encard between
      rw [whole, first, second] at parts
      exact_mod_cast parts

def hourly : Cadence where
  cron := { minute := 1, hour := 2 ^ 24 - 1, dayOfMonth := 2 ^ 32 - 2, month := 2 ^ 13 - 2,
            dayOfWeek := 127, domRestricted := false, dowRestricted := false }
  zone := .utc

theorem hourly_honest_iff :
    hourly.skippedSlots leapSunday (instantOf 22704 180 (by decide) (by decide)) 10 =
      some ⟨2, false, false⟩ ∧
    (hourly.Honest leapSunday (instantOf 22704 180 (by decide) (by decide)) 10 ⟨2, false, false⟩ ↔
      hourly.Candid leapSunday (instantOf 22704 180 (by decide) (by decide)) 10) := by
  have returned : hourly.skippedSlots leapSunday
      (instantOf 22704 180 (by decide) (by decide)) 10 = some ⟨2, false, false⟩ := by
    decide +kernel
  exact ⟨returned, skippedSlots_honest_iff _ _ _ _ _ returned⟩

theorem nextLeapDay : minDay ≤ 32931 ∧ (32931 : Int) ≤ maxDay := by decide

def nextLeapSunday : Instant := instantOf 32931 0 nextLeapDay (Nat.zero_lt_succ _)
def afterLeapSunday : Instant := instantOf 32931 1 nextLeapDay (Nat.succ_lt_succ (Nat.zero_lt_succ _))

/-- Of the days that are 29 February and a Sunday, the one of 2060 is skipped and is not counted. -/
theorem skippedSlots_floor_as_total :
    ¬ ∀ (c : Cadence) (after before : Instant) (cap : Nat) (r : SkippedSlots), after < before →
      c.skippedSlots after before cap = some r → c.Honest after before cap r := by
  intro honest
  have returned : (⟨leapSundays.cron, .utc⟩ : Cadence).skippedSlots leapSunday afterLeapSunday 1000 =
      some ⟨0, false, false⟩ := by
    decide +kernel
  have total := (honest _ _ _ _ _ (by decide +kernel) returned).total ⟨rfl, rfl⟩
  have none_ := Set.encard_eq_zero.mp total
  refine Set.eq_empty_iff_forall_notMem.mp none_ nextLeapSunday ⟨?_, ?_, ?_⟩
  · exact ⟨instantOf_onMinute, by decide +kernel, by decide +kernel⟩
  · decide +kernel
  · decide +kernel

end Logweir.Cadence
