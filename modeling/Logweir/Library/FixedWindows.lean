import Mathlib.Algebra.Order.Group.Nat
import Mathlib.Data.List.Basic
import Mathlib.Tactic.SplitIfs

/-!
# Counting in fixed windows

A counter that charges instants to a window of a fixed length, and opens a new one when the last is
over.  A budget for each window bounds what any stretch of one length holds by two budgets.
-/

set_option autoImplicit false

namespace Logweir.FixedWindows

structure Window where
  started : Nat
  count : Nat
  deriving DecidableEq

namespace Window

def fresh (now : Nat) : Window := ⟨now, 0⟩

def live (w : Window) (now length : Nat) : Bool := now - w.started < length

end Window

def charge (length : Nat) (window : Option Window) (now : Nat) : Window :=
  match window.filter fun w => w.live now length with
  | some w => { w with count := w.count + 1 }
  | none => ⟨now, 1⟩

/-- The window that charges lead to, the newest of them first. -/
def window (length : Nat) : List Nat → Option Window
  | [] => none
  | now :: earlier => some (charge length (window length earlier) now)

def Spent (length budget : Nat) (window : Option Window) (now : Nat) : Prop :=
  ∃ w, window = some w ∧ w.live now length = true ∧ budget ≤ w.count

/-- Charges in time, none of them to a window without budget, the newest first. -/
def Admitted (length budget : Nat) : List Nat → Prop
  | [] => True
  | now :: earlier =>
      Admitted length budget earlier ∧ (∀ t ∈ earlier, t ≤ now) ∧
        ¬Spent length budget (window length earlier) now

def Opens (length : Nat) (earlier : List Nat) (now : Nat) : Prop :=
  ∀ w, window length earlier = some w → w.live now length = false

theorem live_of_le {w : Window} {now later length : Nat} (le : now ≤ later)
    (live : w.live later length = true) : w.live now length = true := by
  simp only [Window.live, decide_eq_true_eq] at live ⊢
  omega

/-- The window kept where it is live at one instant serves every later one. -/
theorem filter_live_of_le {window : Option Window} {now later length : Nat} (le : now ≤ later) :
    (window.filter fun w => w.live now length).filter (fun w => w.live later length) =
      window.filter fun w => w.live later length := by
  cases window with
  | none => rfl
  | some w =>
      rw [Option.filter_filter]
      refine congrArg (Option.filter · (some w)) (funext fun w' => ?_)
      cases later' : w'.live later length with
      | false => rw [Bool.and_false]
      | true => rw [live_of_le le later', Bool.and_self]

theorem charge_congr {length now : Nat} {window window' : Option Window}
    (same : (window.filter fun w => w.live now length) =
      window'.filter fun w => w.live now length) :
    charge length window now = charge length window' now := by
  rw [charge, charge, same]

theorem charge_opens {length : Nat} {earlier : List Nat} {now : Nat}
    (opens : Opens length earlier now) : charge length (window length earlier) now = ⟨now, 1⟩ := by
  have ended : ((window length earlier).filter fun w => w.live now length) = none := by
    rw [Option.filter_eq_none_iff]
    intro w found
    rw [opens w found]
    decide
  rw [charge, ended]

theorem charge_stays {length : Nat} {w : Window} {now : Nat} (live : w.live now length = true) :
    charge length (some w) now = { w with count := w.count + 1 } := by
  rw [charge, Option.filter_some, if_pos live]

theorem charge_over {length : Nat} {w : Window} {now : Nat} (ended : w.live now length = false) :
    charge length (some w) now = ⟨now, 1⟩ := by
  rw [charge, Option.filter_some, ended]
  rfl

/-- The window of admitted charges: it started at one of them, it holds all of those since it
started, and every charge lies before its end. -/
structure Holds (length budget : Nat) (times : List Nat) (w : Window) : Prop where
  started : w.started ∈ times
  count : times.countP (fun t => decide (w.started ≤ t)) = w.count
  ends : ∀ t ∈ times, t < w.started + length
  within : w.count ≤ budget
  /-- The window before it holds what lies less than a length before its start. -/
  before : ∀ x, w.started ≤ x + length →
    times.countP (fun t => decide (x ≤ t ∧ t < w.started)) ≤ budget

theorem Opens.not {length : Nat} {earlier : List Nat} {now : Nat}
    (stays : ¬Opens length earlier now) :
    ∃ w, window length earlier = some w ∧ w.live now length = true := by
  unfold Opens at stays
  push Not at stays
  obtain ⟨w, found, live⟩ := stays
  exact ⟨w, found, eq_true_of_ne_false live⟩

/-- Charges to a window that is over lie before the one that opens the next. -/
theorem Opens.after {length budget : Nat} {earlier : List Nat} {now : Nat}
    (opens : Opens length earlier now) (inOrder : ∀ t ∈ earlier, t ≤ now)
    (holds : ∀ {w : Window}, window length earlier = some w → Holds length budget earlier w) :
    earlier = [] ∨ ∃ w, Holds length budget earlier w ∧ w.started + length ≤ now := by
  cases found : window length earlier with
  | none =>
      cases earlier with
      | nil => exact .inl rfl
      | cons t earlier => cases found
  | some w =>
      have held := holds found
      have ended := opens w found
      have start := inOrder w.started held.started
      simp only [Window.live, decide_eq_false_iff_not, not_lt] at ended
      exact .inr ⟨w, held, by omega⟩

theorem window_holds {length budget : Nat} (positive : 0 < length) (some_ : 1 ≤ budget) :
    ∀ {times : List Nat}, Admitted length budget times → ∀ {w : Window},
      window length times = some w → Holds length budget times w := by
  intro times
  induction times with
  | nil =>
      intro _ w found
      cases found
  | cons now earlier ih =>
      rintro ⟨admitted, inOrder, unspent⟩ w found
      obtain rfl := Option.some.inj found
      by_cases opens : Opens length earlier now
      · rw [charge_opens opens]
        have past : ∀ t ∈ earlier, t < now := by
          intro t member
          rcases opens.after inOrder (ih admitted) with rfl | ⟨w, held, ended⟩
          · cases member
          · exact Nat.lt_of_lt_of_le (held.ends t member) ended
        refine ⟨List.mem_cons_self, ?_, ?_, some_, ?_⟩
        · have none_ : earlier.countP (fun t => decide (now ≤ t)) = 0 :=
            List.countP_eq_zero.mpr fun t member here =>
              Nat.not_le.mpr (past t member) (of_decide_eq_true here)
          rw [List.countP_cons, none_, if_pos (decide_eq_true (Nat.le_refl now))]
        · intro t member
          rcases List.mem_cons.mp member with rfl | before
          · exact Nat.lt_add_of_pos_right positive
          · exact Nat.lt_add_right length (past t before)
        · intro x near
          have skipped : ¬decide (x ≤ now ∧ now < now) = true := by
            rw [decide_eq_true_iff]
            exact fun inside => Nat.lt_irrefl now inside.2
          rw [List.countP_cons, if_neg skipped, Nat.add_zero]
          rcases opens.after inOrder (ih admitted) with rfl | ⟨w, held, ended⟩
          · exact Nat.zero_le budget
          · -- what lies so near belongs to the window before
            calc earlier.countP (fun t => decide (x ≤ t ∧ t < now))
                ≤ earlier.countP (fun t => decide (w.started ≤ t)) := by
                  refine List.countP_mono_left fun t _ here => ?_
                  rw [decide_eq_true_iff] at here ⊢
                  simp only at near
                  omega
              _ = w.count := held.count
              _ ≤ budget := held.within
      · obtain ⟨w, found, live⟩ := Opens.not opens
        have held := ih admitted found
        have start := inOrder w.started held.started
        rw [found, charge_stays live]
        refine ⟨List.mem_cons_of_mem _ held.started, ?_, ?_, ?_, ?_⟩
        · rw [List.countP_cons, held.count, if_pos (decide_eq_true start)]
        · intro t member
          rcases List.mem_cons.mp member with rfl | before
          · simp only [Window.live, decide_eq_true_eq] at live
            simp only
            omega
          · exact held.ends t before
        · by_contra exceeded
          exact unspent ⟨w, found, live, Nat.le_of_lt_succ (Nat.not_le.mp exceeded)⟩
        · intro x near
          have skipped : ¬decide (x ≤ now ∧ now < w.started) = true := by
            rw [decide_eq_true_iff]
            exact fun inside => Nat.not_lt.mpr start inside.2
          rw [List.countP_cons, if_neg skipped, Nat.add_zero]
          exact held.before x near

theorem Admitted.mono {length budget budget' : Nat} (le : budget ≤ budget') :
    ∀ {times : List Nat}, Admitted length budget times → Admitted length budget' times := by
  intro times
  induction times with
  | nil => exact fun _ => trivial
  | cons now earlier ih =>
      rintro ⟨admitted, inOrder, unspent⟩
      refine ⟨ih admitted, inOrder, ?_⟩
      rintro ⟨w, found, live, spent⟩
      exact unspent ⟨w, found, live, Nat.le_trans le spent⟩

theorem Admitted.inOrder {length budget : Nat} : ∀ {times : List Nat},
    Admitted length budget times → times.Pairwise fun now earlier => earlier ≤ now := by
  intro times
  induction times with
  | nil => exact fun _ => List.Pairwise.nil
  | cons now earlier ih =>
      rintro ⟨admitted, inOrder, _⟩
      exact List.pairwise_cons.mpr ⟨inOrder, ih admitted⟩

theorem Admitted.count {length budget : Nat} (positive : 0 < length) {times : List Nat}
    (admitted : Admitted length budget times) {w : Window} (found : window length times = some w) :
    times.countP (fun t => decide (w.started ≤ t)) = w.count :=
  (window_holds positive (Nat.le_max_right budget 1)
    (admitted.mono (Nat.le_max_left budget 1)) found).count

theorem countP_le_add {α : Type} {p q r : α → Bool}
    (cover : ∀ a, p a = true → q a = true ∨ r a = true) (l : List α) :
    l.countP p ≤ l.countP q + l.countP r := by
  induction l with
  | nil => exact Nat.zero_le _
  | cons a l ih =>
      have counted : (if p a = true then 1 else 0) ≤
          (if q a = true then 1 else 0) + (if r a = true then 1 else 0) := by
        by_cases here : p a = true
        · rcases cover a here with first | second
          · rw [if_pos here, if_pos first]
            exact Nat.le_add_right 1 _
          · rw [if_pos here, if_pos second]
            exact Nat.le_add_left 1 _
        · rw [if_neg here]
          exact Nat.zero_le _
      rw [List.countP_cons, List.countP_cons, List.countP_cons]
      omega

theorem countP_stretch_le {length budget : Nat} (positive : 0 < length) (some_ : 1 ≤ budget) :
    ∀ {times : List Nat}, Admitted length budget times → ∀ t,
      times.countP (fun now => decide (t ≤ now ∧ now ≤ t + length)) ≤ 2 * budget := by
  intro times
  induction times with
  | nil => exact fun _ t => Nat.zero_le _
  | cons now earlier ih =>
      intro admitted t
      by_cases late : now ≤ t + length
      · obtain ⟨w, found⟩ : ∃ w, window length (now :: earlier) = some w := ⟨_, rfl⟩
        have held := window_holds positive some_ admitted found
        have start : w.started ≤ now := by
          rcases List.mem_cons.mp held.started with same | before
          · exact Nat.le_of_eq same
          · exact admitted.2.1 _ before
        calc (now :: earlier).countP (fun t' => decide (t ≤ t' ∧ t' ≤ t + length))
            ≤ (now :: earlier).countP (fun t' => decide (w.started ≤ t')) +
                (now :: earlier).countP (fun t' => decide (t ≤ t' ∧ t' < w.started)) := by
              refine countP_le_add (fun t' inside => ?_) _
              simp only [decide_eq_true_eq] at inside ⊢
              omega
          _ ≤ budget + budget := by
              refine Nat.add_le_add ?_ (held.before t (Nat.le_trans start late))
              rw [held.count]
              exact held.within
          _ = 2 * budget := (Nat.two_mul budget).symm
      · have skipped : ¬decide (t ≤ now ∧ now ≤ t + length) = true := by
          rw [decide_eq_true_iff]
          exact fun inside => late inside.2
        rw [List.countP_cons, if_neg skipped, Nat.add_zero]
        exact ih admitted.1 t

/-- The window that stands started at the last charge that opened one, or later. -/
theorem opened_le_started {length : Nat} {before : List Nat} {t : Nat}
    (opened : Opens length before t) : ∀ {later : List Nat},
      (later ++ t :: before).Pairwise (fun now earlier => earlier ≤ now) → ∀ {w : Window},
      window length (later ++ t :: before) = some w → t ≤ w.started := by
  intro later
  induction later with
  | nil =>
      intro _ w found
      rw [List.nil_append, window, charge_opens opened] at found
      rw [← Option.some.inj found]
  | cons now later ih =>
      intro inOrder w found
      rw [List.cons_append, List.pairwise_cons] at inOrder
      rw [List.cons_append, window] at found
      rw [← Option.some.inj found]
      by_cases opens : Opens length (later ++ t :: before) now
      · rw [charge_opens opens]
        exact inOrder.1 t (List.mem_append_right _ List.mem_cons_self)
      · obtain ⟨w', found', live⟩ := Opens.not opens
        have start := ih inOrder.2 found'
        rw [found', charge_stays live]
        exact start

theorem opens_spaced {length : Nat} {later before : List Nat} {t now : Nat}
    (inOrder : (now :: (later ++ t :: before)).Pairwise fun now earlier => earlier ≤ now)
    (opened : Opens length before t) (opens : Opens length (later ++ t :: before) now) :
    t + length ≤ now := by
  rw [List.pairwise_cons] at inOrder
  have top := inOrder.1 t (List.mem_append_right _ List.mem_cons_self)
  obtain ⟨w, found⟩ : ∃ w, window length (later ++ t :: before) = some w := by
    cases later with
    | nil => exact ⟨_, rfl⟩
    | cons now' later => exact ⟨_, rfl⟩
  have start := opened_le_started opened inOrder.2 found
  have ended := opens w found
  simp only [Window.live, decide_eq_false_iff_not, not_lt] at ended
  omega

/-- Instants that lie a gap apart, the newest first. -/
def Spaced (gap : Nat) (times : List Nat) : Prop :=
  times.Pairwise fun now earlier => earlier + gap ≤ now

theorem Spaced.span {gap t : Nat} : ∀ {times : List Nat} {now : Nat}, Spaced gap (now :: times) →
    (∀ t' ∈ now :: times, t ≤ t') → t + times.length * gap ≤ now := by
  intro times
  induction times with
  | nil =>
      intro now _ above
      rw [List.length_nil, Nat.zero_mul]
      exact above now List.mem_cons_self
  | cons next times ih =>
      intro now spaced above
      obtain ⟨apart, rest⟩ := List.pairwise_cons.mp spaced
      have inner := ih rest fun t' member => above t' (List.mem_cons_of_mem _ member)
      have step := apart next List.mem_cons_self
      rw [List.length_cons, Nat.succ_mul]
      omega

/-- A stretch shorter than `n` gaps holds no more than `n` such instants. -/
theorem Spaced.countP_le {gap n span : Nat} {times : List Nat} (spaced : Spaced gap times)
    (short : span < n * gap) (t : Nat) :
    times.countP (fun now => decide (t ≤ now ∧ now ≤ t + span)) ≤ n := by
  rw [List.countP_eq_length_filter]
  have inside : ∀ now ∈ times.filter (fun now => decide (t ≤ now ∧ now ≤ t + span)),
      t ≤ now ∧ now ≤ t + span := fun now member => of_decide_eq_true (List.mem_filter.mp member).2
  have apart : Spaced gap (times.filter fun now => decide (t ≤ now ∧ now ≤ t + span)) :=
    List.Pairwise.filter _ spaced
  generalize times.filter (fun now => decide (t ≤ now ∧ now ≤ t + span)) = within at inside apart
  cases within with
  | nil => exact Nat.zero_le n
  | cons now rest =>
      have stretch := apart.span fun t' member => (inside t' member).1
      have end_ := (inside now List.mem_cons_self).2
      rw [List.length_cons]
      by_contra ended
      have wide : n * gap ≤ rest.length * gap := Nat.mul_le_mul_right gap (by omega)
      omega

end Logweir.FixedWindows
